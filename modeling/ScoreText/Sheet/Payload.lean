import ScoreText.Text.Quoted

/-!
Data that is handed to a page's script, and its JSON text. The text is plain ASCII without
blanks, and is made safe to stand inside a script element.
-/

namespace ScoreText

inductive Payload
  | null
  | integer (n : Int)
  | text (s : String)
  | list (items : List Payload)
  | record (fields : List (String × Payload))
  deriving Repr

namespace Payload

def unitEscape (n : Nat) : String := "\\u" ++ Text.hex 4 n

/-- One character inside a JSON string. Characters beyond the 16-bit range take two units. -/
def escapeChar (c : Char) : String :=
  if c = '"' then "\\\""
  else if c = '\\' then "\\\\"
  else if c = '\n' then "\\n"
  else if c = '\r' then "\\r"
  else if c = '\t' then "\\t"
  else if c.toNat = 0x08 then "\\b"
  else if c.toNat = 0x0C then "\\f"
  else if 0x20 ≤ c.toNat ∧ c.toNat ≤ 0x7E then String.singleton c
  else if c.toNat < 0x10000 then unitEscape c.toNat
  else
    let n := c.toNat - 0x10000
    unitEscape (0xD800 + n / 0x400) ++ unitEscape (0xDC00 + n % 0x400)

def jsonString (s : String) : String :=
  "\"" ++ String.join (s.toList.map escapeChar) ++ "\""

mutual

def json : Payload → String
  | .null => "null"
  | .integer n => toString n
  | .text s => jsonString s
  | .list items => "[" ++ ",".intercalate (jsonItems items) ++ "]"
  | .record fields => Text.braced (",".intercalate (jsonFields fields))

def jsonItems : List Payload → List String
  | [] => []
  | p :: ps => p.json :: jsonItems ps

def jsonFields : List (String × Payload) → List String
  | [] => []
  | (key, p) :: ps => (jsonString key ++ ":" ++ p.json) :: jsonFields ps

end

end Payload

/-- A JSON text in which no `</` is left: a backslash before the slash, which JSON ignores, keeps
a script element open. -/
def guardTags : List Char → List Char
  | [] => []
  | '<' :: '/' :: rest => '<' :: '\\' :: '/' :: guardTags rest
  | c :: rest => c :: guardTags rest

end ScoreText
