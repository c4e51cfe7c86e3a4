/-!
Values that arrive where a text is wanted.
-/

namespace ScoreText

inductive ValueKind
  | text
  | integer
  | fraction
  | boolean
  | null
  | list
  | object
  | named (name : String)
  deriving DecidableEq, Repr

def ValueKind.name : ValueKind → String
  | .text => "str"
  | .integer => "int"
  | .fraction => "float"
  | .boolean => "bool"
  | .null => "NoneType"
  | .list => "list"
  | .object => "dict"
  | .named name => name

structure InputFault where
  required : String
  received : ValueKind
  deriving DecidableEq, Repr

/-- A message with the name of the program in front. -/
def programMessage (message : String) : String := "scoreline: " ++ message

def InputFault.message (f : InputFault) : String :=
  programMessage ("Expected " ++ f.required ++ " input, received " ++ f.received.name)

/-- The sort of value that a requirement names; other requirements are met by everything. -/
def requiredKind? : String → Option ValueKind
  | "string" => some .text
  | "object" => some .object
  | _ => none

def checkInput (required : String) (received : ValueKind) : Except InputFault Unit :=
  match requiredKind? required with
  | some kind => if received = kind then .ok () else .error ⟨required, received⟩
  | none => .ok ()

/-- A value offered as notation: a text, or something else of a known sort. -/
inductive Input
  | text (content : String)
  | other (kind : ValueKind)
  deriving DecidableEq, Repr

end ScoreText
