import ScoreText.Text.Hex
import ScoreText.Text.Printable

/-!
Quoted texts, as messages and listings show them. A text stands between apostrophes, or between
double quotes when it holds an apostrophe and no double quote. Backslashes, the enclosing quote
and characters without a visible form are escaped. Braces enclose a text as it is.
-/

namespace ScoreText.Text

/-- The numeric escape of a character, as short as its code point allows. -/
def numericEscape (c : Char) : String :=
  if c.toNat < 0x100 then "\\x" ++ hex 2 c.toNat
  else if c.toNat < 0x10000 then "\\u" ++ hex 4 c.toNat
  else "\\U" ++ hex 8 c.toNat

def quotedChar (mark c : Char) : String :=
  if c = mark ∨ c = '\\' then String.ofList ['\\', c]
  else if c = '\t' then "\\t"
  else if c = '\n' then "\\n"
  else if c = '\r' then "\\r"
  else if isPrintable c then String.singleton c
  else numericEscape c

/-- The quote that encloses a text. -/
def quoteMark (s : String) : Char :=
  if s.toList.contains '\x27' && !s.toList.contains '"' then '"' else '\x27'

def quoted (s : String) : String :=
  let mark := quoteMark s
  String.singleton mark ++ String.join (s.toList.map (quotedChar mark)) ++ String.singleton mark

def braced (s : String) : String := String.singleton '{' ++ s ++ String.singleton '}'

@[simp]
theorem toList_braced (s : String) : (braced s).toList = '{' :: (s.toList ++ ['}']) := by
  simp [braced]

end ScoreText.Text
