import ScoreText.Lexeme
import ScoreText.Text.Digit
import ScoreText.Text.Quoted
import ScoreText.Text.Recognizer

/-!
The notation described by tables: its words, the shapes of its smallest parts, and its rules with
examples.
-/

namespace ScoreText

def restWords : List String := ["r"]

def keywords : List String := ["clef", "time"]

/-- Where an element belongs in a score: declarations come before the contents of measures. -/
def precedence : List (String × Nat) :=
  [("clef", 1), ("time_signature", 2), ("note", 3), ("rest", 3), ("bar", 4)]

structure Rule where
  name : String
  pattern : String
  description : String
  examples : List String
  deriving DecidableEq, Repr

def rules : List Rule := [
  { name := "note"
    pattern := "<note-name>[<accidental>]<octave> <duration>"
    description := "A pitched note with a duration"
    examples := ["C4 q", "F#5 h", "Bb3 e"] },
  { name := "rest"
    pattern := "r <duration>"
    description := "A rest with a duration"
    examples := ["r q", "r h", "r w"] },
  { name := "clef"
    pattern := "clef: <clef-type>"
    description := "Clef declaration"
    examples := ["clef: treble", "clef: bass"] },
  { name := "time-signature"
    pattern := "time: <numerator>/<denominator>"
    description := "Time signature declaration"
    examples := ["time: 4/4", "time: 3/4", "time: 6/8"] },
  { name := "measure-separator"
    pattern := "|"
    description := "Bar line closing the current measure"
    examples := ["|"] },
  { name := "score-structure"
    pattern := "[clef] [time] <measures>"
    description := "A complete score"
    examples := ["clef: treble\ntime: 4/4\nC4 q D4 q E4 h | F4 w"] }]

inductive Part
  | noteName
  | accidental
  | octave
  | duration
  | clef
  | barLine
  | rest
  | colon
  | slash
  | identifier
  | number
  deriving DecidableEq, Repr

/-- A name that belongs to no part. -/
structure UnknownPart where
  name : String
  deriving DecidableEq, Repr

def UnknownPart.message (u : UnknownPart) : String := Text.quoted u.name

namespace Part

def ofName : String → Except UnknownPart Part
  | "note_name" => .ok .noteName
  | "accidental" => .ok .accidental
  | "octave" => .ok .octave
  | "duration" => .ok .duration
  | "clef" => .ok .clef
  | "bar_line" => .ok .barLine
  | "rest" => .ok .rest
  | "colon" => .ok .colon
  | "slash" => .ok .slash
  | "identifier" => .ok .identifier
  | "number" => .ok .number
  | name => .error ⟨name⟩

def hasShape : Part → List Char → Bool
  | .noteName, [c] => isNoteLetter c
  | .accidental, [c] => isAccidentalSign c
  | .octave, [c] => c.isDigit
  | .duration, [c] => isDurationCode c
  | .clef, cs => (ClefType.ofName? (String.ofList cs)).isSome
  | .barLine, cs => cs == ['|']
  | .rest, cs => cs == ['r']
  | .colon, cs => cs == [':']
  | .slash, cs => cs == ['/']
  | .identifier, c :: cs =>
    (c.isAlpha || c == '_') && cs.all fun d => d.isAlphanum || d == '_'
  | .number, c :: cs => (c :: cs).all Text.isDecimal
  | _, _ => false

/-- Whether a text has the shape of a part; one LF at its end does not count. -/
def accepts (part : Part) (text : String) : Bool :=
  let cs := text.toList
  part.hasShape cs || (cs.getLast? == some '\n' && part.hasShape cs.dropLast)

end Part

end ScoreText
