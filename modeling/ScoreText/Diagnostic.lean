import ScoreText.Input
import ScoreText.Token

/-!
Diagnostics: what is wrong with a notation text, where, and which tokens would have been right
instead.
-/

namespace ScoreText

/-- A point in the grammar, named by what has been read before it. -/
inductive Context
  | start
  | afterClef
  | afterTime
  | inMeasure
  | afterClefKeyword
  | afterTimeKeyword
  | afterNoteName
  | afterAccidental
  | afterOctave
  | afterRest
  deriving DecidableEq, Repr

namespace Context

def ofName? : String → Option Context
  | "start" => some .start
  | "after-clef" => some .afterClef
  | "after-time" => some .afterTime
  | "in-measure" => some .inMeasure
  | "after-clef-keyword" => some .afterClefKeyword
  | "after-time-keyword" => some .afterTimeKeyword
  | "after-note-name" => some .afterNoteName
  | "after-accidental" => some .afterAccidental
  | "after-octave" => some .afterOctave
  | "after-rest" => some .afterRest
  | _ => none

/-- The kinds of token that may come next, in the order of their names. -/
def expected : Context → List Kind
  | .start => [.identifier, .note, .pipe, .rest]
  | .afterClef => [.identifier, .note, .rest]
  | .afterTime | .inMeasure => [.note, .pipe, .rest]
  | .afterClefKeyword | .afterTimeKeyword => [.colon]
  | .afterNoteName => [.accidental, .number]
  | .afterAccidental => [.number]
  | .afterOctave | .afterRest => [.duration]

end Context

/-- The kinds expected at a named point of the grammar; none at a point that does not exist. -/
def expectedAt (name : String) : List Kind :=
  ((Context.ofName? name).map Context.expected).getD []

/-- Names in a row, with `or` before the last one. -/
def alternatives : List String → String
  | [] => ""
  | [name] => name
  | names => ", ".intercalate names.dropLast ++ " or " ++ names.getLastD ""

inductive Problem
  | strayCharacter (c : Char)
  | unknownIdentifier (text : String)
  | unexpectedToken (kind : Kind)
  | invalidNoteName (name : String)
  | missingOctave (afterAccidental : Bool)
  | invalidOctave (text : String)
  | missingNoteDuration
  | missingRestDuration
  | invalidDuration (text : String)
  | missingClefColon
  | missingClefType
  | invalidClefType (name : String)
  | missingTimeColon
  | missingNumerator
  | missingSlash
  | missingDenominator
  | invalidTimeSignature (numerator denominator : String)
  | rejectedInput (fault : InputFault)
  | reported (message : String) (expected : List Kind)
  deriving DecidableEq, Repr

namespace Problem

def message : Problem → String
  | .strayCharacter c => "Unexpected character: '" ++ String.singleton c ++ "'"
  | .unknownIdentifier text => "Unknown identifier: " ++ text
  | .unexpectedToken kind => "Unexpected token: " ++ kind.name
  | .invalidNoteName name => "Invalid note name: " ++ name
  | .missingOctave _ => "Expected octave number after note"
  | .invalidOctave text => "Invalid octave: " ++ text
  | .missingNoteDuration => "Expected duration after note"
  | .missingRestDuration => "Expected duration after rest"
  | .invalidDuration text => "Invalid duration: " ++ text
  | .missingClefColon => "Expected colon after clef"
  | .missingClefType => "Expected clef type after colon"
  | .invalidClefType name => "Invalid clef type: " ++ name
  | .missingTimeColon => "Expected colon after time"
  | .missingNumerator => "Expected numerator after time:"
  | .missingSlash => "Expected slash after numerator"
  | .missingDenominator => "Expected denominator after slash"
  | .invalidTimeSignature n d => "Invalid time signature: " ++ n ++ "/" ++ d
  | .rejectedInput fault => "Failed to parse input: " ++ fault.message
  | .reported message _ => message

/-- The point of the grammar at which a problem arose, where the tokens that fit there are worth
listing. -/
def context? : Problem → Option Context
  | .missingOctave true => some .afterAccidental
  | .missingOctave false => some .afterNoteName
  | .missingNoteDuration => some .afterOctave
  | .missingRestDuration => some .afterRest
  | .missingClefColon => some .afterClefKeyword
  | .missingTimeColon => some .afterTimeKeyword
  | _ => none

def expected : Problem → List Kind
  | .reported _ kinds => Kind.all.filter (kinds.contains ·)
  | p => (p.context?.map Context.expected).getD []

end Problem

/-- A problem at a place, with the token that shows it when there is one. -/
structure Diagnostic where
  problem : Problem
  position : Position
  token : Option Token := none
  deriving DecidableEq, Repr

namespace Diagnostic

def atToken (problem : Problem) (token : Token) : Diagnostic :=
  ⟨problem, token.position, some token⟩

def message (d : Diagnostic) : String := d.problem.message

def expected (d : Diagnostic) : List Kind := d.problem.expected

def display (d : Diagnostic) : String :=
  let head := d.position.display ++ ": " ++ d.message
  match d.expected with
  | [] => head
  | kinds => head ++ " (expected " ++ ", ".intercalate (kinds.map Kind.name) ++ ")"

end Diagnostic

end ScoreText
