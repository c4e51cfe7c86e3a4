import ScoreText.Position
import ScoreText.Text.Quoted

/-!
The parts of a score: pitches, durations, clefs, time signatures, and measures of notes and
rests.
-/

namespace ScoreText

/-- The character of a one-character text. -/
def onlyChar? (s : String) : Option Char :=
  match s.toList with
  | [c] => some c
  | _ => none

inductive NoteLetter
  | c
  | d
  | e
  | f
  | g
  | a
  | b
  deriving DecidableEq, Repr

namespace NoteLetter

def all : List NoteLetter := [.a, .b, .c, .d, .e, .f, .g]

def char : NoteLetter → Char
  | .c => 'C'
  | .d => 'D'
  | .e => 'E'
  | .f => 'F'
  | .g => 'G'
  | .a => 'A'
  | .b => 'B'

def ofChar? : Char → Option NoteLetter
  | 'C' => some .c
  | 'D' => some .d
  | 'E' => some .e
  | 'F' => some .f
  | 'G' => some .g
  | 'A' => some .a
  | 'B' => some .b
  | _ => none

end NoteLetter

inductive Accidental
  | sharp
  | flat
  deriving DecidableEq, Repr

namespace Accidental

def all : List Accidental := [.sharp, .flat]

/-- The sign of an accidental; a flat is written as the letter b. -/
def char : Accidental → Char
  | .sharp => '#'
  | .flat => 'b'

def ofChar? : Char → Option Accidental
  | '#' => some .sharp
  | 'b' => some .flat
  | _ => none

end Accidental

inductive Duration
  | whole
  | half
  | quarter
  | eighth
  | sixteenth
  deriving DecidableEq, Repr

namespace Duration

def all : List Duration := [.eighth, .half, .quarter, .sixteenth, .whole]

def char : Duration → Char
  | .whole => 'w'
  | .half => 'h'
  | .quarter => 'q'
  | .eighth => 'e'
  | .sixteenth => 's'

def ofChar? : Char → Option Duration
  | 'w' => some .whole
  | 'h' => some .half
  | 'q' => some .quarter
  | 'e' => some .eighth
  | 's' => some .sixteenth
  | _ => none

def ofCode? (s : String) : Option Duration := (onlyChar? s).bind ofChar?

/-- The length in quarter notes, as a decimal fraction. -/
def quarters : Duration → String
  | .whole => "4.0"
  | .half => "2.0"
  | .quarter => "1.0"
  | .eighth => "0.5"
  | .sixteenth => "0.25"

end Duration

structure UnknownDuration where
  code : String
  deriving DecidableEq, Repr

def UnknownDuration.message (u : UnknownDuration) : String :=
  Text.quoted u.code ++ " is not a valid Duration"

def Duration.ofCode (s : String) : Except UnknownDuration Duration :=
  match ofCode? s with
  | some d => .ok d
  | none => .error ⟨s⟩

inductive ClefType
  | treble
  | bass
  | alto
  | tenor
  deriving DecidableEq, Repr

namespace ClefType

def all : List ClefType := [.alto, .bass, .tenor, .treble]

def name : ClefType → String
  | .treble => "treble"
  | .bass => "bass"
  | .alto => "alto"
  | .tenor => "tenor"

def ofName? : String → Option ClefType
  | "treble" => some .treble
  | "bass" => some .bass
  | "alto" => some .alto
  | "tenor" => some .tenor
  | _ => none

end ClefType

structure Pitch where
  letter : NoteLetter
  octave : Nat
  accidental : Option Accidental := none
  deriving DecidableEq, Repr

/-- A pitch in scientific notation, such as `C#4`. -/
def Pitch.display (p : Pitch) : String :=
  String.ofList (p.letter.char :: (p.accidental.map Accidental.char).toList) ++ toString p.octave

/-- A note or a rest, with the place where it starts. -/
inductive Element
  | note (pitch : Pitch) (duration : Duration) (position : Position)
  | rest (duration : Duration) (position : Position)
  deriving DecidableEq, Repr

namespace Element

def duration : Element → Duration
  | .note _ d _ => d
  | .rest d _ => d

def position : Element → Position
  | .note _ _ p => p
  | .rest _ p => p

end Element

structure Clef where
  type : ClefType
  position : Position
  deriving DecidableEq, Repr

structure TimeSignature where
  numerator : Nat
  denominator : Nat
  position : Position
  deriving DecidableEq, Repr

def TimeSignature.display (t : TimeSignature) : String :=
  toString t.numerator ++ "/" ++ toString t.denominator

/-- The notes and rests between two bar lines. -/
structure Measure where
  number : Nat
  elements : List Element
  deriving DecidableEq, Repr

structure Metadata where
  title : Option String := none
  composer : Option String := none
  key : Option String := none
  deriving DecidableEq, Repr

/-- A score. Of several clefs or time signatures only the last one is kept. -/
structure Score where
  measures : List Measure := []
  clef : Option Clef := none
  time : Option TimeSignature := none
  metadata : Metadata := {}
  deriving DecidableEq, Repr

namespace Score

def elements (s : Score) : List Element := s.measures.flatMap Measure.elements

end Score

end ScoreText
