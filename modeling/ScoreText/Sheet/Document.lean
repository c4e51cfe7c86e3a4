import ScoreText.Score.Basic
import ScoreText.Sheet.Payload
import ScoreText.Text.Integer

/-!
Documents: a score in the terms of the script that draws it. A rest is placed on the middle line
of the staff, and is told from a note by its duration.
-/

namespace ScoreText

structure StaveNote where
  keys : List String
  duration : String
  accidentals : List (Option String)
  deriving DecidableEq, Repr

structure StaveMeasure where
  number : Int
  notes : List StaveNote
  deriving DecidableEq, Repr

structure Document where
  title : String
  clef : String
  timeSignature : String
  beats : Int
  beatValue : Int
  measures : List StaveMeasure
  deriving DecidableEq, Repr

/-- The duration code of the drawing script. -/
def Duration.drawn : Duration → String
  | .whole => "w"
  | .half => "h"
  | .quarter => "q"
  | .eighth => "8"
  | .sixteenth => "16"

/-- The key on the middle line of the staff. -/
def ClefType.middleKey : ClefType → String
  | .treble => "b/4"
  | .bass => "d/3"
  | .alto => "c/4"
  | .tenor => "a/3"

/-- The key of a pitch, such as `f#/5`. -/
def Pitch.key (p : Pitch) : String :=
  String.ofList (p.letter.char.toLower :: (p.accidental.map Accidental.char).toList) ++ "/" ++
    toString p.octave

def Element.toStave (clef : ClefType) : Element → StaveNote
  | .note pitch duration _ =>
    ⟨[pitch.key], duration.drawn, [pitch.accidental.map fun a => String.singleton a.char]⟩
  | .rest duration _ => ⟨[clef.middleKey], duration.drawn ++ "r", [none]⟩

def Element.octave? : Element → Option Nat
  | .note pitch _ _ => some pitch.octave
  | .rest _ _ => none

namespace Score

/-- The clef of a score: treble if none is declared. -/
def clefType (s : Score) : ClefType := (s.clef.map Clef.type).getD .treble

/-- Numerator and denominator of the time signature: four quarters if none is declared. -/
def meter (s : Score) : Nat × Nat :=
  (s.time.map fun t => (t.numerator, t.denominator)).getD (4, 4)

def toDocument (s : Score) (title : String) : Document where
  title := title
  clef := s.clefType.name
  timeSignature := toString s.meter.1 ++ "/" ++ toString s.meter.2
  beats := s.meter.1
  beatValue := s.meter.2
  measures := s.measures.map fun m => ⟨m.number, m.elements.map (Element.toStave s.clefType)⟩

/-- The numbers that stand in the texts of the document. -/
def numerals (s : Score) : List Int :=
  s.meter.1 :: s.meter.2 :: s.elements.filterMap fun e => e.octave?.map Int.ofNat

/-- The document of a score whose numbers can be written. -/
def document (s : Score) (title : String) : Except Text.NumeralFault Document :=
  (Text.checkNumerals s.numerals).map fun _ => s.toDocument title

end Score

def StaveNote.toPayload (n : StaveNote) : Payload := .record [
  ("keys", .list (n.keys.map .text)),
  ("duration", .text n.duration),
  ("accidentals", .list (n.accidentals.map fun a => (a.map Payload.text).getD .null))]

def StaveMeasure.toPayload (m : StaveMeasure) : Payload := .record [
  ("number", .integer m.number),
  ("notes", .list (m.notes.map StaveNote.toPayload))]

/-- A document and the width of the drawing, as data for the script. -/
def Document.toPayload (d : Document) (width : Nat) : Payload := .record [
  ("title", .text d.title),
  ("clef", .text d.clef),
  ("time_signature", .text d.timeSignature),
  ("beats", .integer d.beats),
  ("beat_value", .integer d.beatValue),
  ("measures", .list (d.measures.map StaveMeasure.toPayload)),
  ("width", .integer width)]

end ScoreText
