import ScoreText.Fault
import ScoreText.Score.Basic

/-!
Outlines: a score as one part of measures, the form that is written as MusicXML. The clef and the
time signature stand in the first measure, and a flat is written as a minus sign. A library makes
the meter of a time signature and writes the MusicXML text; whether it can is for it to say.
-/

namespace ScoreText

/-- A measure of an outline; a rest has no name. -/
structure OutlineMeasure where
  number : Nat
  clefs : List ClefType
  times : List String
  elements : List (Option String × Duration)
  deriving DecidableEq, Repr

structure Outline where
  title : Option String
  composer : Option String
  measures : List OutlineMeasure
  deriving DecidableEq, Repr

/-- The name of a pitch in an outline, such as `B-3`: a minus sign stands for every b. -/
def Pitch.engravedName (p : Pitch) : String :=
  String.ofList (p.display.toList.map fun c => if c = 'b' then '-' else c)

def Element.toOutline : Element → Option String × Duration
  | .note pitch duration _ => (some pitch.engravedName, duration)
  | .rest duration _ => (none, duration)

def Measure.toOutline (s : Score) (m : Measure) : OutlineMeasure where
  number := m.number
  clefs := if m.number = 1 then (s.clef.map Clef.type).toList else []
  times := if m.number = 1 then (s.time.map TimeSignature.display).toList else []
  elements := m.elements.map Element.toOutline

/-- The outline of a score. Empty texts about it are left out. -/
def Score.toOutline (s : Score) : Outline where
  title := s.metadata.title.filter (· ≠ "")
  composer := s.metadata.composer.filter (· ≠ "")
  measures := s.measures.map (Measure.toOutline s)

/-- A library that writes music: what keeps it from making a meter of a time signature, given by
numerator and denominator, and the bytes of the MusicXML text of an outline. -/
structure Notator where
  meterFault? : Nat → Nat → Option LibraryFault
  musicXml : Outline → Except LibraryFault (List UInt8)

/-- A notator that takes every time signature and writes one text for all outlines. -/
def Notator.constant (xml : String) : Notator where
  meterFault? _ _ := none
  musicXml _ := .ok xml.toUTF8.toList

namespace Score

/-- What keeps the first measure from showing its meter. -/
def meterFault? (notator : Notator) (s : Score) : Option LibraryFault :=
  if s.measures.any (·.number = 1) then
    s.time.bind fun t => notator.meterFault? t.numerator t.denominator
  else none

def outline (notator : Notator) (s : Score) : Except LibraryFault Outline :=
  match s.meterFault? notator with
  | some fault => .error fault
  | none => .ok s.toOutline

def musicXml (notator : Notator) (s : Score) : Except LibraryFault (List UInt8) :=
  (s.outline notator).bind notator.musicXml

end Score

/-- The kind of clef object in an outline. -/
def ClefType.engravedName : ClefType → String
  | .treble => "TrebleClef"
  | .bass => "BassClef"
  | .alto => "AltoClef"
  | .tenor => "TenorClef"

end ScoreText
