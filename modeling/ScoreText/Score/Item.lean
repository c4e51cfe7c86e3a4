import ScoreText.Score.Basic

/-!
Items: declarations, notes, rests and bar lines in the order of the source, and the score they
make up.
-/

namespace ScoreText

inductive Item
  | clef (clef : Clef)
  | time (time : TimeSignature)
  | element (element : Element)
  | bar
  deriving DecidableEq, Repr

namespace Item

def clef? : Item → Option Clef
  | .clef c => some c
  | _ => none

def time? : Item → Option TimeSignature
  | .time t => some t
  | _ => none

def element? : Item → Option Element
  | .element e => some e
  | _ => none

/-- The notes and rests before the first bar line, between two bar lines, and after the last
one. -/
def groups : List Item → List (List Element)
  | [] => [[]]
  | .bar :: items => [] :: groups items
  | .element e :: items =>
    match groups items with
    | [] => [[e]]
    | g :: gs => (e :: g) :: gs
  | _ :: items => groups items

end Item

/-- Measures with the given contents, numbered from `n` on. -/
def Measure.numberFrom (n : Nat) : List (List Element) → List Measure
  | [] => []
  | g :: gs => ⟨n, g⟩ :: numberFrom (n + 1) gs

/-- The score that the items make up: groups without notes and rests are no measures, and the
last clef and time signature count. -/
def Score.ofItems (items : List Item) : Score where
  measures := Measure.numberFrom 1 ((Item.groups items).filter (!·.isEmpty))
  clef := (items.filterMap Item.clef?).getLast?
  time := (items.filterMap Item.time?).getLast?

end ScoreText
