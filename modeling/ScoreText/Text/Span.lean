/-!
Sets of characters given as spans of code points.
-/

namespace ScoreText.Text

/-- First and last code point of a run of characters. -/
abbrev Span := Nat × Nat

def covers (spans : List Span) (code : Nat) : Bool :=
  spans.any fun s => s.1 ≤ code && code ≤ s.2

end ScoreText.Text
