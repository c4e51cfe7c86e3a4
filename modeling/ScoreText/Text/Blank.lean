import ScoreText.Text.Span

/-!
White space: the blank characters of Unicode and the four separators U+001C to U+001F, and the
removal of blanks from the ends of a text.
-/

namespace ScoreText.Text

/-- The blank characters, controls included. -/
def blankSpans : List Span := [
    (0x9, 0xD), (0x1C, 0x20), (0x85, 0x85), (0xA0, 0xA0), (0x1680, 0x1680), (0x2000, 0x200A),
    (0x2028, 0x2029), (0x202F, 0x202F), (0x205F, 0x205F), (0x3000, 0x3000)]

def isBlank (c : Char) : Bool := covers blankSpans c.toNat

theorem exists_span_of_isBlank {c : Char} (h : isBlank c = true) :
    ∃ b ∈ blankSpans, b.1 ≤ c.toNat ∧ c.toNat ≤ b.2 := by
  obtain ⟨b, hb, hin⟩ := List.any_eq_true.1 h
  simp only [Bool.and_eq_true, decide_eq_true_eq] at hin
  exact ⟨b, hb, hin⟩

def trimStart (cs : List Char) : List Char := cs.dropWhile isBlank

def trimEnd (cs : List Char) : List Char := (cs.reverse.dropWhile isBlank).reverse

def trim (cs : List Char) : List Char := trimEnd (trimStart cs)

end ScoreText.Text
