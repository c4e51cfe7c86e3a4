/-!
Recognizers: patterns that are matched at the start of a text, each part taking as much as it
can. The parts used in this project never compete for a character, so taking less would never
help.
-/

namespace ScoreText.Text

/-- A pattern: what is left of a text that starts with a match. -/
abbrev Recognizer := List Char → Option (List Char)

namespace Recognizer

def one (p : Char → Bool) : Recognizer
  | [] => none
  | c :: cs => if p c then some cs else none

def many (p : Char → Bool) : Recognizer := fun cs => some (cs.dropWhile p)

def many1 (p : Char → Bool) : Recognizer := fun cs => (one p cs).bind (many p)

/-- A character of a class, if one stands there. -/
def optional (p : Char → Bool) : Recognizer := fun cs => some ((one p cs).getD cs)

/-- The characters of a word, compared after folding the characters of the text. -/
def word (fold : Char → Char) : List Char → Recognizer
  | [] => some
  | w :: ws => fun cs => (one (fold · == w) cs).bind (word fold ws)

def andThen (r s : Recognizer) : Recognizer := fun cs => (r cs).bind s

def firstOf (rs : List Recognizer) : Recognizer := fun cs => rs.findSome? (· cs)

def matchesAll (r : Recognizer) (cs : List Char) : Bool := r cs == some []

def occursIn (r : Recognizer) : List Char → Bool
  | [] => (r []).isSome
  | c :: cs => (r (c :: cs)).isSome || occursIn r cs

theorem length_one {p : Char → Bool} {cs rest : List Char} (h : one p cs = some rest) :
    rest.length < cs.length := by
  cases cs with
  | nil => simp [one] at h
  | cons c cs =>
    simp only [one] at h
    split at h
    · cases h
      simp
    · cases h

theorem length_many {p : Char → Bool} {cs rest : List Char} (h : many p cs = some rest) :
    rest.length ≤ cs.length := by
  cases h
  exact (List.dropWhile_suffix _).length_le

theorem length_many1 {p : Char → Bool} {cs rest : List Char} (h : many1 p cs = some rest) :
    rest.length < cs.length := by
  obtain ⟨mid, h₁, h₂⟩ := Option.bind_eq_some_iff.1 h
  exact Nat.lt_of_le_of_lt (length_many h₂) (length_one h₁)

theorem length_optional {p : Char → Bool} {cs rest : List Char} (h : optional p cs = some rest) :
    rest.length ≤ cs.length := by
  unfold optional at h
  cases h
  cases ho : one p cs with
  | none => simp
  | some mid => exact Nat.le_of_lt (length_one ho)

end Recognizer

end ScoreText.Text
