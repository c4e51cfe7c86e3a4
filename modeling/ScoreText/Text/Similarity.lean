/-!
Similar words. Two words are compared by the runs of characters that they share: the longest one
is found first, then the longest ones on either side of it, and so on. Words are close when the
shared characters are at least three fifths of the characters of both.
-/

namespace ScoreText.Text

def commonStart : List Char → List Char → Nat
  | a :: as, b :: bs => if a = b then commonStart as bs + 1 else 0
  | _, _ => 0

/-- A run of characters in two texts: where it starts in each, and how long it is. -/
structure SharedRun where
  left : Nat
  right : Nat
  length : Nat
  deriving DecidableEq, Repr

/-- The longer of two runs, and the first one if they are equally long. -/
def SharedRun.longer (r s : SharedRun) : SharedRun := if r.length < s.length then s else r

/-- The run that starts at each pair of places, by the place in the first text, then by that in
the second. -/
def sharedRuns (as bs : List Char) : List SharedRun :=
  (List.range as.length).flatMap fun i =>
    (List.range bs.length).map fun j => ⟨i, j, commonStart (as.drop i) (bs.drop j)⟩

/-- The longest run that two texts share; of several, the first. -/
def longestRun (as bs : List Char) : SharedRun :=
  (sharedRuns as bs).foldl SharedRun.longer ⟨0, 0, 0⟩

theorem left_lt_of_mem_sharedRuns {as bs : List Char} {r : SharedRun}
    (h : r ∈ sharedRuns as bs) : r.left < as.length := by
  unfold sharedRuns at h
  obtain ⟨i, hi, h⟩ := List.mem_flatMap.mp h
  obtain ⟨j, _, rfl⟩ := List.mem_map.mp h
  exact List.mem_range.mp hi

/-- A run chosen from a list is the one at hand or comes from the list. -/
theorem foldl_longer (rs : List SharedRun) (r : SharedRun) :
    rs.foldl SharedRun.longer r = r ∨ rs.foldl SharedRun.longer r ∈ rs := by
  induction rs generalizing r with
  | nil => exact Or.inl rfl
  | cons s rs ih =>
    rw [List.foldl_cons]
    rcases ih (r.longer s) with h | h
    · rw [h]
      unfold SharedRun.longer
      split
      · exact Or.inr List.mem_cons_self
      · exact Or.inl rfl
    · exact Or.inr (List.mem_cons_of_mem s h)

/-- A run that is not empty starts inside the first text. -/
theorem left_longestRun_lt {as bs : List Char} (h : 0 < (longestRun as bs).length) :
    (longestRun as bs).left < as.length := by
  rcases foldl_longer (sharedRuns as bs) ⟨0, 0, 0⟩ with e | hmem
  · unfold longestRun at h
    rw [e] at h
    exact absurd h (Nat.lt_irrefl 0)
  · exact left_lt_of_mem_sharedRuns hmem

def sharedLength (as bs : List Char) : Nat :=
  let run := longestRun as bs
  if h : 0 < run.length then
    have _longer : 0 < (longestRun as bs).length := h
    have _inside := left_longestRun_lt h
    sharedLength (as.take run.left) (bs.take run.right) + run.length +
      sharedLength (as.drop (run.left + run.length)) (bs.drop (run.right + run.length))
  else 0
termination_by as.length
decreasing_by
  · rw [List.length_take]
    exact Nat.lt_of_le_of_lt (Nat.min_le_left ..) _inside
  · rw [List.length_drop]
    omega

/-- How alike a word and a name are: the length of what they share, beside the length of both. -/
structure Likeness where
  shared : Nat
  total : Nat
  deriving DecidableEq, Repr

def likeness (word name : String) : Likeness :=
  ⟨sharedLength name.toList word.toList, name.length + word.length⟩

/-- Whether a word and a name are close. Much longer and much shorter words are not. -/
def isClose (word name : String) : Bool :=
  3 * (name.length + word.length) ≤ 10 * min name.length word.length &&
    3 * (likeness word name).total ≤ 10 * (likeness word name).shared

/-- Whether the first name comes before the second one among those that are close to a word: it
is more alike, or as alike and later in the alphabet. -/
def isCloser (word first second : String) : Bool :=
  let a := likeness word first
  let b := likeness word second
  let ahead := a.shared * b.total
  let behind := b.shared * a.total
  decide (behind < ahead) || (ahead == behind && decide (¬ first < second))

/-- The names closest to a word, at most three, in alphabetic order. -/
def closeNames (word : String) (names : List String) : List String :=
  (((names.filter (isClose word)).mergeSort (isCloser word)).take 3).mergeSort
    fun a b => decide (¬ b < a)

end ScoreText.Text
