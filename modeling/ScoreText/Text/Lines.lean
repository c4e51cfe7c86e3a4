/-!
Lines and line ends.
-/

namespace ScoreText.Text

/-- The text with every line end written as LF: CR LF and a lone CR both end a line. -/
def unifyNewlines : List Char → List Char
  | [] => []
  | '\r' :: '\n' :: rest => '\n' :: unifyNewlines rest
  | '\r' :: rest => '\n' :: unifyNewlines rest
  | c :: rest => c :: unifyNewlines rest

/-- The parts of a text between the separators. There is always at least one part. -/
def splitAtEach (separator : Char) : List Char → List (List Char)
  | [] => [[]]
  | c :: rest =>
    if c = separator then [] :: splitAtEach separator rest
    else
      match splitAtEach separator rest with
      | [] => [[c]]
      | part :: parts => (c :: part) :: parts

theorem splitAtEach_eq_splitOn (separator : Char) (cs : List Char) :
    splitAtEach separator cs = cs.splitOn separator := by
  induction cs with
  | nil => rfl
  | cons c cs ih =>
    rw [splitAtEach, ih, List.splitOn_cons_eq_if_modifyHead]
    obtain ⟨part, parts, hparts⟩ := List.exists_cons_of_ne_nil (List.splitOn_ne_nil separator cs)
    rw [hparts]
    by_cases hc : c = separator
    · simp [hc]
    · simp [hc]

theorem not_mem_of_mem_splitAtEach {separator : Char} {cs part : List Char}
    (h : part ∈ splitAtEach separator cs) : separator ∉ part := by
  induction cs generalizing part with
  | nil =>
    rw [List.mem_singleton.1 h]
    simp
  | cons c cs ih =>
    rw [splitAtEach] at h
    split at h
    · rcases List.mem_cons.1 h with rfl | h
      · simp
      · exact ih h
    · next hc =>
      split at h
      · rw [List.mem_singleton.1 h]
        simpa using Ne.symm hc
      · next first rest heq =>
        rcases List.mem_cons.1 h with rfl | h
        · have hfirst : separator ∉ first := ih (by rw [heq]; exact List.mem_cons_self)
          simp [hfirst, Ne.symm hc]
        · exact ih (by rw [heq]; exact List.mem_cons_of_mem _ h)

/-- The lines of a text, without the LF between them. -/
def lines (cs : List Char) : List (List Char) := splitAtEach '\n' cs

def unlines (ls : List (List Char)) : List Char := ['\n'].intercalate ls

theorem unlines_cons {l : List Char} {ls : List (List Char)} (h : ls ≠ []) :
    unlines (l :: ls) = l ++ '\n' :: unlines ls :=
  (List.intercalate_cons_of_ne_nil h).trans (List.append_assoc _ _ _)

theorem unlines_lines (cs : List Char) : unlines (lines cs) = cs := by
  rw [unlines, lines, splitAtEach_eq_splitOn, List.intercalate_splitOn]

/-- Lines that were joined come apart again. -/
theorem lines_unlines {ls : List (List Char)} (hne : ls ≠ []) (h : ∀ l ∈ ls, '\n' ∉ l) :
    lines (unlines ls) = ls := by
  rw [lines, unlines, splitAtEach_eq_splitOn, List.splitOn_intercalate '\n' h hne]

end ScoreText.Text
