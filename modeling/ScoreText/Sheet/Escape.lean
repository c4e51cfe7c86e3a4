import ScoreText.Text.Quoted

/-!
Text inside HTML: the three characters that could start a tag or an entity are written as
entities. Styles are written rule by rule.
-/

namespace ScoreText

/-- A text with an entity in place of each occurrence of a character. -/
def replaceChar (c : Char) (entity : String) (s : String) : String :=
  String.ofList (s.toList.flatMap fun d => if d = c then entity.toList else [d])

/-- A text that HTML shows as it is. The ampersands are replaced first: the entities written later
have ampersands of their own. -/
def escapeHtml (s : String) : String :=
  replaceChar '>' "&gt;" (replaceChar '<' "&lt;" (replaceChar '&' "&amp;" s))

def escapeHtmlChar (c : Char) : List Char :=
  if c = '&' then "&amp;".toList
  else if c = '<' then "&lt;".toList
  else if c = '>' then "&gt;".toList
  else [c]

/-- The three replacements are one substitution: none of them touches what an earlier one wrote. -/
theorem toList_escapeHtml (s : String) :
    (escapeHtml s).toList = s.toList.flatMap escapeHtmlChar := by
  simp only [escapeHtml, replaceChar, String.toList_ofList, List.flatMap_assoc]
  refine congrArg (s.toList.flatMap ·) (funext fun c => ?_)
  by_cases hamp : c = '&'
  · subst hamp
    rfl
  · by_cases hlt : c = '<'
    · subst hlt
      rfl
    · by_cases hgt : c = '>'
      · subst hgt
        rfl
      · simp only [escapeHtmlChar, hamp, hlt, hgt, ↓reduceIte, List.flatMap_singleton]

/-- An escaped text has no character that opens or closes a tag. -/
theorem ne_of_mem_escapeHtml {s : String} {c : Char} (h : c ∈ (escapeHtml s).toList) :
    c ≠ '<' ∧ c ≠ '>' := by
  have hentity : ∀ entity ∈ ["&amp;", "&lt;", "&gt;"],
      '<' ∉ entity.toList ∧ '>' ∉ entity.toList := by decide
  rw [toList_escapeHtml] at h
  obtain ⟨d, -, hd⟩ := List.mem_flatMap.1 h
  unfold escapeHtmlChar at hd
  split at hd
  · exact ⟨ne_of_mem_of_not_mem hd (hentity _ (by simp)).1,
      ne_of_mem_of_not_mem hd (hentity _ (by simp)).2⟩
  split at hd
  · exact ⟨ne_of_mem_of_not_mem hd (hentity _ (by simp)).1,
      ne_of_mem_of_not_mem hd (hentity _ (by simp)).2⟩
  split at hd
  · exact ⟨ne_of_mem_of_not_mem hd (hentity _ (by simp)).1,
      ne_of_mem_of_not_mem hd (hentity _ (by simp)).2⟩
  · next hlt hgt =>
    rw [List.mem_singleton.1 hd]
    exact ⟨hlt, hgt⟩

/-- A rule of a style: what it is for, and what it declares. -/
def styleRule (selector declarations : String) : String :=
  selector ++ " " ++ Text.braced (" " ++ declarations ++ " ")

end ScoreText
