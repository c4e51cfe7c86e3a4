import ScoreText.Proofs.Json
import ScoreText.Proofs.Normalization

/-!
The part of a text that is taken for a diagram starts at the first line that mentions a keyword, and
it is all of the text if no line does (`diagramContent_cases`). A keyword in one of its lines is a
keyword in the whole text, although lines and text are put in lower case apart: what stands around a
line has an influence on the form of its sigmas and on nothing else (`infix_lower`).
-/

namespace ScoreText

open Text

/-! ## Lower case in a context -/

/-- A small sigma in the form that it has inside a word. -/
private def innerSigma (c : Char) : Char := if c = 'ς' then 'σ' else c

private theorem map_innerSigma {cs : List Char} (h : 'ς' ∉ cs) : cs.map innerSigma = cs := by
  refine (List.map_congr_left fun c hc => if_neg ?_).trans (List.map_id' cs)
  rintro rfl
  exact h hc

/-- Up to the form of sigmas, a text is put in lower case character by character. -/
private theorem map_innerSigma_lowerAfter (before cs : List Char) :
    (lowerAfter before cs).map innerSigma =
      cs.flatMap fun c => (lowerChar c).map innerSigma := by
  induction cs generalizing before with
  | nil => rfl
  | cons c cs ih =>
    rw [lowerAfter, List.flatMap_cons]
    split
    · next hc =>
      -- the only character whose image depends on what stands around it
      have hsigma : c = 'Σ' := Char.toNat_inj.1 hc
      have hlower : (lowerChar 'Σ').map innerSigma = ['σ'] := by decide +kernel
      rw [List.map_cons, ih, hsigma, hlower, List.singleton_append]
      congr 1
      split <;> decide
    · rw [List.map_append, ih]

/-- A word without sigmas that is in a text up to the form of sigmas is in it. -/
private theorem infix_of_infix_map_innerSigma {word cs : List Char} (hinner : 'σ' ∉ word)
    (h : word <:+: cs.map innerSigma) : word <:+: cs := by
  obtain ⟨found, hfound, rfl⟩ := List.infix_map_iff.1 h
  have hfinal : 'ς' ∉ found := fun hc => hinner (List.mem_map_of_mem (f := innerSigma) hc)
  rwa [map_innerSigma hfinal]

/-- A word without sigmas that stands in a piece of a text in lower case stands in the whole text in
lower case. -/
theorem infix_lower {word piece cs : List Char} (hinner : 'σ' ∉ word) (hfinal : 'ς' ∉ word)
    (hpiece : piece <:+: cs) (h : word <:+: lower piece) : word <:+: lower cs := by
  obtain ⟨front, back, rfl⟩ := hpiece
  refine infix_of_infix_map_innerSigma hinner ?_
  have hmap := h.map innerSigma
  rw [map_innerSigma hfinal, lower, map_innerSigma_lowerAfter] at hmap
  rw [lower, map_innerSigma_lowerAfter, List.flatMap_append, List.flatMap_append]
  exact hmap.trans ⟨_, _, rfl⟩

/-! ## Keywords in lines -/

def Mentions (cs : List Char) : Prop :=
  ∃ keyword ∈ ["music", "score", "notation"], keyword.toList <:+: lower cs

/-- The blanks at the ends of a line do not matter. -/
theorem announces_iff {line : List Char} : announces line = true ↔ Mentions line := by
  rw [announces, ignoresEnds_mentionsKeyword.trim, mentionsKeyword_iff]
  rfl

theorem Mentions.of_infix {piece cs : List Char} (hpiece : piece <:+: cs) (h : Mentions piece) :
    Mentions cs := by
  obtain ⟨keyword, hmem, hfound⟩ := h
  have hsigmas : ∀ k ∈ ["music", "score", "notation"], 'σ' ∉ k.toList ∧ 'ς' ∉ k.toList := by decide
  obtain ⟨hinner, hfinal⟩ := hsigmas keyword hmem
  exact ⟨keyword, hmem, infix_lower hinner hfinal hpiece hfound⟩

theorem Mentions.of_first_line {cs first : List Char} {others : List (List Char)}
    (hlines : lines cs = first :: others) (h : Mentions first) : Mentions cs := by
  refine h.of_infix ?_
  rw [← unlines_lines cs, hlines, unlines, Json.intercalate_cons]
  exact (List.prefix_append _ _).isInfix

/-- A text that mentions a keyword is detected. -/
theorem Mentions.looksLikeMusic {cs : List Char} (h : Mentions cs) : looksLikeMusic cs = true := by
  have hnormal : mentionsKeyword (trim (lower cs)) = true := announces_iff.2 h
  rw [ScoreText.looksLikeMusic, hnormal]
  rfl

/-! ## The text from its first keyword line on -/

/-- Lines in front of others end in LF. -/
theorem unlines_append (dropped : List (List Char)) {kept : List (List Char)} (hkept : kept ≠ []) :
    unlines (dropped ++ kept) = dropped.flatMap (· ++ ['\n']) ++ unlines kept := by
  induction dropped with
  | nil => rfl
  | cons line dropped ih =>
    have hrest : dropped ++ kept ≠ [] := List.append_ne_nil_of_right_ne_nil _ hkept
    rw [List.cons_append, unlines_cons hrest, ih, List.flatMap_cons]
    simp only [List.append_assoc, List.cons_append, List.nil_append]

private theorem eq_newline_of_getLast? {dropped : List (List Char)} {c : Char}
    (h : (dropped.flatMap (· ++ ['\n'])).getLast? = some c) : c = '\n' := by
  rcases List.eq_nil_or_concat dropped with rfl | ⟨others, last, rfl⟩
  · cases h
  · simpa using h.symm

/-- A text that is cut in front of one of its lines. What is left has the lines from there on. -/
theorem cut_of_lines {cs : List Char} {dropped kept : List (List Char)} (hkept : kept ≠ [])
    (h : lines cs = dropped ++ kept) :
    cs = dropped.flatMap (· ++ ['\n']) ++ unlines kept ∧ lines (unlines kept) = kept := by
  constructor
  · rw [← unlines_append dropped hkept, ← h, unlines_lines]
  · refine lines_unlines hkept fun line hline => ?_
    have hmem : line ∈ lines cs := h ▸ List.mem_append_right _ hline
    exact not_mem_of_mem_splitAtEach hmem

/-- Either no line mentions a keyword and all of the text is taken, or the first line that does
starts the part that is taken. -/
theorem diagramContent_cases (cs : List Char) :
    (∀ line ∈ lines cs, ¬ Mentions line) ∧ diagramContent cs = cs ∨
      ∃ dropped first others, lines cs = dropped ++ first :: others ∧
        (∀ line ∈ dropped, ¬ Mentions line) ∧ Mentions first ∧
        diagramContent cs = unlines (first :: others) := by
  have hdropped : ∀ line ∈ (lines cs).takeWhile (!announces ·), ¬ Mentions line := by
    intro line hline hmentions
    have hno := List.mem_takeWhile_imp hline
    rw [announces_iff.2 hmentions] at hno
    cases hno
  have hlines : (lines cs).takeWhile (!announces ·) ++ (lines cs).dropWhile (!announces ·) =
      lines cs := List.takeWhile_append_dropWhile
  have hfirst := List.head?_dropWhile_not (!announces ·) (lines cs)
  unfold diagramContent
  cases hkept : (lines cs).dropWhile (!announces ·) with
  | nil =>
    rw [hkept, List.append_nil] at hlines
    exact .inl ⟨hlines ▸ hdropped, rfl⟩
  | cons first others =>
    rw [hkept] at hlines hfirst
    have hmentions : Mentions first := announces_iff.1 (by simpa using hfirst)
    exact .inr ⟨_, first, others, hlines.symm, hdropped, hmentions, rfl⟩

/-- A text whose first line mentions a keyword is taken as it is. -/
theorem diagramContent_eq_self {cs first : List Char} {others : List (List Char)}
    (hlines : lines cs = first :: others) (h : Mentions first) : diagramContent cs = cs := by
  have hkept : (lines cs).dropWhile (!announces ·) = first :: others := by
    rw [hlines, List.dropWhile_cons_of_neg (by simpa using announces_iff.2 h)]
  have hjoined : unlines (first :: others) = cs := by rw [← hlines, unlines_lines]
  rw [diagramContent, hkept]
  exact hjoined

/-- **The content of a diagram is the text from its first keyword line on.** Some lines are dropped
from the front of the text, none of which mentions a keyword, and what is left starts where a line
starts. Its first line mentions a keyword, or else no line of the text does and nothing was dropped.
Taking the content of the content changes nothing. If something was dropped, then the text and the
content are both detected. -/
theorem diagramContent_projects (text : String) :
    let content := diagramContent text.toList
    (∃ front dropped, text.toList = front ++ content ∧ (∀ c ∈ front.getLast?, c = '\n') ∧
      lines text.toList = dropped ++ lines content ∧ ∀ line ∈ dropped, ¬ Mentions line) ∧
    ((∃ first ∈ (lines content).head?, Mentions first) ∨
      (∀ line ∈ lines text.toList, ¬ Mentions line) ∧ content = text.toList) ∧
    diagramContent content = content ∧
    (content.length < text.toList.length →
      detect (.text text) = true ∧ detect (.text (String.ofList content)) = true) := by
  intro content
  obtain ⟨hnone, hall⟩ | ⟨dropped, first, others, hlines, hdropped, hfirst, hcontent⟩ :=
    diagramContent_cases text.toList
  · have hsame : content = text.toList := hall
    rw [hsame]
    exact ⟨⟨[], [], rfl, by simp, rfl, by simp⟩, .inr ⟨hnone, rfl⟩, hall,
      fun hlt => absurd hlt (Nat.lt_irrefl _)⟩
  · obtain ⟨htext, hkept⟩ := cut_of_lines (List.cons_ne_nil first others) hlines
    rw [← hcontent] at htext hkept
    refine ⟨⟨_, dropped, htext, fun c => eq_newline_of_getLast?, hkept ▸ hlines, hdropped⟩,
      .inl ⟨first, by rw [hkept]; rfl, hfirst⟩, diagramContent_eq_self hkept hfirst, fun _ => ?_⟩
    have hmentions : Mentions content := hfirst.of_first_line hkept
    have hwhole : Mentions text.toList := by
      refine hmentions.of_infix ?_
      rw [htext]
      exact (List.suffix_append _ _).isInfix
    refine ⟨hwhole.looksLikeMusic, ?_⟩
    rw [detect, String.toList_ofList]
    exact hmentions.looksLikeMusic

/-- Two lines stand above the keyword, one of them with a dotted capital that hides another keyword,
and a sigma ends a word before it. -/
theorem diagramContent_projects_below_two_lines :
    let text := "%% MUSİC\r\n\n ΟΔΟΣ: Score \nC4 q"
    let content := " ΟΔΟΣ: Score \nC4 q"
    diagramContent text.toList = content.toList ∧ diagramContent content.toList = content.toList ∧
      content.toList.length < text.toList.length ∧
      detect (.text text) = true ∧ detect (.text content) = true := by
  intro text content
  have hcontent : diagramContent text.toList = content.toList := by decide +kernel
  have hshorter : content.toList.length < text.toList.length := by decide
  obtain ⟨-, -, hagain, hdetected⟩ := diagramContent_projects text
  rw [hcontent, String.ofList_toList] at hdetected
  rw [hcontent] at hagain
  exact ⟨hcontent, hagain, hshorter, hdetected hshorter⟩

end ScoreText
