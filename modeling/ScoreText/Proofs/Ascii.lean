import ScoreText.Text.Case
import ScoreText.Text.Integer

/-!
Letters and digits of ASCII. Changing case keeps a letter a letter, and a run of digits is read as
its decimal value, provided that it is not too long (`integer?_of_digits`).
-/

namespace ScoreText.Text

/-! ## Letters -/

theorem isAlpha_iff_toNat (c : Char) :
    c.isAlpha = true ↔ (65 ≤ c.toNat ∧ c.toNat ≤ 90) ∨ (97 ≤ c.toNat ∧ c.toNat ≤ 122) := by
  have hdef : c.isAlpha = (decide ('A'.val ≤ c.val ∧ c.val ≤ 'Z'.val) ||
      (decide ('a'.val ≤ c.val) && decide (c.val ≤ 'z'.val))) := rfl
  simp [hdef, UInt32.le_iff_toNat_le]

theorem toNat_toLower_of_isUpper {c : Char} (h : 65 ≤ c.toNat ∧ c.toNat ≤ 90) :
    c.toLower.toNat = c.toNat + 32 := by
  have hu : c.val ≥ 'A'.val ∧ c.val ≤ 'Z'.val := by
    simpa [UInt32.le_iff_toNat_le] using h
  unfold Char.toLower
  rw [dif_pos hu]
  simp only [Char.toNat_mk, UInt32.toNat_add, Char.toNat_val]
  have : ('a'.val - 'A'.val).toNat = 32 := rfl
  omega

theorem toLower_of_not_isUpper {c : Char} (h : ¬ (65 ≤ c.toNat ∧ c.toNat ≤ 90)) :
    c.toLower = c := by
  have hu : ¬ (c.val ≥ 'A'.val ∧ c.val ≤ 'Z'.val) := by
    simpa [UInt32.le_iff_toNat_le] using h
  unfold Char.toLower
  exact dif_neg hu

theorem isLower_iff_toNat (c : Char) : c.isLower = true ↔ 97 ≤ c.toNat ∧ c.toNat ≤ 122 := by
  have hdef : c.isLower = (decide ('a'.val ≤ c.val) && decide (c.val ≤ 'z'.val)) := rfl
  simp [hdef, UInt32.le_iff_toNat_le]

theorem toNat_toUpper (c : Char) :
    c.toUpper.toNat = if 97 ≤ c.toNat ∧ c.toNat ≤ 122 then c.toNat - 32 else c.toNat := by
  have hlower : (c.val ≥ 'a'.val ∧ c.val ≤ 'z'.val) ↔ 97 ≤ c.toNat ∧ c.toNat ≤ 122 := by
    simp [UInt32.le_iff_toNat_le]
  unfold Char.toUpper
  split
  · next hl =>
    rw [hlower] at hl
    have hn : ('A'.val - 'a'.val).toNat = 4294967264 := rfl
    rw [if_pos hl]
    simp only [Char.toNat_mk, UInt32.toNat_add, Char.toNat_val]
    omega
  · next hl => rw [if_neg (mt hlower.2 hl)]

theorem isAlpha_toUpper {c : Char} (h : c.isAlpha = true) : c.toUpper.isAlpha = true := by
  rw [isAlpha_iff_toNat] at h ⊢
  rw [toNat_toUpper]
  split <;> omega

theorem isLower_toUpper (c : Char) : c.toUpper.isLower = false := by
  rw [Bool.eq_false_iff, ne_eq, isLower_iff_toNat, toNat_toUpper]
  split <;> omega

theorem toLower_toUpper {c : Char} (h : c.isLower = true) : c.toUpper.toLower = c := by
  rw [isLower_iff_toNat] at h
  have hupper := toNat_toUpper c
  rw [if_pos h] at hupper
  have hlower := toNat_toLower_of_isUpper (c := c.toUpper) (by omega)
  exact Char.toNat_inj.1 (by omega)

/-- Only the two forms of a letter are lowered to it. -/
theorem toNat_of_toLower_eq {c d : Char} (h : c.toLower = d) :
    c = d ∨ c.toNat + 32 = d.toNat := by
  by_cases hc : 65 ≤ c.toNat ∧ c.toNat ≤ 90
  · right
    rw [← h, toNat_toLower_of_isUpper hc]
  · left
    rwa [toLower_of_not_isUpper hc] at h

/-- What is lowered to something other than a small letter was that before. -/
theorem eq_of_toLower_eq {c d : Char} (hd : d.toNat < 97) (h : c.toLower = d) : c = d := by
  by_cases hupper : 65 ≤ c.toNat ∧ c.toNat ≤ 90
  · have hlower := toNat_toLower_of_isUpper hupper
    rw [h] at hlower
    omega
  · rwa [toLower_of_not_isUpper hupper] at h

theorem isAlpha_toLower (c : Char) : c.toLower.isAlpha = c.isAlpha := by
  rw [Bool.eq_iff_iff, isAlpha_iff_toNat, isAlpha_iff_toNat]
  by_cases hupper : 65 ≤ c.toNat ∧ c.toNat ≤ 90
  · rw [toNat_toLower_of_isUpper hupper]
    omega
  · rw [toLower_of_not_isUpper hupper]

theorem isAlpha_of_map_toLower {cs ds : List Char} (h : cs.map Char.toLower = ds)
    (hds : ds.all Char.isAlpha = true) : ∀ c ∈ cs, c.isAlpha = true := by
  intro c hc
  rw [← isAlpha_toLower]
  exact List.all_eq_true.1 hds _ (h ▸ List.mem_map_of_mem hc)

private theorem caseImage?_of_isBlank {c : Char} (h : isBlank c = true) :
    caseImage? lowerRuns c.toNat = none := by
  obtain ⟨blank, hblank, hin⟩ := exists_span_of_isBlank h
  have hapart : ∀ b ∈ blankSpans, ∀ r ∈ lowerRuns, r.2.1 < b.1 ∨ b.2 < r.1 := by decide +kernel
  rw [caseImage?, Option.map_eq_none_iff, List.find?_eq_none]
  rintro ⟨first, last, step, image⟩ hrun
  have hoff : last < blank.1 ∨ blank.2 < first := hapart blank hblank _ hrun
  simp only [Bool.and_eq_true, decide_eq_true_eq]
  omega

private theorem lowerChar_of_isBlank {c : Char} (h : isBlank c = true) :
    lowerChar c = [c.toLower] := by
  have hdotted : c.toNat ≠ 0x130 := by
    intro hc
    rw [isBlank, hc] at h
    revert h
    decide
  rw [lowerChar, if_neg hdotted, caseImage?_of_isBlank h]
  by_cases hascii : c.toNat < 0x80
  · rw [if_pos hascii]
  · rw [if_neg hascii, toLower_of_not_isUpper (by omega), Option.getD_none]

private theorem lowerAfter_eq_map (before : List Char) {cs : List Char}
    (h : ∀ c ∈ cs, c.toNat < 128 ∨ isBlank c = true) :
    lowerAfter before cs = cs.map Char.toLower := by
  induction cs generalizing before with
  | nil => rfl
  | cons c cs ih =>
    obtain ⟨hc, hcs⟩ := List.forall_mem_cons.1 h
    have hsigma : c.toNat ≠ 0x3A3 := by
      intro hc'
      rw [isBlank, hc'] at hc
      revert hc
      decide
    have hchar : lowerChar c = [c.toLower] := by
      rcases hc with hascii | hblank
      · rw [lowerChar, if_pos hascii]
      · exact lowerChar_of_isBlank hblank
    rw [lowerAfter, if_neg hsigma, hchar, ih _ hcs]
    rfl

/-- ASCII characters and blanks are put in lower case one by one. -/
theorem lower_eq_map {cs : List Char} (h : ∀ c ∈ cs, c.toNat < 128 ∨ isBlank c = true) :
    lower cs = cs.map Char.toLower :=
  lowerAfter_eq_map [] h

/-- Letters are lowered one by one. -/
theorem lower_of_isAlpha {cs : List Char} (h : ∀ c ∈ cs, c.isAlpha = true) :
    lower cs = cs.map Char.toLower := by
  refine lower_eq_map fun c hc => .inl ?_
  have hletter := (isAlpha_iff_toNat c).1 (h c hc)
  omega

/-- A letter has one capital. -/
theorem upper_of_isAlpha {c : Char} (h : c.isAlpha = true) : upper [c] = [c.toUpper] := by
  have hc := (isAlpha_iff_toNat c).1 h
  have hascii : c.toNat < 0x80 := by omega
  simp [upper, upperChar, hascii]

/-! ## Digits -/

theorem isDigit_iff_toNat (c : Char) : c.isDigit = true ↔ 48 ≤ c.toNat ∧ c.toNat ≤ 57 :=
  Char.isDigit_iff_toNat

theorem isAlpha_of_isDigit {c : Char} (h : c.isDigit = true) : c.isAlpha = false := by
  have hd := (isDigit_iff_toNat c).1 h
  rw [Bool.eq_false_iff, Ne, isAlpha_iff_toNat]
  omega

def decimal (cs : List Char) : Nat := Nat.ofDigitChars 10 cs 0

private theorem digit?_of_isDigit {c : Char} (h : c.isDigit = true) :
    digit? c = some (c.toNat - 48) := by
  obtain ⟨h₁, h₂⟩ := (isDigit_iff_toNat c).1 h
  simp [digit?, zeros, h₁, h₂]

private theorem isNumberBlank_of_isDigit {c : Char} (h : c.isDigit = true) :
    isNumberBlank c = false := by
  obtain ⟨h₁, h₂⟩ := (isDigit_iff_toNat c).1 h
  simp only [isNumberBlank, isBlank, covers, blankSpans, List.any_cons, List.any_nil]
  have : ¬ c.toNat ≤ 0x20 := by omega
  have : ¬ 0x85 ≤ c.toNat := by omega
  simp
  omega

private theorem digitRun?_of_digits {cs : List Char} (hne : cs ≠ [])
    (h : ∀ c ∈ cs, c.isDigit = true) :
    digitRun? cs = some (cs.map fun c => c.toNat - 48) := by
  induction cs with
  | nil => exact absurd rfl hne
  | cons c cs ih =>
    have hc := digit?_of_isDigit (h c (by simp))
    cases cs with
    | nil => simp [digitRun?, hc]
    | cons d rest =>
      have hd : d ≠ '_' := by
        rintro rfl
        exact absurd (h '_' (by simp)) (by decide)
      have hrest := ih (by simp) fun e he => h e (by simp [he])
      simp [digitRun?, hc, hd, hrest]

private theorem ofDigits_map (cs : List Char) :
    ofDigits (cs.map fun c => c.toNat - 48) = decimal cs := by
  simp only [ofDigits, decimal, Nat.ofDigitChars_eq_foldl, List.foldl_map]
  rfl

private theorem natural?_of_digits {cs : List Char} (hne : cs ≠ [])
    (h : ∀ c ∈ cs, c.isDigit = true) :
    natural? cs = if cs.length ≤ maxDigits then some (decimal cs) else none := by
  simp [natural?, digitRun?_of_digits hne h, ofDigits_map]

private theorem dropWhile_isNumberBlank {cs : List Char} (h : ∀ c ∈ cs, c.isDigit = true) :
    cs.dropWhile isNumberBlank = cs := by
  cases cs with
  | nil => rfl
  | cons c cs => simp [isNumberBlank_of_isDigit (h c (by simp))]

private theorem signed?_of_digits {cs : List Char} (hne : cs ≠ [])
    (h : ∀ c ∈ cs, c.isDigit = true) :
    signed? cs = (natural? cs).map fun n => (n : Int) := by
  cases cs with
  | nil => exact absurd rfl hne
  | cons c cs =>
    have hc := h c (by simp)
    have hm : c ≠ '-' := by
      rintro rfl
      exact absurd hc (by decide)
    have hp : c ≠ '+' := by
      rintro rfl
      exact absurd hc (by decide)
    unfold signed?
    split
    · next he => exact absurd (List.cons.inj he).1 hm
    · next he => exact absurd (List.cons.inj he).1 hp
    · rfl

/-- A run of digits is read as its decimal value, unless it is too long. -/
theorem integer?_of_digits {cs : List Char} (hne : cs ≠ [])
    (h : ∀ c ∈ cs, c.isDigit = true) :
    integer? (String.ofList cs) =
      if cs.length ≤ maxDigits then some (decimal cs : Int) else none := by
  have hr : ∀ c ∈ cs.reverse, c.isDigit = true := fun c hc => h c (by simpa using hc)
  simp only [integer?, String.toList_ofList]
  rw [dropWhile_isNumberBlank h, dropWhile_isNumberBlank hr, List.reverse_reverse,
    signed?_of_digits hne h, natural?_of_digits hne h]
  split <;> rfl

theorem decimal_singleton (c : Char) : decimal [c] = c.toNat - 48 := by
  simp [decimal, Nat.ofDigitChars_cons]

/-- Writing a number and reading its digits gives the number. -/
theorem decimal_toDigits (n : Nat) : decimal (Nat.toDigits 10 n) = n :=
  Nat.ofDigitChars_ten_toDigits

end ScoreText.Text
