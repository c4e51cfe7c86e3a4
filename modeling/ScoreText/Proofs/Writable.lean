import ScoreText.Command.Run
import ScoreText.Proofs.Acceptance

/-!
The numbers of an accepted text can be written again. The numbers of a time signature have no more
digits than those that were read, an octave has one digit, and there are no more measures than
characters in the text, which in turn are no more than the bytes of its file.
-/

namespace ScoreText

/-! ## Numbers -/

namespace Text

theorem isWritable_iff {n : Int} :
    isWritable n = true ↔ (Nat.toDigits 10 n.natAbs).length ≤ maxDigits := by
  rw [isWritable, decide_eq_true_iff, Nat.toString_eq_ofList_toDigits, String.length_ofList]

/-- A number that is read digit by digit grows by one digit at a time. -/
private theorem length_toDigits_ofDigitChars {cs : List Char} (h : ∀ c ∈ cs, c.isDigit = true)
    (start : Nat) : (Nat.toDigits 10 (Nat.ofDigitChars 10 cs start)).length ≤
      (Nat.toDigits 10 start).length + cs.length := by
  induction cs generalizing start with
  | nil => simp
  | cons c cs ih =>
    obtain ⟨hc, hcs⟩ := List.forall_mem_cons.1 h
    have hdigit := (isDigit_iff_toNat c).1 hc
    have hzero : '0'.toNat = 48 := rfl
    have hone : (Nat.toDigits 10 (10 * start + (c.toNat - 48))).length ≤
        (Nat.toDigits 10 start).length + 1 := by
      rcases Nat.lt_or_ge (10 * start + (c.toNat - 48)) 10 with hsmall | hlarge
      · rw [Nat.toDigits_of_lt_base hsmall, List.length_singleton]
        omega
      · have hquotient : (10 * start + (c.toNat - 48)) / 10 = start := by omega
        refine Nat.le_of_eq ?_
        rw [Nat.toDigits_of_base_le (by decide) hlarge, hquotient, List.length_append,
          List.length_singleton]
    have hrest := ih hcs (10 * start + (c.toNat - 48))
    rw [Nat.ofDigitChars_cons, hzero, List.length_cons]
    omega

/-- The value of a run of digits that is short enough can be written. -/
theorem isWritable_decimal {cs : List Char} (h : ∀ c ∈ cs, c.isDigit = true)
    (hlength : cs.length ≤ maxDigits) : isWritable (decimal cs) = true := by
  cases cs with
  | nil => decide
  | cons c cs =>
    obtain ⟨hc, hcs⟩ := List.forall_mem_cons.1 h
    have hdigit := (isDigit_iff_toNat c).1 hc
    have hzero : '0'.toNat = 48 := rfl
    have hfirst : c.toNat - 48 < 10 := by omega
    have hdigits := length_toDigits_ofDigitChars hcs (c.toNat - 48)
    rw [Nat.toDigits_of_lt_base hfirst, List.length_singleton] at hdigits
    rw [List.length_cons] at hlength
    rw [isWritable_iff, Int.natAbs_natCast, decimal, Nat.ofDigitChars_cons, hzero, Nat.mul_zero,
      Nat.zero_add]
    omega

end Text

/-! ## Items -/

def Item.Writable : Item → Prop
  | .time t => Text.isWritable t.numerator = true ∧ Text.isWritable t.denominator = true
  | .element e => ∀ n ∈ e.octave?, Text.isWritable n = true
  | _ => True

theorem Token.isWritable_of_count? {t : Token} {n : Nat} (h : t.count? = some n) :
    Text.isWritable n = true := by
  obtain ⟨⟨-, hdigits, hlength, -⟩, rfl⟩ := Token.count?_eq_some_iff.1 h
  exact Text.isWritable_decimal hdigits hlength

theorem Token.isWritable_of_octave? {t : Token} {n : Nat} (h : t.octave? = some n) :
    Text.isWritable n = true := by
  obtain ⟨-, c, -, hdigit, rfl⟩ := Token.octave?_eq_some_iff.1 h
  exact Text.isWritable_decimal (by simpa using hdigit) (by simp [Text.maxDigits])

theorem Phrase.writable {run : List Token} {i : Item} (h : Phrase run i) : i.Writable := by
  cases h with
  | clef _ _ _ => trivial
  | time _ _ hn _ hd => exact ⟨Token.isWritable_of_count? hn, Token.isWritable_of_count? hd⟩
  | plainNote _ ho _ =>
    rintro _ ⟨⟩
    exact Token.isWritable_of_octave? ho
  | alteredNote _ _ ho _ =>
    rintro _ ⟨⟩
    exact Token.isWritable_of_octave? ho
  | rest _ _ =>
    rintro _ ⟨⟩
  | bar _ => trivial

theorem Sentence.writable {tokens : List Token} {items : List Item} (h : Sentence tokens items) :
    ∀ i ∈ items, i.Writable := by
  induction h with
  | nil => simp
  | cons hp _ ih => exact List.forall_mem_cons.2 ⟨hp.writable, ih⟩

/-- Every item takes a token. -/
theorem Sentence.length_le {tokens : List Token} {items : List Item} (h : Sentence tokens items) :
    items.length ≤ tokens.length := by
  induction h with
  | nil => simp
  | cons hp _ ih =>
    obtain ⟨t, ts, rfl, -⟩ := hp.eq_cons
    simp only [List.length_cons, List.length_append]
    omega

/-! ## Sizes -/

namespace Score

theorem writable_meter {items : List Item} (h : ∀ i ∈ items, i.Writable) :
    Text.isWritable (ofItems items).meter.1 = true ∧
      Text.isWritable (ofItems items).meter.2 = true := by
  cases htime : (ofItems items).time with
  | none =>
    have hfour : Text.isWritable 4 = true := by decide +kernel
    rw [meter, htime]
    exact ⟨hfour, hfour⟩
  | some t =>
    have hlast : (items.filterMap Item.time?).getLast? = some t := htime
    obtain ⟨i, hi, ht⟩ := List.mem_filterMap.1 (List.mem_of_getLast? hlast)
    cases i with
    | time t' =>
      cases ht
      rw [meter, htime]
      exact h _ hi
    | clef _ => cases ht
    | element _ => cases ht
    | bar => cases ht

theorem writable_octave {items : List Item} (h : ∀ i ∈ items, i.Writable) {e : Element}
    (he : e ∈ (ofItems items).elements) {n : Nat} (hn : n ∈ e.octave?) :
    Text.isWritable n = true := by
  rw [elements_ofItems] at he
  obtain ⟨i, hi, hie⟩ := List.mem_filterMap.1 he
  cases i with
  | element e' =>
    cases hie
    exact h _ hi n hn
  | clef _ => cases hie
  | time _ => cases hie
  | bar => cases hie

/-- The document of the score of some items can be made. -/
theorem writable_numerals {items : List Item} (h : ∀ i ∈ items, i.Writable) :
    ∀ n ∈ (ofItems items).numerals, Text.isWritable n = true := by
  obtain ⟨habove, hbelow⟩ := writable_meter h
  intro n hn
  rw [numerals] at hn
  rcases List.mem_cons.1 hn with rfl | hn
  · exact habove
  rcases List.mem_cons.1 hn with rfl | hn
  · exact hbelow
  obtain ⟨e, he, hoctave⟩ := List.mem_filterMap.1 hn
  obtain ⟨k, hk, rfl⟩ := Option.map_eq_some_iff.1 hoctave
  exact writable_octave h he hk

end Score

end ScoreText
