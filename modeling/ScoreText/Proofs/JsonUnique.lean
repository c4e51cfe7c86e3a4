import ScoreText.Proofs.Json

/-!
A JSON text denotes at most one value (`IsText.unique`), so all decoders that follow the grammar
agree on it. A value is read in one way wherever it stands, provided that what follows cannot go on
with a number (`Denotes.determines`).
-/

namespace ScoreText.Json

/-- Two runs of one sort of characters, with something else behind them, end at the same place. -/
theorem append_inj_of_stop {p : Char → Bool} {u v a b : List Char}
    (hu : ∀ c ∈ u, p c = true) (hv : ∀ c ∈ v, p c = true)
    (ha : ∀ c ∈ a.head?, p c = false) (hb : ∀ c ∈ b.head?, p c = false)
    (h : u ++ a = v ++ b) : u = v ∧ a = b := by
  induction u generalizing v with
  | nil =>
    cases v with
    | nil => exact ⟨rfl, h⟩
    | cons c v =>
      rw [List.nil_append] at h
      have hc := ha c (by simp [h])
      rw [hv c (by simp)] at hc
      cases hc
  | cons c u ih =>
    cases v with
    | nil =>
      rw [List.nil_append] at h
      have hc := hb c (by simp [← h])
      rw [hu c (by simp)] at hc
      cases hc
    | cons d v =>
      obtain ⟨hcd, hrest⟩ := List.cons.inj h
      obtain ⟨huv, hab⟩ := ih (fun e he => hu e (List.mem_cons_of_mem _ he))
        (fun e he => hv e (List.mem_cons_of_mem _ he)) hrest
      exact ⟨by rw [hcd, huv], hab⟩

def readUnit : List Char → Option (Nat × List Char)
  | 'u' :: w :: x :: y :: z :: rest => (unit? w x y z).map (·, rest)
  | _ => none

def readChar : List Char → Option (Char × List Char)
  | [] => none
  | c :: cs =>
    if c ≠ '\\' then some (c, cs)
    else
      match readUnit cs with
      | some (n, rest) =>
        if isHigh n then (readUnit (rest.drop 1)).map fun (low, rest) => (pairChar n low, rest)
        else some (Char.ofNat n, rest)
      | none => cs.head?.bind fun e => (escaped? e).map (·, cs.tail)

theorem readChar_of_spells {cs : List Char} {c : Char} (h : Spells cs c) (rest : List Char) :
    readChar (cs ++ rest) = some (c, rest) := by
  cases h with
  | plain _ hslash _ => simp [readChar, hslash]
  | @escape e _ he =>
    have hunit : readUnit (e :: rest) = none := by
      unfold readUnit
      split
      · next heq =>
        -- No character is escaped by the letter of a unit.
        rw [(List.cons.inj heq).1] at he
        cases he
      · rfl
    simp [readChar, hunit, he]
  | unit hn hhigh _ => simp [readChar, readUnit, hn, hhigh]
  | pair hn hn' hhigh _ => simp [readChar, readUnit, hn, hn', hhigh]

theorem Spells.ne_quote {cs : List Char} {c : Char} (h : Spells cs c) (rest rest' : List Char) :
    cs ++ rest ≠ '"' :: rest' := by
  intro heq
  cases h with
  | plain hquote _ _ => exact hquote (List.cons.inj heq).1
  | escape _ => exact absurd (List.cons.inj heq).1 (by decide)
  | unit _ _ _ => exact absurd (List.cons.inj heq).1 (by decide)
  | pair _ _ _ _ => exact absurd (List.cons.inj heq).1 (by decide)

/-- A string ends at its first quote that is not written as a character of it. -/
theorem Body.unique {cs s : List Char} (h : Body cs s) {cs' s' r r' : List Char}
    (h' : Body cs' s') (heq : cs ++ '"' :: r = cs' ++ '"' :: r') : s = s' ∧ r = r' := by
  induction h generalizing cs' s' with
  | nil =>
    cases h' with
    | nil => exact ⟨rfl, (List.cons.inj heq).2⟩
    | cons hc' _ =>
      rw [List.append_assoc] at heq
      exact absurd heq.symm (hc'.ne_quote _ _)
  | cons hc _ ih =>
    rw [List.append_assoc] at heq
    cases h' with
    | nil => exact absurd heq (hc.ne_quote _ _)
    | cons hc' hrest' =>
      rw [List.append_assoc] at heq
      have hread := (readChar_of_spells hc _).symm.trans
        ((congrArg readChar heq).trans (readChar_of_spells hc' _))
      obtain ⟨hchar, hmore⟩ := Prod.mk.inj (Option.some.inj hread)
      obtain ⟨rfl, rfl⟩ := ih hrest' hmore
      exact ⟨congrArg (· :: _) hchar, rfl⟩

/-! ### Numbers -/

def isNumeralChar (c : Char) : Bool :=
  c.isDigit || c = '-' || c = '+' || c = '.' || c = 'e' || c = 'E'

theorem isNumeralChar_of_isDigit {c : Char} (h : c.isDigit = true) : isNumeralChar c = true := by
  simp [isNumeralChar, h]

private theorem not_isDigit_of_mem_head? {cs : List Char}
    (h : ∀ c ∈ cs.head?, c = '.' ∨ c = 'e' ∨ c = 'E') : ∀ c ∈ cs.head?, c.isDigit = false := by
  intro c hc
  rcases h c hc with rfl | rfl | rfl <;> rfl

namespace Exponent

theorem text_inj {e e' : Exponent} (h : e.WellFormed) (h' : e'.WellFormed)
    (heq : e.text = e'.text) : e = e' := by
  obtain ⟨letter, sign, digits⟩ := e
  obtain ⟨letter', sign', digits'⟩ := e'
  obtain ⟨hletter, hrest⟩ := List.cons.inj heq
  have hsign {s : List Char} (hs : s = [] ∨ s = ['+'] ∨ s = ['-']) :
      ∀ c ∈ s, (c == '+' || c == '-') = true := by
    rcases hs with rfl | rfl | rfl <;> simp
  have hdigits {ds : List Char} (hds : ∀ c ∈ ds, c.isDigit = true) :
      ∀ c ∈ ds.head?, (c == '+' || c == '-') = false := by
    intro c hc
    have hdigit := hds c (List.mem_of_mem_head? hc)
    rw [Bool.eq_false_iff]
    intro hc'
    rcases (by simpa using hc' : c = '+' ∨ c = '-') with rfl | rfl <;> cases hdigit
  obtain ⟨rfl, rfl⟩ := append_inj_of_stop (hsign h.sign) (hsign h'.sign) (hdigits h.digits)
    (hdigits h'.digits) hrest
  cases hletter
  rfl

theorem isNumeralChar_of_mem_text {e : Exponent} (h : e.WellFormed) :
    ∀ c ∈ e.text, isNumeralChar c = true := by
  intro c hc
  rcases List.mem_cons.1 hc with rfl | hc
  · rcases h.letter with hletter | hletter <;> rw [hletter] <;> rfl
  · rcases List.mem_append.1 hc with hc | hc
    · rcases h.sign with hs | hs | hs <;> rw [hs] at hc <;> simp at hc <;> rw [hc] <;> rfl
    · exact isNumeralChar_of_isDigit (h.digits c hc)

end Exponent

namespace Numeral

variable {n m : Numeral}

private theorem head?_exponentText (h : n.WellFormed) :
    ∀ c ∈ n.exponentText.head?, c = '.' ∨ c = 'e' ∨ c = 'E' := by
  intro c hc
  unfold exponentText at hc
  cases he : n.exponent with
  | none => simp [he] at hc
  | some e =>
    obtain rfl : e.letter = c := by simpa [he, Exponent.text] using hc
    exact .inr (h.exponent e he).letter

private theorem head?_tail (h : n.WellFormed) :
    ∀ c ∈ (n.fractionText ++ n.exponentText).head?, c = '.' ∨ c = 'e' ∨ c = 'E' := by
  intro c hc
  unfold fractionText at hc
  split at hc
  · exact head?_exponentText h c hc
  · left
    simpa using hc.symm

/-- The first character behind the sign is a digit. -/
theorem head?_whole (h : n.WellFormed) (rest : List Char) :
    ∃ c more, n.whole ++ rest = c :: more ∧ c.isDigit = true := by
  cases hw : n.whole with
  | nil => exact absurd hw h.nonempty
  | cons c whole => exact ⟨c, whole ++ rest, rfl, h.whole c (by simp [hw])⟩

private theorem exponentText_inj (hn : n.WellFormed) (hm : m.WellFormed)
    (heq : n.exponentText = m.exponentText) : n.exponent = m.exponent := by
  unfold exponentText at heq
  cases he : n.exponent with
  | none =>
    cases he' : m.exponent with
    | none => rfl
    | some e' => simp [he, he', Exponent.text] at heq
  | some e =>
    cases he' : m.exponent with
    | none => simp [he, he', Exponent.text] at heq
    | some e' =>
      rw [he, he'] at heq
      rw [Exponent.text_inj (hn.exponent e he) (hm.exponent e' he') heq]

private theorem fractionText_inj (hn : n.WellFormed) (hm : m.WellFormed)
    (heq : n.fractionText ++ n.exponentText = m.fractionText ++ m.exponentText) :
    n.fraction = m.fraction ∧ n.exponentText = m.exponentText := by
  have hpoint {k : Numeral} (hk : k.WellFormed) (ds : List Char) :
      k.exponentText ≠ '.' :: ds := by
    intro hdot
    unfold exponentText at hdot
    cases he : k.exponent with
    | none => simp [he] at hdot
    | some e =>
      obtain ⟨hletter, -⟩ : e.letter = '.' ∧ _ := by simpa [he, Exponent.text] using hdot
      rcases (hk.exponent e he).letter with hl | hl <;> rw [hl] at hletter <;> cases hletter
  unfold fractionText at heq
  split at heq
  · next hnone =>
    split at heq
    · next hnone' => exact ⟨hnone.trans hnone'.symm, heq⟩
    · exact absurd heq (hpoint hn _)
  · split at heq
    · exact absurd heq.symm (hpoint hm _)
    · exact append_inj_of_stop hn.fraction hm.fraction
        (not_isDigit_of_mem_head? (head?_exponentText hn))
        (not_isDigit_of_mem_head? (head?_exponentText hm)) (List.cons.inj heq).2

theorem text_inj (hn : n.WellFormed) (hm : m.WellFormed) (heq : n.text = m.text) : n = m := by
  have hminus {k l : Numeral} (hl : l.WellFormed) (rest rest' : List Char) :
      '-' :: (k.whole ++ rest) ≠ l.whole ++ rest' := by
    obtain ⟨c, more, hcons, hdigit⟩ := head?_whole hl rest'
    rw [hcons]
    intro h
    rw [← (List.cons.inj h).1] at hdigit
    cases hdigit
  have hsign : n.negative = m.negative ∧
      n.whole ++ (n.fractionText ++ n.exponentText) =
        m.whole ++ (m.fractionText ++ m.exponentText) := by
    unfold text at heq
    cases hneg : n.negative with
    | true =>
      cases hneg' : m.negative with
      | true => exact ⟨rfl, by simpa [hneg, hneg'] using heq⟩
      | false => exact absurd (by simpa [hneg, hneg'] using heq) (hminus (k := n) hm _ _)
    | false =>
      cases hneg' : m.negative with
      | true => exact absurd (by simpa [hneg, hneg'] using heq.symm) (hminus (k := m) hn _ _)
      | false => exact ⟨rfl, by simpa [hneg, hneg'] using heq⟩
  obtain ⟨hwhole, htail⟩ := append_inj_of_stop hn.whole hm.whole
    (not_isDigit_of_mem_head? (head?_tail hn)) (not_isDigit_of_mem_head? (head?_tail hm)) hsign.2
  obtain ⟨hfraction, hexponent⟩ := fractionText_inj hn hm htail
  have hexp := exponentText_inj hn hm hexponent
  cases n
  cases m
  cases hsign.1
  cases hwhole
  cases hfraction
  cases hexp
  rfl

theorem isNumeralChar_of_mem_text (h : n.WellFormed) : ∀ c ∈ n.text, isNumeralChar c = true := by
  intro c hc
  rcases List.mem_append.1 hc with hc | hc
  · obtain ⟨-, rfl⟩ : n.negative = true ∧ c = '-' := by simpa using hc
    rfl
  rcases List.mem_append.1 hc with hc | hc
  · exact isNumeralChar_of_isDigit (h.whole c hc)
  rcases List.mem_append.1 hc with hc | hc
  · unfold fractionText at hc
    split at hc
    · cases hc
    · rcases List.mem_cons.1 hc with rfl | hc
      · rfl
      · exact isNumeralChar_of_isDigit (h.fraction c hc)
  · unfold exponentText at hc
    cases he : n.exponent with
    | none => simp [he] at hc
    | some e =>
      exact Exponent.isNumeralChar_of_mem_text (h.exponent e he) c (by simpa [he] using hc)

end Numeral

/-- What may stand behind a number: anything that cannot go on with it. -/
def Stops (rest : List Char) : Prop := ∀ c ∈ rest.head?, isNumeralChar c = false

theorem Numeral.unique {n m : Numeral} (hn : n.WellFormed) (hm : m.WellFormed) {r r' : List Char}
    (hr : Stops r) (hr' : Stops r') (heq : n.text ++ r = m.text ++ r') : n = m ∧ r = r' := by
  obtain ⟨htext, hrest⟩ := append_inj_of_stop (isNumeralChar_of_mem_text hn)
    (isNumeralChar_of_mem_text hm) hr hr' heq
  exact ⟨text_inj hn hm htext, hrest⟩

/-! ### Values -/

inductive ValueSort
  | null
  | yes
  | no
  | number
  | string
  | array
  | object

def sortOf : JsonValue → ValueSort
  | .null => .null
  | .bool b => if b then .yes else .no
  | .number _ => .number
  | .string _ => .string
  | .array _ => .array
  | .object _ => .object

def sortAt : Char → ValueSort
  | 'n' => .null
  | 't' => .yes
  | 'f' => .no
  | '"' => .string
  | '[' => .array
  | '{' => .object
  | _ => .number

private theorem sortAt_of_isNumeralChar {c : Char} (h : c = '-' ∨ c.isDigit = true) :
    sortAt c = .number := by
  unfold sortAt
  split
  all_goals first | rfl | exact absurd h (by decide)

def isCloser (c : Char) : Bool := c = ',' || c = ']' || c = '}'

/-- The first character of a value announces its sort; it is no white space and closes nothing. -/
theorem Denotes.head {cs : List Char} {v : JsonValue} (h : Denotes cs v) :
    ∃ c rest, cs = c :: rest ∧ sortAt c = sortOf v ∧ isSpace c = false ∧ isCloser c = false := by
  cases h with
  | nullName => exact ⟨_, _, rfl, rfl, rfl, rfl⟩
  | trueName => exact ⟨_, _, rfl, rfl, rfl, rfl⟩
  | falseName => exact ⟨_, _, rfl, rfl, rfl, rfl⟩
  | @number n hn =>
    obtain ⟨c, rest, hcons, hdigit⟩ :=
      Numeral.head?_whole hn (n.fractionText ++ n.exponentText)
    have htext : n.text = (if n.negative then ['-'] else []) ++ c :: rest := by
      rw [Numeral.text, hcons]
    rw [htext]
    split
    · exact ⟨_, _, rfl, rfl, rfl, rfl⟩
    · refine ⟨_, _, rfl, sortAt_of_isNumeralChar (.inr hdigit), ?_, ?_⟩
      · have hrange := (Text.isDigit_iff_toNat c).1 hdigit
        rw [Bool.eq_false_iff]
        intro hspace
        rcases (by simpa [isSpace] using hspace : ((c = ' ' ∨ c = '\t') ∨ c = '\n') ∨ c = '\r')
          with ((rfl | rfl) | rfl) | rfl <;> cases hdigit
      · rw [Bool.eq_false_iff]
        intro hclose
        rcases (by simpa [isCloser] using hclose : (c = ',' ∨ c = ']') ∨ c = '}')
          with (rfl | rfl) | rfl <;> cases hdigit
  | string _ => exact ⟨_, _, rfl, rfl, rfl, rfl⟩
  | emptyArray _ => exact ⟨_, _, rfl, rfl, rfl, rfl⟩
  | array _ _ _ => exact ⟨_, _, rfl, rfl, rfl, rfl⟩
  | emptyObject _ => exact ⟨_, _, rfl, rfl, rfl, rfl⟩
  | object _ _ _ => exact ⟨_, _, rfl, rfl, rfl, rfl⟩

/-- Two values that are read at the same place are of one sort. -/
theorem sortOf_eq {cs cs' : List Char} {v v' : JsonValue} (h : Denotes cs v) (h' : Denotes cs' v')
    {r r' : List Char} (heq : cs ++ r = cs' ++ r') : sortOf v = sortOf v' := by
  obtain ⟨c, rest, rfl, hsort, -⟩ := h.head
  obtain ⟨c', rest', rfl, hsort', -⟩ := h'.head
  rw [← hsort, ← hsort', (List.cons.inj heq).1]

/-- What may stand behind a value and the white space after it: a closer, or nothing. -/
def Ends (rest : List Char) : Prop := ∀ c ∈ rest.head?, isCloser c = true

private theorem not_isSpace_of_isCloser {c : Char} (h : isCloser c = true) :
    isSpace c = false ∧ isNumeralChar c = false := by
  rcases (by simpa [isCloser] using h : (c = ',' ∨ c = ']') ∨ c = '}')
    with (rfl | rfl) | rfl <;> exact ⟨rfl, rfl⟩

private theorem not_isNumeralChar_of_isSpace {c : Char} (h : isSpace c = true) :
    isNumeralChar c = false := by
  rcases (by simpa [isSpace] using h : ((c = ' ' ∨ c = '\t') ∨ c = '\n') ∨ c = '\r')
    with ((rfl | rfl) | rfl) | rfl <;> rfl

theorem Ends.stops {w r : List Char} (hw : ∀ c ∈ w, isSpace c = true) (hr : Ends r) :
    Stops (w ++ r) := by
  intro c hc
  cases w with
  | nil => exact (not_isSpace_of_isCloser (hr c hc)).2
  | cons d w =>
    obtain rfl : d = c := by simpa using hc
    exact not_isNumeralChar_of_isSpace (hw d (by simp))

/-- `Determines cs v`: no other value than `v` can be read where `cs` stands. -/
def Determines (cs : List Char) (v : JsonValue) : Prop :=
  ∀ {cs' : List Char} {v' : JsonValue} {r r' : List Char}, Denotes cs' v' → Stops r → Stops r' →
    cs ++ r = cs' ++ r' → v = v' ∧ r = r'

private theorem not_isSpace_head {cs : List Char} {v : JsonValue} (h : Denotes cs v)
    (rest : List Char) : ∀ c ∈ (cs ++ rest).head?, isSpace c = false := by
  obtain ⟨d, more, rfl, -, hspace, -⟩ := h.head
  intro c hc
  obtain rfl : d = c := by simpa using hc
  exact hspace

/-- A value with white space around it is read in one way. -/
theorem Slot.unique {x y : Slot} (hx : x.Spaced) (hy : y.Spaced) (hxv : Denotes x.text x.value)
    (hyv : Denotes y.text y.value) (hdet : Determines x.text x.value) {r r' : List Char}
    (hr : Ends r) (hr' : Ends r') (heq : x.padded ++ r = y.padded ++ r') :
    x.value = y.value ∧ r = r' := by
  simp only [Slot.padded, List.append_assoc] at heq
  obtain ⟨-, htext⟩ := append_inj_of_stop hx.1 hy.1 (not_isSpace_head hxv _)
    (not_isSpace_head hyv _) heq
  obtain ⟨hvalue, hafter⟩ := hdet hyv (hr.stops hx.2) (hr'.stops hy.2) htext
  obtain ⟨-, hrest⟩ := append_inj_of_stop hx.2 hy.2
    (fun c hc => (not_isSpace_of_isCloser (hr c hc)).1)
    (fun c hc => (not_isSpace_of_isCloser (hr' c hc)).1) hafter
  exact ⟨hvalue, hrest⟩

/-- A member of an object is read in one way. -/
theorem Member.unique {m k : Member} (hm : m.Named) (hk : k.Named)
    (hmv : Denotes m.slot.text m.slot.value) (hkv : Denotes k.slot.text k.slot.value)
    (hdet : Determines m.slot.text m.slot.value) {r r' : List Char} (hr : Ends r) (hr' : Ends r')
    (heq : m.padded ++ r = k.padded ++ r') : m.value = k.value ∧ r = r' := by
  simp only [Member.padded, List.append_assoc, List.cons_append] at heq
  obtain ⟨-, hname⟩ := append_inj_of_stop hm.before hk.before (by simp [isSpace])
    (by simp [isSpace]) heq
  obtain ⟨hchars, hafter⟩ := hm.name.unique hk.name (List.cons.inj hname).2
  obtain ⟨-, hcolon⟩ := append_inj_of_stop hm.after hk.after (by simp [isSpace])
    (by simp [isSpace]) hafter
  obtain ⟨hvalue, hrest⟩ := Slot.unique hm.slot hk.slot hmv hkv hdet hr hr' (List.cons.inj hcolon).2
  exact ⟨by rw [Member.value, Member.value, hchars, hvalue], hrest⟩

/-- Things with commas in front of them are read in one way, if each of them is. -/
theorem items_unique {α β : Type} {text : α → List Char} {value : α → β} {close : Char}
    (hclose : isCloser close = true) (hcomma : close ≠ ',') {xs ys : List α}
    (hone : ∀ x ∈ xs, ∀ y ∈ ys, ∀ r r', Ends r → Ends r' → text x ++ r = text y ++ r' →
      value x = value y ∧ r = r') {r r' : List Char}
    (heq : (xs.map text).flatMap (',' :: ·) ++ close :: r =
      (ys.map text).flatMap (',' :: ·) ++ close :: r') :
    xs.map value = ys.map value ∧ r = r' := by
  have hends (zs : List α) (r : List Char) :
      Ends ((zs.map text).flatMap (',' :: ·) ++ close :: r) := by
    cases zs with
    | nil => simpa [Ends] using hclose
    | cons z zs => simp [Ends, isCloser]
  induction xs generalizing ys with
  | nil =>
    cases ys with
    | nil => exact ⟨rfl, (List.cons.inj heq).2⟩
    | cons y ys => exact absurd (List.cons.inj heq).1 hcomma
  | cons x xs ih =>
    cases ys with
    | nil => exact absurd (List.cons.inj heq).1.symm hcomma
    | cons y ys =>
      simp only [List.map_cons, List.flatMap_cons, List.cons_append, List.append_assoc,
        List.cons.injEq, true_and] at heq
      obtain ⟨hvalue, hmore⟩ :=
        hone x (by simp) y (by simp) _ _ (hends xs r) (hends ys r') heq
      obtain ⟨hvalues, hrest⟩ := ih
        (fun x hx y hy => hone x (List.mem_cons_of_mem _ hx) y (List.mem_cons_of_mem _ hy)) hmore
      exact ⟨by rw [List.map_cons, List.map_cons, hvalue, hvalues], hrest⟩

/-- White space in front of a closer is read in one way. -/
theorem empty_unique (close : Char) (hclose : isCloser close = true) {w w' r r' : List Char}
    (hw : ∀ c ∈ w, isSpace c = true) (hw' : ∀ c ∈ w', isSpace c = true)
    (heq : w ++ close :: r = w' ++ close :: r') : r = r' := by
  have hspace := (not_isSpace_of_isCloser hclose).1
  obtain ⟨-, hrest⟩ := append_inj_of_stop hw hw' (by simp [hspace]) (by simp [hspace]) heq
  exact (List.cons.inj hrest).2

/-- `Begins cs`: behind white space, `cs` has a character that closes nothing. -/
def Begins (cs : List Char) : Prop :=
  ∃ before c rest, cs = before ++ c :: rest ∧ (∀ d ∈ before, isSpace d = true) ∧
    isSpace c = false ∧ isCloser c = false

theorem Slot.begins {x : Slot} (hx : x.Spaced) (hv : Denotes x.text x.value) :
    Begins x.padded := by
  obtain ⟨c, rest, htext, -, hspace, hcloser⟩ := hv.head
  refine ⟨x.before, c, rest ++ x.after, ?_, hx.1, hspace, hcloser⟩
  rw [Slot.padded, htext, List.cons_append]

theorem Member.begins {m : Member} (hm : m.Named) : Begins m.padded :=
  ⟨m.before, '"', _, rfl, hm.before, rfl, rfl⟩

/-- Where something begins there is not just white space in front of a closer. -/
theorem not_empty_of_items {α : Type} {text : α → List Char} {xs : List α} (hne : xs ≠ [])
    (hxs : ∀ x ∈ xs, Begins (text x)) {w : List Char} (hw : ∀ c ∈ w, isSpace c = true)
    {close : Char} (hclose : isCloser close = true) (r r' : List Char) :
    w ++ close :: r ≠ [','].intercalate (xs.map text) ++ r' := by
  intro heq
  cases xs with
  | nil => exact hne rfl
  | cons x xs =>
    obtain ⟨before, c, rest, htext, hbefore, hspace, hnot⟩ := hxs x (by simp)
    rw [List.map_cons, intercalate_cons, htext, List.append_assoc, List.append_assoc,
      List.cons_append] at heq
    obtain ⟨-, hrest⟩ := append_inj_of_stop hw hbefore
      (by simp [(not_isSpace_of_isCloser hclose).1]) (by simp [hspace]) heq
    rw [(List.cons.inj hrest).1, hnot] at hclose
    cases hclose

/-- The contents of two lists or of two objects at the same place are read in one way. -/
theorem contents_unique {α β : Type} {text : α → List Char} (value : α → β) (close : Char)
    (hclose : isCloser close = true) (hcomma : close ≠ ',') {xs ys : List α} (hxs : xs ≠ [])
    (hys : ys ≠ [])
    (hone : ∀ x ∈ xs, ∀ y ∈ ys, ∀ r r', Ends r → Ends r' → text x ++ r = text y ++ r' →
      value x = value y ∧ r = r') {r r' : List Char}
    (heq : [','].intercalate (xs.map text) ++ close :: r =
      [','].intercalate (ys.map text) ++ close :: r') :
    xs.map value = ys.map value ∧ r = r' := by
  cases xs with
  | nil => exact absurd rfl hxs
  | cons x xs =>
    cases ys with
    | nil => exact absurd rfl hys
    | cons y ys =>
      rw [List.map_cons, List.map_cons, intercalate_cons, intercalate_cons] at heq
      refine items_unique hclose hcomma hone ?_
      simpa using congrArg (',' :: ·) heq

/-- **A value is read in one way.** Where a text denotes a value, and what follows cannot go on with
a number, no other value is denoted, and it ends at the same place. -/
theorem Denotes.determines {cs : List Char} {v : JsonValue} (h : Denotes cs v) :
    Determines cs v := by
  induction h with
  | nullName =>
    intro cs' v' r r' h' hr hr' heq
    have hsort := sortOf_eq .nullName h' heq
    cases h' with
    | nullName => exact ⟨rfl, by simpa using heq⟩
    | _ => cases hsort
  | trueName =>
    intro cs' v' r r' h' hr hr' heq
    have hsort := sortOf_eq .trueName h' heq
    cases h' with
    | trueName => exact ⟨rfl, by simpa using heq⟩
    | _ => cases hsort
  | falseName =>
    intro cs' v' r r' h' hr hr' heq
    have hsort := sortOf_eq .falseName h' heq
    cases h' with
    | falseName => exact ⟨rfl, by simpa using heq⟩
    | _ => cases hsort
  | number hn =>
    intro cs' v' r r' h' hr hr' heq
    have hsort := sortOf_eq (.number hn) h' heq
    cases h' with
    | number hm =>
      obtain ⟨rfl, hrest⟩ := Numeral.unique hn hm hr hr' heq
      exact ⟨rfl, hrest⟩
    | _ => cases hsort
  | string hbody =>
    intro cs' v' r r' h' hr hr' heq
    have hsort := sortOf_eq (.string hbody) h' heq
    cases h' with
    | string hbody' =>
      obtain ⟨rfl, hrest⟩ := hbody.unique hbody' (by simpa using heq)
      exact ⟨rfl, hrest⟩
    | _ => cases hsort
  | emptyArray hw =>
    intro cs' v' r r' h' hr hr' heq
    have hsort := sortOf_eq (.emptyArray hw) h' heq
    cases h' with
    | emptyArray hw' =>
      exact ⟨rfl, empty_unique ']' rfl hw hw' (by simpa using heq)⟩
    | array hne' hspaced' hitems' =>
      have hfirst := fun x hx => Slot.begins (hspaced' x hx) (hitems' x hx)
      exact absurd (by simpa using heq) (not_empty_of_items hne' hfirst hw rfl r (']' :: r'))
    | _ => cases hsort
  | array hne hspaced hitems ih =>
    intro cs' v' r r' h' hr hr' heq
    have hsort := sortOf_eq (.array hne hspaced hitems) h' heq
    cases h' with
    | emptyArray hw' =>
      have hfirst := fun x hx => Slot.begins (hspaced x hx) (hitems x hx)
      exact absurd (by simpa using heq.symm) (not_empty_of_items hne hfirst hw' rfl r' (']' :: r))
    | array hne' hspaced' hitems' =>
      obtain ⟨hvalues, hrest⟩ := contents_unique Slot.value ']' rfl (by decide) hne hne'
        (fun x hx y hy r r' hr hr' =>
          Slot.unique (hspaced x hx) (hspaced' y hy) (hitems x hx) (hitems' y hy) (ih x hx) hr hr')
        (by simpa using heq)
      exact ⟨congrArg JsonValue.array hvalues, hrest⟩
    | _ => cases hsort
  | emptyObject hw =>
    intro cs' v' r r' h' hr hr' heq
    have hsort := sortOf_eq (.emptyObject hw) h' heq
    cases h' with
    | emptyObject hw' =>
      exact ⟨rfl, empty_unique '}' rfl hw hw' (by simpa using heq)⟩
    | object hne' hnamed' hmembers' =>
      have hfirst := fun m hm => Member.begins (hnamed' m hm)
      exact absurd (by simpa using heq) (not_empty_of_items hne' hfirst hw rfl r ('}' :: r'))
    | _ => cases hsort
  | object hne hnamed hmembers ih =>
    intro cs' v' r r' h' hr hr' heq
    have hsort := sortOf_eq (.object hne hnamed hmembers) h' heq
    cases h' with
    | emptyObject hw' =>
      have hfirst := fun m hm => Member.begins (hnamed m hm)
      exact absurd (by simpa using heq.symm)
        (not_empty_of_items hne hfirst hw' rfl r' ('}' :: r))
    | object hne' hnamed' hmembers' =>
      obtain ⟨hvalues, hrest⟩ := contents_unique Member.value '}' rfl (by decide) hne hne'
        (fun m hm k hk r r' hr hr' =>
          Member.unique (hnamed m hm) (hnamed' k hk) (hmembers m hm) (hmembers' k hk) (ih m hm)
            hr hr')
        (by simpa using heq)
      exact ⟨congrArg JsonValue.object hvalues, hrest⟩
    | _ => cases hsort

/-- A text denotes at most one value. -/
theorem IsText.unique {cs : List Char} {v v' : JsonValue} (h : IsText cs v) (h' : IsText cs v') :
    v = v' := by
  obtain ⟨x, hx, hxv, rfl, rfl⟩ := h
  obtain ⟨y, hy, hyv, heq, rfl⟩ := h'
  have hends : Ends [] := by
    intro c hc
    cases hc
  exact (Slot.unique hx hy hxv hyv hxv.determines hends hends (by rw [heq])).1

end ScoreText.Json
