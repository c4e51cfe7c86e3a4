import Mathlib.Data.List.TakeWhile
import ScoreText.Detection
import ScoreText.Proofs.MeasureLanguage

/-!
Detection puts a text in lower case and trims it before it looks for notation, and need not do so
but for the keywords (`normalization_unobservable`). The patterns it looks for are made of marks and
gaps. A mark is in both cases or in neither and is never blank, so no pattern can tell whether a
text was put in lower case (`keepsMarks_toLower`) or whether blanks stand behind it
(`keepsMarks_blanks`).
-/

namespace ScoreText

open Text Text.Recognizer

/-! ## Characters in lower case -/

/-- What does not tell capitals from small letters does not tell whether a character was put in
lower case. -/
private theorem apply_toLower {α : Type} {f : Char → α}
    (h : ∀ n < 26, f (Char.ofNat (65 + n)).toLower = f (Char.ofNat (65 + n))) (c : Char) :
    f c.toLower = f c := by
  by_cases hupper : 65 ≤ c.toNat ∧ c.toNat ≤ 90
  · have hletter := h (c.toNat - 65) (by omega)
    rwa [Nat.add_sub_cancel' hupper.1, Char.ofNat_toNat] at hletter
  · rw [toLower_of_not_isUpper hupper]

theorem isBlank_toLower (c : Char) : isBlank c.toLower = isBlank c :=
  apply_toLower (by decide +kernel) c

theorem isDecimal_toLower (c : Char) : isDecimal c.toLower = isDecimal c :=
  apply_toLower (by decide +kernel) c

theorem isWordChar_toLower (c : Char) : isWordChar c.toLower = isWordChar c :=
  apply_toLower (by decide +kernel) c

theorem foldCase_toLower (c : Char) : foldCase c.toLower = foldCase c :=
  apply_toLower (by decide +kernel) c

private theorem isAscii_toLower (c : Char) : c.toLower.toNat < 128 ↔ c.toNat < 128 := by
  have hsame := apply_toLower (f := fun c => decide (c.toNat < 128)) (by decide +kernel) c
  simpa using hsame

/-- Where folding the case of a character may lead. -/
private theorem apply_foldCase {p : Char → Bool} (hlower : ∀ c : Char, p c.toLower = p c)
    (hothers : ∀ n ∈ [0x17F, 0x130, 0x131], p (Char.ofNat n) = false) {c : Char}
    (h : p c = true) : p (foldCase c) = true := by
  have hne : ∀ n ∈ [0x17F, 0x130, 0x131], c.toNat ≠ n := by
    rintro n hn rfl
    have hfalse := hothers _ hn
    rw [Char.ofNat_toNat, h] at hfalse
    cases hfalse
  rw [foldCase, if_neg (hne _ (by simp)), if_neg (by simp [hne]), hlower, h]

theorem isBlank_foldCase {c : Char} (h : isBlank c = true) : isBlank (foldCase c) = true :=
  apply_foldCase isBlank_toLower (by decide) h

theorem isDecimal_foldCase {c : Char} (h : isDecimal c = true) : isDecimal (foldCase c) = true :=
  apply_foldCase isDecimal_toLower (by decide) h

private theorem beq_eq_false_of_isBlank {d : Char} (hd : isBlank d = false) (c : Char)
    (hc : isBlank c = true) : (c == d) = false := by
  refine beq_eq_false_iff_ne.2 ?_
  rintro rfl
  rw [hc] at hd
  cases hd

theorem not_isWordChar_of_isBlank {c : Char} (h : isBlank c = true) : isWordChar c = false := by
  obtain ⟨blank, hblank, hin⟩ := exists_span_of_isBlank h
  have hunderscore := beq_eq_false_of_isBlank (d := '_') (by decide) c h
  have hapart : ∀ b ∈ blankSpans, ∀ a ∈ alphanumericSpans, a.2 < b.1 ∨ b.2 < a.1 := by
    decide +kernel
  rw [isWordChar, hunderscore, Bool.false_or, covers, List.any_eq_false]
  intro span hspan
  have := hapart blank hblank span hspan
  simp only [Bool.and_eq_true, decide_eq_true_eq]
  omega

private theorem toUpper_of_isBlank {c : Char} (h : isBlank c = true) : c.toUpper = c := by
  obtain ⟨blank, hblank, hin⟩ := exists_span_of_isBlank h
  have hapart : ∀ b ∈ blankSpans, b.2 < 97 ∨ 122 < b.1 := by decide
  have := hapart blank hblank
  exact Char.toNat_inj.1 (by rw [toNat_toUpper, if_neg (by omega)])

def IsSolid (w : List Char) : Prop := w ≠ [] ∧ ¬ w.any isBlank = true

instance (w : List Char) : Decidable (IsSolid w) := inferInstanceAs (Decidable (_ ∧ _))

theorem IsSolid.not_isBlank {w : List Char} (h : IsSolid w) {d : Char} (hd : d ∈ w) :
    isBlank d = false := by
  rw [← Bool.not_eq_true]
  intro hblank
  exact h.2 (List.any_eq_true.2 ⟨d, hd, hblank⟩)

/-! ## Patterns and changes of a text -/

namespace Text.Recognizer

/-- `Respects f r`: the pattern matches a changed text just if it matches the text, and what it
leaves of it is what it leaves of the text, changed. -/
def Respects (f : List Char → List Char) (r : Recognizer) : Prop := ∀ cs, r (f cs) = (r cs).map f

/-- `FailsAtBlank r`: no match is empty or starts with a blank. -/
def FailsAtBlank (r : Recognizer) : Prop :=
  ∀ cs : List Char, (∀ c ∈ cs.head?, isBlank c = true) → r cs = none

namespace Respects

variable {f : List Char → List Char} {r s : Recognizer} {p : Char → Bool}

protected theorem andThen (hr : Respects f r) (hs : Respects f s) : Respects f (r.andThen s) := by
  intro cs
  rw [andThen, andThen, hr cs]
  cases r cs with
  | none => rfl
  | some rest => exact hs rest

protected theorem firstOf {rs : List Recognizer} (h : ∀ r ∈ rs, Respects f r) :
    Respects f (firstOf rs) := by
  intro cs
  induction rs with
  | nil => rfl
  | cons r rs ih =>
    obtain ⟨hr, hrs⟩ := List.forall_mem_cons.1 h
    have hrest : rs.findSome? (· (f cs)) = (rs.findSome? (· cs)).map f := ih hrs
    rw [firstOf, firstOf, List.findSome?_cons, List.findSome?_cons, hr cs, hrest]
    cases r cs <;> rfl

protected theorem optional (h : Respects f (one p)) : Respects f (Recognizer.optional p) := by
  intro cs
  rw [Recognizer.optional, Recognizer.optional, h cs]
  cases one p cs <;> rfl

protected theorem many1 (hone : Respects f (one p)) (hmany : Respects f (many p)) :
    Respects f (many1 p) :=
  hone.andThen hmany

protected theorem word {fold : Char → Char} {w : List Char}
    (h : ∀ d ∈ w, Respects f (one (fold · == d))) : Respects f (word fold w) := by
  induction w with
  | nil => exact fun _ => rfl
  | cons d w ih =>
    obtain ⟨hd, hw⟩ := List.forall_mem_cons.1 h
    exact hd.andThen (ih hw)

end Respects

namespace FailsAtBlank

variable {r s : Recognizer} {p : Char → Bool}

protected theorem one (h : ∀ c, isBlank c = true → p c = false) : FailsAtBlank (one p) := by
  intro cs hcs
  cases cs with
  | nil => rfl
  | cons c cs => exact if_neg (by simp [h c (hcs c rfl)])

protected theorem andThen (hr : FailsAtBlank r) : FailsAtBlank (r.andThen s) := by
  intro cs hcs
  rw [andThen, hr cs hcs, Option.bind_none]

protected theorem firstOf {rs : List Recognizer} (h : ∀ r ∈ rs, FailsAtBlank r) :
    FailsAtBlank (firstOf rs) :=
  fun cs hcs => List.findSome?_eq_none_iff.2 fun r hr => h r hr cs hcs

protected theorem word {fold : Char → Char}
    (hfold : ∀ c, isBlank c = true → isBlank (fold c) = true) {w : List Char} (hw : IsSolid w) :
    FailsAtBlank (word fold w) := by
  obtain ⟨d, w, rfl⟩ := List.exists_cons_of_ne_nil hw.1
  have hfirst : FailsAtBlank (one (fold · == d)) :=
    .one fun c hc => beq_eq_false_of_isBlank (hw.not_isBlank (by simp)) _ (hfold c hc)
  exact hfirst.andThen

end FailsAtBlank

end Text.Recognizer

/-- A class of characters that has both cases of a letter or neither, and no blank. -/
structure IsMark (p : Char → Bool) : Prop where
  toLower : ∀ c : Char, p c.toLower = p c
  blank : ∀ c, isBlank c = true → p c = false

namespace IsMark

theorem folded {p : Char → Bool} (h : ∀ c, p c = true → isBlank c = false) :
    IsMark fun c => p (foldCase c) where
  toLower c := by rw [foldCase_toLower]
  blank c hc := by
    rw [← Bool.not_eq_true]
    intro hp
    have hsolid := h _ hp
    rw [isBlank_foldCase hc] at hsolid
    cases hsolid

theorem letter {d : Char} (hd : isBlank d = false) : IsMark (foldCase · == d) :=
  folded (p := (· == d)) fun c hc => by rwa [beq_iff_eq.1 hc]

theorem sign {d : Char} (hletter : d.isAlpha = false) (hblank : isBlank d = false) :
    IsMark (· == d) where
  toLower c := by
    by_cases hupper : 65 ≤ c.toNat ∧ c.toNat ≤ 90
    · have hc : c.isAlpha = true := (isAlpha_iff_toNat c).2 (.inl hupper)
      have hne : c ≠ d := ne_of_apply_ne Char.isAlpha (by rw [hc, hletter]; decide)
      have hne' : c.toLower ≠ d :=
        ne_of_apply_ne Char.isAlpha (by rw [isAlpha_toLower, hc, hletter]; decide)
      rw [beq_eq_false_iff_ne.2 hne, beq_eq_false_iff_ne.2 hne']
    · rw [toLower_of_not_isUpper hupper]
  blank := beq_eq_false_of_isBlank hblank

theorem colon : IsMark (· == ':') := sign (by decide) (by decide)

theorem bar : IsMark (· == '|') := sign (by decide) (by decide)

theorem decimal : IsMark isDecimal := ⟨isDecimal_toLower, fun _ => not_isDecimal_of_isBlank⟩

theorem noteLetter : IsMark isNoteLetterAnyCase :=
  folded (p := fun c => isNoteLetter c.toUpper) fun c hc => by
    obtain ⟨letter, hl⟩ := Option.isSome_iff_exists.1 hc
    have hupper : c.toUpper = letter.char := NoteLetter.ofChar?_eq_some_iff.1 hl
    rw [← Bool.not_eq_true]
    intro hblank
    rw [← toUpper_of_isBlank hblank, hupper, not_isBlank_noteLetter] at hblank
    cases hblank

theorem accidental : IsMark fun c => isAccidentalSign (foldCase c) :=
  folded fun c hc => by
    obtain ⟨accidental, ha⟩ := Option.isSome_iff_exists.1 hc
    rw [Accidental.ofChar?_eq_some_iff.1 ha]
    cases accidental <;> decide

theorem duration : IsMark fun c => isDurationCode (foldCase c) :=
  folded fun c hc => by
    obtain ⟨duration, hd⟩ := Option.isSome_iff_exists.1 hc
    rw [Duration.ofChar?_eq_some_iff.1 hd, not_isBlank_duration]

end IsMark

/-! ## Changes that no pattern can tell -/

/-- A change of a text that no pattern of marks and gaps can tell. -/
structure KeepsMarks (f : List Char → List Char) : Prop where
  respects_one {p : Char → Bool} : IsMark p → Respects f (one p)
  respects_many {p : Char → Bool} : IsMark p → Respects f (many p)
  respects_gap {s : Recognizer} :
    FailsAtBlank s → Respects f s → Respects f ((many isBlank).andThen s)
  respects_gap1 {s : Recognizer} :
    FailsAtBlank s → Respects f s → Respects f ((many1 isBlank).andThen s)
  inWord (cs : List Char) : (f cs).head?.any isWordChar = cs.head?.any isWordChar

/-! ### Lower case -/

private theorem respects_toLower_one {p : Char → Bool} (h : ∀ c : Char, p c.toLower = p c) :
    Respects (List.map Char.toLower) (one p) := by
  intro cs
  cases cs with
  | nil => rfl
  | cons c cs =>
    simp only [List.map_cons, one, h]
    cases p c <;> rfl

private theorem respects_toLower_many {p : Char → Bool} (h : ∀ c : Char, p c.toLower = p c) :
    Respects (List.map Char.toLower) (many p) := by
  intro cs
  rw [many, many, List.dropWhile_map, Option.map_some]
  congr 3
  exact funext h

theorem keepsMarks_toLower : KeepsMarks (List.map Char.toLower) where
  respects_one hp := respects_toLower_one hp.toLower
  respects_many hp := respects_toLower_many hp.toLower
  respects_gap _ hs := (respects_toLower_many isBlank_toLower).andThen hs
  respects_gap1 _ hs := by
    have hone := respects_toLower_one isBlank_toLower
    exact (hone.many1 (respects_toLower_many isBlank_toLower)).andThen hs
  inWord cs := by
    cases cs with
    | nil => rfl
    | cons c cs => simp [isWordChar_toLower]

/-! ### Blanks behind a text -/

section Trail

variable {trail : List Char} (htrail : ∀ c ∈ trail, isBlank c = true)

include htrail

private theorem respects_trail_one {p : Char → Bool} (hp : ∀ c, isBlank c = true → p c = false) :
    Respects (· ++ trail) (one p) := by
  intro cs
  cases cs with
  | nil => exact FailsAtBlank.one hp _ fun c hc => htrail c (List.mem_of_mem_head? hc)
  | cons c cs =>
    simp only [List.cons_append, one]
    cases p c <;> rfl

private theorem respects_trail_many {p : Char → Bool} (hp : ∀ c, isBlank c = true → p c = false) :
    Respects (· ++ trail) (many p) := by
  intro cs
  have hkept : trail.dropWhile p = trail := by
    cases trail with
    | nil => rfl
    | cons d trail => exact List.dropWhile_cons_of_neg (by simp [hp d (htrail d (by simp))])
  rw [many, many, Option.map_some, List.dropWhile_append, hkept]
  split
  · next hall => rw [List.isEmpty_iff.1 hall, List.nil_append]
  · rfl

/-- A gap that reaches up to the trailing blanks has nothing behind it, with them or without. -/
private theorem respects_trail_gap {s : Recognizer} (hblank : FailsAtBlank s)
    (hs : Respects (· ++ trail) s) : Respects (· ++ trail) ((many isBlank).andThen s) := by
  intro cs
  show s ((cs ++ trail).dropWhile isBlank) = (s (cs.dropWhile isBlank)).map (· ++ trail)
  rw [List.dropWhile_append, List.dropWhile_eq_nil_iff.2 htrail]
  split
  · next hall => rw [List.isEmpty_iff.1 hall, hblank [] (by simp), Option.map_none]
  · exact hs _

private theorem respects_trail_gap1 {s : Recognizer} (hblank : FailsAtBlank s)
    (hs : Respects (· ++ trail) s) : Respects (· ++ trail) ((many1 isBlank).andThen s) := by
  intro cs
  cases cs with
  | nil =>
    cases trail with
    | nil => rfl
    | cons d trail =>
      obtain ⟨hd, htrail⟩ := List.forall_mem_cons.1 htrail
      show (((one isBlank (d :: trail)).bind (many isBlank)).bind s) = none
      rw [one_cons hd, Option.bind_some, many, Option.bind_some,
        List.dropWhile_eq_nil_iff.2 htrail, hblank [] (by simp)]
  | cons c cs =>
    have hgap := respects_trail_gap htrail hblank hs cs
    simp only [andThen, many1, List.cons_append, one] at hgap ⊢
    cases isBlank c with
    | false => rfl
    | true => exact hgap

theorem keepsMarks_blanks : KeepsMarks (· ++ trail) where
  respects_one hp := respects_trail_one htrail hp.blank
  respects_many hp := respects_trail_many htrail hp.blank
  respects_gap := respects_trail_gap htrail
  respects_gap1 := respects_trail_gap1 htrail
  inWord cs := by
    cases cs with
    | nil =>
      cases trail with
      | nil => rfl
      | cons d trail => simp [not_isWordChar_of_isBlank (htrail d (by simp))]
    | cons c cs => rfl

end Trail

/-! ## The patterns of detection -/

theorem isSolid_clefName (type : ClefType) : IsSolid type.name.toList := by
  cases type <;> decide

private theorem failsAtBlank_clefName : FailsAtBlank clefName := by
  refine .firstOf fun r hr => ?_
  obtain ⟨type, -, rfl⟩ := List.mem_map.1 hr
  exact .word (fun _ => isBlank_foldCase) (isSolid_clefName type)

private theorem failsAtBlank_ratio : FailsAtBlank ratio :=
  (FailsAtBlank.one IsMark.decimal.blank).andThen.andThen

namespace KeepsMarks

variable {f : List Char → List Char} (hf : KeepsMarks f)

include hf

private theorem respects_word {w : List Char} (hw : IsSolid w) : Respects f (word foldCase w) :=
  .word fun _ hd => hf.respects_one (.letter (hw.not_isBlank hd))

private theorem respects_decimals : Respects f (many1 isDecimal) :=
  (hf.respects_one .decimal).many1 (hf.respects_many .decimal)

/-- A keyword, a colon and a value, with gaps between them. -/
private theorem respects_declaration {w : List Char} (hw : IsSolid w) {s : Recognizer}
    (hblank : FailsAtBlank s) (hs : Respects f s) :
    Respects f ((word foldCase w).andThen <| (many isBlank).andThen <|
      (one (· == ':')).andThen <| (many isBlank).andThen s) := by
  have hvalue := (hf.respects_one .colon).andThen (hf.respects_gap hblank hs)
  have hcolon := FailsAtBlank.one IsMark.colon.blank
  exact (hf.respects_word hw).andThen (hf.respects_gap hcolon.andThen hvalue)

theorem respects_clefSign : Respects f clefSign := by
  refine hf.respects_declaration (by decide) failsAtBlank_clefName (.firstOf fun r hr => ?_)
  obtain ⟨type, -, rfl⟩ := List.mem_map.1 hr
  exact hf.respects_word (isSolid_clefName type)

theorem respects_timeSign : Respects f timeSign := by
  refine hf.respects_declaration (by decide) failsAtBlank_ratio ?_
  have hslash := hf.respects_one (.sign (d := '/') (by decide) (by decide))
  exact hf.respects_decimals.andThen (hslash.andThen hf.respects_decimals)

theorem respects_barSign : Respects f barSign := by
  have hletter := FailsAtBlank.one IsMark.noteLetter.blank
  exact (hf.respects_one .bar).andThen (hf.respects_gap hletter (hf.respects_one .noteLetter))

theorem respects_noteShape : Respects f (noteShape isNoteLetterAnyCase foldCase) := by
  have hcode := hf.respects_gap1 (.one IsMark.duration.blank) (hf.respects_one .duration)
  have hoctave := hf.respects_decimals.andThen hcode
  have hsign := (hf.respects_one .accidental).optional.andThen hoctave
  exact (hf.respects_one .noteLetter).andThen hsign

theorem startsWithNote_eq (cs : List Char) : startsWithNote (f cs) = startsWithNote cs := by
  rw [startsWithNote, startsWithNote, hf.respects_noteShape cs]
  cases noteShape isNoteLetterAnyCase foldCase cs with
  | none => rfl
  | some rest => exact congrArg (!·) (hf.inWord rest)

end KeepsMarks

/-! ### Searching a text in lower case -/

theorem Text.Recognizer.Respects.occursIn_toLower {r : Recognizer}
    (h : Respects (List.map Char.toLower) r) (cs : List Char) :
    r.occursIn (cs.map Char.toLower) = r.occursIn cs := by
  induction cs with
  | nil => rfl
  | cons c cs ih =>
    rw [occursIn, ← ih, ← Option.isSome_map (f := List.map Char.toLower), ← h (c :: cs)]
    rfl

private theorem hasNoteSign_toLower (inWord : Bool) (cs : List Char) :
    hasNoteSign inWord (cs.map Char.toLower) = hasNoteSign inWord cs := by
  induction cs generalizing inWord with
  | nil => rfl
  | cons c cs ih =>
    rw [hasNoteSign, ← ih, ← keepsMarks_toLower.startsWithNote_eq, ← isWordChar_toLower]
    rfl

/-- Whether a text has a piece of notation does not depend on the case of its letters. -/
theorem hasMusicalPatterns_toLower (cs : List Char) :
    hasMusicalPatterns (cs.map Char.toLower) = hasMusicalPatterns cs := by
  rw [hasMusicalPatterns, keepsMarks_toLower.respects_clefSign.occursIn_toLower,
    keepsMarks_toLower.respects_timeSign.occursIn_toLower, hasNoteSign_toLower,
    keepsMarks_toLower.respects_barSign.occursIn_toLower]
  rfl

/-! ### Searching a text with blanks at its ends -/

/-- A search that sees nothing in the blanks at either end of a text. -/
structure IgnoresEnds (search : List Char → Bool) : Prop where
  cons {c : Char} : isBlank c = true → ∀ cs, search (c :: cs) = search cs
  append {trail : List Char} : (∀ c ∈ trail, isBlank c = true) → ∀ cs,
    search (cs ++ trail) = search cs

namespace IgnoresEnds

variable {search : List Char → Bool}

private theorem blanks (hcons : ∀ c, isBlank c = true → ∀ cs, search (c :: cs) = search cs)
    {trail : List Char} (htrail : ∀ c ∈ trail, isBlank c = true) : search trail = search [] := by
  induction trail with
  | nil => rfl
  | cons c trail ih =>
    obtain ⟨hc, htrail⟩ := List.forall_mem_cons.1 htrail
    rw [hcons c hc, ih htrail]

theorem append_append (h : IgnoresEnds search) {lead trail : List Char}
    (hlead : ∀ c ∈ lead, isBlank c = true) (htrail : ∀ c ∈ trail, isBlank c = true)
    (cs : List Char) : search (lead ++ (cs ++ trail)) = search cs := by
  induction lead with
  | nil => exact h.append htrail cs
  | cons c lead ih =>
    obtain ⟨hc, hlead⟩ := List.forall_mem_cons.1 hlead
    exact (h.cons hc _).trans (ih hlead)

theorem trim (h : IgnoresEnds search) (cs : List Char) : search (trim cs) = search cs := by
  obtain ⟨lead, trail, hlead, htrail, hcs⟩ := blanks_append_trim cs
  calc search (Text.trim cs) = search (lead ++ (Text.trim cs ++ trail)) :=
        (h.append_append hlead htrail _).symm
    _ = search cs := by rw [← hcs]

theorem or {search' : List Char → Bool} (h : IgnoresEnds search) (h' : IgnoresEnds search') :
    IgnoresEnds fun cs => search cs || search' cs where
  cons hc cs := by rw [h.cons hc, h'.cons hc]
  append htrail cs := by rw [h.append htrail, h'.append htrail]

theorem any {α : Type} {ks : List α} {search : α → List Char → Bool}
    (h : ∀ k ∈ ks, IgnoresEnds (search k)) : IgnoresEnds fun cs => ks.any (search · cs) := by
  induction ks with
  | nil => exact ⟨fun _ _ => rfl, fun _ _ => rfl⟩
  | cons k ks ih =>
    obtain ⟨hk, hks⟩ := List.forall_mem_cons.1 h
    exact hk.or (ih hks)

theorem occursIn {r : Recognizer} (hblank : FailsAtBlank r)
    (h : ∀ {trail : List Char}, (∀ c ∈ trail, isBlank c = true) → Respects (· ++ trail) r) :
    IgnoresEnds r.occursIn := by
  have hcons (c : Char) (hc : isBlank c = true) (cs : List Char) :
      r.occursIn (c :: cs) = r.occursIn cs := by
    rw [Recognizer.occursIn, hblank _ (by simpa using hc)]
    rfl
  refine ⟨fun {c} hc => hcons c hc, fun {trail} htrail cs => ?_⟩
  induction cs with
  | nil => exact blanks hcons htrail
  | cons c cs ih =>
    have hmatch : (r (c :: (cs ++ trail))).isSome = (r (c :: cs)).isSome := by
      rw [← List.cons_append, h htrail (c :: cs), Option.isSome_map]
    rw [List.cons_append, Recognizer.occursIn, hmatch, ih]
    rfl

end IgnoresEnds

private theorem hasNoteSign_cons {inWord : Bool} {c : Char} (hc : isBlank c = true)
    (cs : List Char) : hasNoteSign inWord (c :: cs) = hasNoteSign false cs := by
  have hletter := FailsAtBlank.one IsMark.noteLetter.blank (c :: cs) (by simpa using hc)
  have hshape : noteShape isNoteLetterAnyCase foldCase (c :: cs) = none := by
    rw [noteShape, andThen, hletter, Option.bind_none]
  rw [hasNoteSign, startsWithNote, hshape, not_isWordChar_of_isBlank hc, Bool.and_false,
    Bool.false_or]

private theorem hasNoteSign_append {trail : List Char} (htrail : ∀ c ∈ trail, isBlank c = true)
    (inWord : Bool) (cs : List Char) :
    hasNoteSign inWord (cs ++ trail) = hasNoteSign inWord cs := by
  induction cs generalizing inWord with
  | nil =>
    cases trail with
    | nil => rfl
    | cons d trail =>
      obtain ⟨hd, htrail⟩ := List.forall_mem_cons.1 htrail
      have hrest := IgnoresEnds.blanks (fun _ => hasNoteSign_cons) htrail
      rw [List.nil_append, hasNoteSign_cons hd, hrest]
      rfl
  | cons c cs ih =>
    have hnote : startsWithNote (c :: (cs ++ trail)) = startsWithNote (c :: cs) :=
      (keepsMarks_blanks htrail).startsWithNote_eq (c :: cs)
    rw [List.cons_append, hasNoteSign, hnote, ih, hasNoteSign]

theorem ignoresEnds_hasMusicalPatterns : IgnoresEnds hasMusicalPatterns := by
  have hclef := IgnoresEnds.occursIn (r := clefSign)
    (FailsAtBlank.word (fun _ => isBlank_foldCase) (by decide)).andThen
    fun h => (keepsMarks_blanks h).respects_clefSign
  have htime := IgnoresEnds.occursIn (r := timeSign)
    (FailsAtBlank.word (fun _ => isBlank_foldCase) (by decide)).andThen
    fun h => (keepsMarks_blanks h).respects_timeSign
  have hbar := IgnoresEnds.occursIn (r := barSign) (FailsAtBlank.one IsMark.bar.blank).andThen
    fun h => (keepsMarks_blanks h).respects_barSign
  have hnote : IgnoresEnds (hasNoteSign false) :=
    ⟨hasNoteSign_cons, fun htrail => hasNoteSign_append htrail false⟩
  exact ((hclef.or htime).or hnote).or hbar

theorem ignoresEnds_mentionsKeyword : IgnoresEnds mentionsKeyword := by
  show IgnoresEnds fun cs => diagramKeywords.any fun k => (word id k.toList).occursIn cs
  refine .any fun k hk => ?_
  have hsolid : ∀ k ∈ diagramKeywords, IsSolid k.toList := by decide
  refine .occursIn (.word (fun _ => id) (hsolid k hk)) fun htrail => .word fun d hd => ?_
  exact respects_trail_one htrail (beq_eq_false_of_isBlank ((hsolid k hk).not_isBlank hd))

/-! ## What detection finds -/

theorem Text.Recognizer.occursIn_iff {r : Recognizer} {cs : List Char} :
    r.occursIn cs = true ↔ ∃ before behind, cs = before ++ behind ∧ (r behind).isSome = true := by
  induction cs with
  | nil =>
    refine ⟨fun h => ⟨[], [], rfl, h⟩, ?_⟩
    rintro ⟨before, behind, hcs, h⟩
    obtain ⟨rfl, rfl⟩ := List.nil_eq_append_iff.1 hcs
    exact h
  | cons c cs ih =>
    rw [occursIn, Bool.or_eq_true, ih]
    constructor
    · rintro (h | ⟨before, behind, rfl, h⟩)
      · exact ⟨[], _, rfl, h⟩
      · exact ⟨c :: before, behind, rfl, h⟩
    · rintro ⟨before, behind, hcs, h⟩
      cases before with
      | nil =>
        rw [hcs]
        exact .inl h
      | cons d before =>
        obtain ⟨-, hcs⟩ := List.cons.inj hcs
        exact .inr ⟨before, behind, hcs, h⟩

/-- The text holds the word. -/
private theorem occursIn_word {w cs : List Char} :
    (word id w).occursIn cs = true ↔ w <:+: cs := by
  rw [occursIn_iff]
  constructor
  · rintro ⟨before, behind, rfl, h⟩
    obtain ⟨rest, hrest⟩ := Option.isSome_iff_exists.1 h
    obtain ⟨front, hfront, rfl⟩ := word_eq_some hrest
    rw [List.map_id] at hfront
    rw [hfront]
    exact ⟨before, rest, by simp⟩
  · rintro ⟨before, rest, rfl⟩
    exact ⟨before, w ++ rest, by simp, by rw [word_append (List.map_id w)]; rfl⟩

theorem mentionsKeyword_iff {cs : List Char} :
    mentionsKeyword cs = true ↔ ∃ keyword ∈ diagramKeywords, keyword.toList <:+: cs := by
  rw [mentionsKeyword, List.any_eq_true]
  simp only [occursIn_word]

/-! ## What detection does not see -/

/-- Detection takes a text as it is but for the case of keywords. -/
theorem looksLikeMusic_eq {cs : List Char} (h : ∀ c ∈ cs, c.toNat < 128 ∨ isBlank c = true) :
    looksLikeMusic cs = (mentionsKeyword (cs.map Char.toLower) || hasMusicalPatterns cs) := by
  rw [looksLikeMusic, lower_eq_map h, ignoresEnds_mentionsKeyword.trim,
    ignoresEnds_hasMusicalPatterns.trim, hasMusicalPatterns_toLower]

theorem looksLikeMusic_iff {cs : List Char} (h : ∀ c ∈ cs, c.toNat < 128) :
    looksLikeMusic cs = true ↔
      (∃ keyword ∈ diagramKeywords, keyword.toList <:+: cs.map Char.toLower) ∨
        hasMusicalPatterns cs = true := by
  rw [looksLikeMusic_eq fun c hc => .inl (h c hc), Bool.or_eq_true, mentionsKeyword_iff]

private theorem looksLikeMusic_of_toLower_eq {cs ds : List Char} (h : ∀ c ∈ cs, c.toNat < 128)
    (hsame : ds.map Char.toLower = cs.map Char.toLower) :
    looksLikeMusic ds = looksLikeMusic cs := by
  have hlow : ∀ c ∈ ds.map Char.toLower, c.toNat < 128 := by
    rw [hsame, List.forall_mem_map]
    exact fun c hc => (isAscii_toLower c).2 (h c hc)
  have hds : ∀ c ∈ ds, c.toNat < 128 := fun c hc =>
    (isAscii_toLower c).1 (List.forall_mem_map.1 hlow c hc)
  rw [looksLikeMusic_eq fun c hc => .inl (hds c hc), looksLikeMusic_eq fun c hc => .inl (h c hc),
    ← hasMusicalPatterns_toLower ds, hsame, hasMusicalPatterns_toLower]

private theorem looksLikeMusic_append_append {cs lead trail : List Char}
    (h : ∀ c ∈ cs, c.toNat < 128) (hlead : ∀ c ∈ lead, isBlank c = true)
    (htrail : ∀ c ∈ trail, isBlank c = true) :
    looksLikeMusic (lead ++ (cs ++ trail)) = looksLikeMusic cs := by
  have hlead' : ∀ c ∈ lead.map Char.toLower, isBlank c = true :=
    List.forall_mem_map.2 fun c hc => by rw [isBlank_toLower, hlead c hc]
  have htrail' : ∀ c ∈ trail.map Char.toLower, isBlank c = true :=
    List.forall_mem_map.2 fun c hc => by rw [isBlank_toLower, htrail c hc]
  have hall : ∀ c ∈ lead ++ (cs ++ trail), c.toNat < 128 ∨ isBlank c = true :=
    List.forall_mem_append.2 ⟨fun c hc => .inr (hlead c hc), List.forall_mem_append.2
      ⟨fun c hc => .inl (h c hc), fun c hc => .inr (htrail c hc)⟩⟩
  rw [looksLikeMusic_eq hall, looksLikeMusic_eq fun c hc => .inl (h c hc), List.map_append,
    List.map_append, ignoresEnds_mentionsKeyword.append_append hlead' htrail',
    ignoresEnds_hasMusicalPatterns.append_append hlead htrail]

/-- **Normalizing a text before detection changes nothing.** A text of ASCII characters is detected
just if it holds a keyword in any case or a piece of notation as it stands. So it does not matter
in which case its letters are and what white space stands around it. -/
theorem normalization_unobservable (text : String) (hascii : ∀ c ∈ text.toList, c.toNat < 128) :
    (detect (.text text) = true ↔
      (∃ keyword ∈ ["music", "score", "notation"],
        keyword.toList <:+: text.toList.map Char.toLower) ∨
      hasMusicalPatterns text.toList = true) ∧
    (∀ other : String, other.toList.map Char.toLower = text.toList.map Char.toLower →
      detect (.text other) = detect (.text text)) ∧
    ∀ lead trail : List Char, (∀ c ∈ lead, isBlank c = true) → (∀ c ∈ trail, isBlank c = true) →
      detect (.text (String.ofList (lead ++ (text.toList ++ trail)))) = detect (.text text) := by
  refine ⟨looksLikeMusic_iff hascii, fun other hother => ?_, fun lead trail hlead htrail => ?_⟩
  · exact looksLikeMusic_of_toLower_eq hascii hother
  · rw [detect, detect, String.toList_ofList]
    exact looksLikeMusic_append_append hascii hlead htrail

/-- A note between signs, in the other case, and between blanks of other scripts. -/
theorem normalization_unobservable_of_note :
    let text := "-BB12\tQ."
    (∀ c ∈ text.toList, c.toNat < 128) ∧ detect (.text text) = true ∧
      detect (.text "-bB12\tq.") = true ∧
      detect (.text (String.ofList (['\u2003', '\x1f'] ++ (text.toList ++ ['\n'])))) = true := by
  intro text
  have hall : text.toList.all (·.toNat < 128) = true := by decide
  have hascii : ∀ c ∈ text.toList, c.toNat < 128 := by
    simpa only [List.all_eq_true, decide_eq_true_eq] using hall
  obtain ⟨hfound, hcase, hends⟩ := normalization_unobservable text hascii
  have htext : detect (.text text) = true := hfound.2 (.inr (by decide +kernel))
  refine ⟨hascii, htext, ?_, ?_⟩
  · rw [hcase _ (by decide +kernel), htext]
  · rw [hends _ _ (List.all_eq_true.1 (by decide)) (List.all_eq_true.1 (by decide)), htext]

end ScoreText
