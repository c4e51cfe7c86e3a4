import ScoreText.Grammar.Fragment
import ScoreText.Proofs.Spacing

/-!
What the checks of fragments match. In a text whose white space is made of separators, a note or a
rest is what `Fragment.source` writes (`fragment_of_measureFragment`), and a text that passes as a
measure is a row of fragments with any separators between them (`row_of_measurePieces`). The
declarations are keywords in any case before a clef name or a ratio (`shape_of_clefFragment`,
`shape_of_timeFragment`).
-/

namespace ScoreText

open Text

/-! ## Parts of a pattern -/

namespace Text.Recognizer

variable {p : Char → Bool} {cs rest : List Char}

theorem one_eq_some (h : one p cs = some rest) : ∃ c, p c = true ∧ cs = c :: rest := by
  cases cs with
  | nil => cases h
  | cons c cs =>
    simp only [one] at h
    split at h
    · next hc =>
      cases h
      exact ⟨c, hc, rfl⟩
    · cases h

theorem many_eq_some (h : many p cs = some rest) :
    ∃ run, (∀ c ∈ run, p c = true) ∧ cs = run ++ rest := by
  cases h
  exact ⟨cs.takeWhile p, List.all_eq_true.1 List.all_takeWhile,
    List.takeWhile_append_dropWhile.symm⟩

theorem many1_eq_some (h : many1 p cs = some rest) :
    ∃ run, run ≠ [] ∧ (∀ c ∈ run, p c = true) ∧ cs = run ++ rest := by
  obtain ⟨mid, hfirst, hmore⟩ := Option.bind_eq_some_iff.1 h
  obtain ⟨c, hc, rfl⟩ := one_eq_some hfirst
  obtain ⟨run, hrun, rfl⟩ := many_eq_some hmore
  exact ⟨c :: run, by simp, List.forall_mem_cons.2 ⟨hc, hrun⟩, rfl⟩

theorem optional_eq_some (h : optional p cs = some rest) :
    cs = rest ∨ ∃ c, p c = true ∧ cs = c :: rest := by
  unfold optional at h
  cases hone : one p cs with
  | none =>
    rw [hone] at h
    exact .inl (Option.some.inj h)
  | some mid =>
    rw [hone] at h
    cases h
    exact .inr (one_eq_some hone)

theorem word_eq_some {fold : Char → Char} {w : List Char} (h : word fold w cs = some rest) :
    ∃ front, front.map fold = w ∧ cs = front ++ rest := by
  induction w generalizing cs with
  | nil =>
    cases h
    exact ⟨[], rfl, rfl⟩
  | cons d w ih =>
    obtain ⟨mid, hfirst, hmore⟩ := Option.bind_eq_some_iff.1 h
    obtain ⟨c, hc, rfl⟩ := one_eq_some hfirst
    obtain ⟨front, hfront, rfl⟩ := ih hmore
    exact ⟨c :: front, by simpa [hfront] using hc, rfl⟩

theorem one_cons {c : Char} (h : p c = true) (rest : List Char) : one p (c :: rest) = some rest :=
  if_pos h

/-- A run goes on as far as it can. -/
theorem many_append {run : List Char} (hrun : ∀ c ∈ run, p c = true)
    (hstop : ∀ c ∈ rest.head?, p c = false) : many p (run ++ rest) = some rest := by
  have hrest : rest.dropWhile p = rest := by
    cases rest with
    | nil => rfl
    | cons d rest => exact List.dropWhile_cons_of_neg (by simp [hstop d rfl])
  exact congrArg some ((List.dropWhile_append_of_pos hrun).trans hrest)

theorem many1_append {run : List Char} (hne : run ≠ []) (hrun : ∀ c ∈ run, p c = true)
    (hstop : ∀ c ∈ rest.head?, p c = false) : many1 p (run ++ rest) = some rest := by
  obtain ⟨c, run, rfl⟩ := List.exists_cons_of_ne_nil hne
  obtain ⟨hc, hrun⟩ := List.forall_mem_cons.1 hrun
  rw [many1, List.cons_append, one_cons hc]
  exact many_append hrun hstop

theorem optional_toList (sign : Option Char) (hsign : ∀ c ∈ sign, p c = true)
    (hstop : sign = none → ∀ c ∈ rest.head?, p c = false) :
    Recognizer.optional p (sign.toList ++ rest) = some rest := by
  cases sign with
  | some c => simp [Recognizer.optional, one, hsign c rfl]
  | none =>
    cases rest with
    | nil => rfl
    | cons d rest => simp [Recognizer.optional, one, hstop rfl d rfl]

theorem word_append {fold : Char → Char} {w front : List Char} (h : front.map fold = w)
    (rest : List Char) : word fold w (front ++ rest) = some rest := by
  induction front generalizing w with
  | nil =>
    rw [← h]
    rfl
  | cons c front ih =>
    rw [← h]
    exact Option.bind_eq_some_iff.2 ⟨_, one_cons (beq_self_eq_true _) _, ih rfl⟩

end Text.Recognizer

open Text.Recognizer

/-! ## Plain texts -/

/-- ASCII characters among which all white space is made of separators. -/
def IsPlain (cs : List Char) : Prop :=
  ∀ c ∈ cs, c.toNat < 128 ∧ (isBlank c = true → isSeparator c = true)

instance (cs : List Char) : Decidable (IsPlain cs) :=
  List.decidableBAll
    (fun c : Char => c.toNat < 128 ∧ (isBlank c = true → isSeparator c = true)) cs

theorem IsPlain.append_iff {cs ds : List Char} :
    IsPlain (cs ++ ds) ↔ IsPlain cs ∧ IsPlain ds := List.forall_mem_append

theorem IsPlain.isGap {cs : List Char} (h : IsPlain cs) (hblank : ∀ c ∈ cs, isBlank c = true) :
    IsGap cs := fun c hc => (h c hc).2 (hblank c hc)

/-- The only decimal digits of ASCII are those from 0 to 9. -/
theorem IsPlain.isDigit {cs : List Char} (h : IsPlain cs)
    (hdecimal : ∀ c ∈ cs, isDecimal c = true) : ∀ c ∈ cs, c.isDigit = true := by
  intro c hc
  have hascii := (h c hc).1
  have hdigit := hdecimal c hc
  rw [isDecimal, digit?, Option.isSome_map, List.find?_isSome] at hdigit
  obtain ⟨z, hz, hspan⟩ := hdigit
  simp only [Bool.and_eq_true, decide_eq_true_eq] at hspan
  have hlow : ∀ z ∈ zeros, z < 128 → z = 48 := by decide
  have hzero := hlow z hz (by omega)
  rw [isDigit_iff_toNat]
  omega

theorem IsPlain.foldCase {cs : List Char} (h : IsPlain cs) :
    cs.map ScoreText.foldCase = cs.map Char.toLower := by
  refine List.map_congr_left fun c hc => ?_
  have hascii := (h c hc).1
  rw [ScoreText.foldCase, if_neg (by omega), if_neg (by omega)]

theorem takeBlanks_append_trimStart (cs : List Char) :
    ∃ lead, (∀ c ∈ lead, isBlank c = true) ∧ cs = lead ++ trimStart cs :=
  ⟨cs.takeWhile isBlank, List.all_eq_true.1 List.all_takeWhile,
    List.takeWhile_append_dropWhile.symm⟩

/-- A text is blanks, what is left of it after trimming, and blanks. -/
theorem blanks_append_trim (cs : List Char) :
    ∃ lead trail, (∀ c ∈ lead, isBlank c = true) ∧ (∀ c ∈ trail, isBlank c = true) ∧
      cs = lead ++ (trim cs ++ trail) := by
  obtain ⟨lead, hlead, hcs⟩ := takeBlanks_append_trimStart cs
  obtain ⟨trail, htrail, hback⟩ := takeBlanks_append_trimStart (trimStart cs).reverse
  have hfront : trimStart cs = trim cs ++ trail.reverse := by
    rw [← List.reverse_reverse (trimStart cs), hback, List.reverse_append]
    rfl
  refine ⟨lead, trail.reverse, hlead, by simpa using htrail, ?_⟩
  rw [← hfront]
  exact hcs

/-- A plain text is separators, what is left of it after trimming, and separators. -/
theorem IsPlain.trim {cs : List Char} (h : IsPlain cs) :
    IsPlain (Text.trim cs) ∧
      ∃ lead trail, IsGap lead ∧ IsGap trail ∧ cs = lead ++ (Text.trim cs ++ trail) := by
  obtain ⟨lead, trail, hlead, htrail, hcs⟩ := blanks_append_trim cs
  have hall : IsPlain (lead ++ (Text.trim cs ++ trail)) := by rwa [← hcs]
  obtain ⟨hplain, hrest⟩ := IsPlain.append_iff.1 hall
  obtain ⟨hmiddle, hend⟩ := IsPlain.append_iff.1 hrest
  exact ⟨hmiddle, lead, trail, hplain.isGap hlead, hend.isGap htrail, hcs⟩

/-! ## Notes, rests and bar lines -/

structure Blanks where
  chars : List Char
  nonempty : chars ≠ []
  isGap : IsGap chars

theorem Blanks.exists_cons (b : Blanks) : ∃ c cs, b.chars = c :: cs ∧ isSeparator c = true := by
  obtain ⟨c, cs, h⟩ := List.exists_cons_of_ne_nil b.nonempty
  exact ⟨c, cs, h, b.isGap c (by rw [h]; simp)⟩

structure DigitRun where
  chars : List Char
  nonempty : chars ≠ []
  isDigit : ∀ c ∈ chars, c.isDigit = true

theorem DigitRun.exists_cons (r : DigitRun) : ∃ c cs, r.chars = c :: cs ∧ c.isDigit = true := by
  obtain ⟨c, cs, h⟩ := List.exists_cons_of_ne_nil r.nonempty
  exact ⟨c, cs, h, r.isDigit c (by rw [h]; simp)⟩

inductive Fragment
  | note (letter : NoteLetter) (accidental : Option Accidental) (octave : DigitRun) (gap : Blanks)
    (duration : Duration)
  | rest (gap : Blanks) (duration : Duration)
  | bar

namespace Fragment

def source : Fragment → List Char
  | .note letter accidental octave gap duration =>
    letter.char :: ((accidental.map Accidental.char).toList ++
      (octave.chars ++ (gap.chars ++ [duration.char])))
  | .rest gap duration => 'r' :: (gap.chars ++ [duration.char])
  | .bar => ['|']

/-- The note or rest, standing at a place. A note has an octave of one digit. -/
def element? (p : Position) : Fragment → Option Element
  | .note letter accidental octave _ duration =>
    if octave.chars.length = 1 then
      some (.note ⟨letter, decimal octave.chars, accidental⟩ duration p)
    else none
  | .rest _ duration => some (.rest duration p)
  | .bar => none

/-- The octave of a note, if it has more than one digit. -/
def overlong? : Fragment → Option String
  | .note _ _ octave _ _ =>
    if octave.chars.length = 1 then none else some (String.ofList octave.chars)
  | .rest _ _ | .bar => none

end Fragment

section Shapes

variable {cs rest : List Char}

/-- A note in any script: its octave is made of decimal digits and its gap of white space. -/
theorem shape_of_noteFragment (h : noteFragment cs = some rest) :
    ∃ (letter : NoteLetter) (accidental : Option Accidental) (octave gap : List Char)
      (duration : Duration), octave ≠ [] ∧ (∀ c ∈ octave, isDecimal c = true) ∧ gap ≠ [] ∧
        (∀ c ∈ gap, isBlank c = true) ∧
        cs = letter.char :: ((accidental.map Accidental.char).toList ++
          (octave ++ (gap ++ duration.char :: rest))) := by
  obtain ⟨r₁, h₁, hr₁⟩ := Option.bind_eq_some_iff.1 h
  obtain ⟨r₂, h₂, hr₂⟩ := Option.bind_eq_some_iff.1 hr₁
  obtain ⟨r₃, h₃, hr₃⟩ := Option.bind_eq_some_iff.1 hr₂
  obtain ⟨r₄, h₄, h₅⟩ := Option.bind_eq_some_iff.1 hr₃
  obtain ⟨c, hletter, rfl⟩ := one_eq_some h₁
  obtain ⟨octave, hne, hoctave, rfl⟩ := many1_eq_some h₃
  obtain ⟨gap, hgap, hblank, rfl⟩ := many1_eq_some h₄
  obtain ⟨code, hcode, rfl⟩ := one_eq_some h₅
  obtain ⟨letter, hl⟩ := Option.isSome_iff_exists.1 hletter
  obtain ⟨duration, hd⟩ := Option.isSome_iff_exists.1 hcode
  have hcode' : code = duration.char := Duration.ofChar?_eq_some_iff.1 hd
  rw [NoteLetter.ofChar?_eq_some_iff.1 hl]
  rcases optional_eq_some h₂ with hnone | ⟨sign, hsign, hsome⟩
  · refine ⟨letter, none, octave, gap, duration, hne, hoctave, hgap, hblank, ?_⟩
    rw [hnone, hcode']
    rfl
  · obtain ⟨accidental, ha⟩ := Option.isSome_iff_exists.1 hsign
    refine ⟨letter, some accidental, octave, gap, duration, hne, hoctave, hgap, hblank, ?_⟩
    have hchar : sign = accidental.char := Accidental.ofChar?_eq_some_iff.1 ha
    rw [hsome, hchar, hcode']
    rfl

theorem shape_of_restFragment (h : restFragment cs = some rest) :
    ∃ (gap : List Char) (duration : Duration), gap ≠ [] ∧ (∀ c ∈ gap, isBlank c = true) ∧
      cs = 'r' :: (gap ++ duration.char :: rest) := by
  obtain ⟨r₁, h₁, hr₁⟩ := Option.bind_eq_some_iff.1 h
  obtain ⟨r₂, h₂, h₃⟩ := Option.bind_eq_some_iff.1 hr₁
  obtain ⟨c, hr, rfl⟩ := one_eq_some h₁
  obtain ⟨gap, hgap, hblank, rfl⟩ := many1_eq_some h₂
  obtain ⟨code, hcode, rfl⟩ := one_eq_some h₃
  obtain ⟨duration, hd⟩ := Option.isSome_iff_exists.1 hcode
  refine ⟨gap, duration, hgap, hblank, ?_⟩
  rw [beq_iff_eq.1 hr, Duration.ofChar?_eq_some_iff.1 hd]

theorem fragment_of_noteFragment (hplain : IsPlain cs) (h : noteFragment cs = some rest) :
    ∃ letter accidental octave gap duration,
      cs = (Fragment.note letter accidental octave gap duration).source ++ rest := by
  obtain ⟨letter, accidental, octave, gap, duration, hne, hoctave, hgap, hblank, rfl⟩ :=
    shape_of_noteFragment h
  have htail := (List.forall_mem_cons.1 hplain).2
  obtain ⟨-, htail⟩ := IsPlain.append_iff.1 htail
  obtain ⟨hplain₁, htail⟩ := IsPlain.append_iff.1 htail
  obtain ⟨hplain₂, -⟩ := IsPlain.append_iff.1 htail
  exact ⟨letter, accidental, ⟨octave, hne, hplain₁.isDigit hoctave⟩,
    ⟨gap, hgap, hplain₂.isGap hblank⟩, duration, by simp [Fragment.source]⟩

theorem fragment_of_restFragment (hplain : IsPlain cs) (h : restFragment cs = some rest) :
    ∃ gap duration, cs = (Fragment.rest gap duration).source ++ rest := by
  obtain ⟨gap, duration, hgap, hblank, rfl⟩ := shape_of_restFragment h
  have hplain' := (IsPlain.append_iff.1 (List.forall_mem_cons.1 hplain).2).1
  exact ⟨⟨gap, hgap, hplain'.isGap hblank⟩, duration, by simp [Fragment.source]⟩

/-- What is matched in a measure is written as a fragment. -/
theorem fragment_of_measureFragment (hplain : IsPlain cs) (h : measureFragment cs = some rest) :
    ∃ f : Fragment, cs = f.source ++ rest := by
  obtain ⟨r, hr, h⟩ := List.exists_of_findSome?_eq_some h
  simp only [List.mem_cons, List.not_mem_nil, or_false] at hr
  rcases hr with rfl | rfl | rfl
  · obtain ⟨letter, accidental, octave, gap, duration, hcs⟩ := fragment_of_noteFragment hplain h
    exact ⟨_, hcs⟩
  · obtain ⟨gap, duration, hcs⟩ := fragment_of_restFragment hplain h
    exact ⟨_, hcs⟩
  · obtain ⟨c, hc, rfl⟩ := one_eq_some h
    exact ⟨.bar, by rw [beq_iff_eq.1 hc]; rfl⟩

/-- `Declares keyword cs value`: the keyword in any case, a colon, any separators, and the value. -/
def Declares (keyword : String) (cs value : List Char) : Prop :=
  ∃ front gap, front.map Char.toLower = keyword.toList ∧ IsGap gap ∧
    cs = front ++ ':' :: (gap ++ value)

private theorem eq_colon_of_foldCase {c : Char} (h : foldCase c = ':') : c = ':' := by
  unfold foldCase at h
  split at h
  · exact absurd h (by decide)
  · split at h
    · exact absurd h (by decide)
    · exact eq_of_toLower_eq (by decide) h

/-- A declaration in any script: its gap is made of white space. -/
theorem shape_of_declaration (keyword : String) {mid : List Char}
    (h₁ : word foldCase (keyword.toList ++ [':']) cs = some mid)
    (h₂ : many isBlank mid = some rest) :
    ∃ letters gap, letters.map foldCase = keyword.toList ∧ (∀ c ∈ gap, isBlank c = true) ∧
      cs = letters ++ ':' :: (gap ++ rest) := by
  obtain ⟨front, hfront, rfl⟩ := word_eq_some h₁
  obtain ⟨gap, hblank, rfl⟩ := many_eq_some h₂
  obtain ⟨letters, colon, rfl, hletters, hcolon⟩ := List.map_eq_append_iff.1 hfront
  obtain ⟨c, rfl, hc⟩ := List.map_eq_singleton_iff.1 hcolon
  rw [eq_colon_of_foldCase hc]
  exact ⟨letters, gap, hletters, hblank, by simp⟩

private theorem declares_of_word (keyword : String) (hplain : IsPlain cs) {mid : List Char}
    (h₁ : word foldCase (keyword.toList ++ [':']) cs = some mid)
    (h₂ : many isBlank mid = some rest) : IsPlain rest ∧ Declares keyword cs rest := by
  obtain ⟨letters, gap, hletters, hblank, rfl⟩ := shape_of_declaration keyword h₁ h₂
  obtain ⟨hplain, hplain'⟩ := IsPlain.append_iff.1 hplain
  obtain ⟨hgap, hrest⟩ := IsPlain.append_iff.1 (List.forall_mem_cons.1 hplain').2
  rw [hplain.foldCase] at hletters
  exact ⟨hrest, letters, gap, hletters, hgap.isGap hblank, rfl⟩

theorem shape_of_clefFragment (hplain : IsPlain cs) (h : clefFragment cs = some rest) :
    ∃ name, ∃ type : ClefType, name.map Char.toLower = type.name.toList ∧
      Declares "clef" cs (name ++ rest) := by
  obtain ⟨r₁, h₁, hr₁⟩ := Option.bind_eq_some_iff.1 h
  obtain ⟨r₂, h₂, h₃⟩ := Option.bind_eq_some_iff.1 hr₁
  obtain ⟨hplain', hdeclares⟩ := declares_of_word "clef" hplain h₁ h₂
  obtain ⟨r, hr, hname⟩ := List.exists_of_findSome?_eq_some h₃
  obtain ⟨type, -, rfl⟩ := List.mem_map.1 hr
  obtain ⟨name, hfold, rfl⟩ := word_eq_some hname
  rw [(IsPlain.append_iff.1 hplain').1.foldCase] at hfold
  exact ⟨name, type, hfold, hdeclares⟩

theorem shape_of_timeFragment (hplain : IsPlain cs) (h : timeFragment cs = some rest) :
    ∃ above below : DigitRun, Declares "time" cs (above.chars ++ '/' :: (below.chars ++ rest)) := by
  obtain ⟨r₁, h₁, hr₁⟩ := Option.bind_eq_some_iff.1 h
  obtain ⟨r₂, h₂, hr₂⟩ := Option.bind_eq_some_iff.1 hr₁
  obtain ⟨r₃, h₃, hr₃⟩ := Option.bind_eq_some_iff.1 hr₂
  obtain ⟨r₄, h₄, h₅⟩ := Option.bind_eq_some_iff.1 hr₃
  obtain ⟨hplain', hdeclares⟩ := declares_of_word "time" hplain h₁ h₂
  obtain ⟨above, hne, habove, rfl⟩ := many1_eq_some h₃
  obtain ⟨c, hc, rfl⟩ := one_eq_some h₄
  obtain ⟨below, hne', hbelow, rfl⟩ := many1_eq_some h₅
  obtain ⟨hplain₁, htail⟩ := IsPlain.append_iff.1 hplain'
  have hplain₂ := (IsPlain.append_iff.1 (List.forall_mem_cons.1 htail).2).1
  rw [beq_iff_eq.1 hc] at hdeclares
  exact ⟨⟨above, hne, hplain₁.isDigit habove⟩, ⟨below, hne', hplain₂.isDigit hbelow⟩, hdeclares⟩

end Shapes

/-! ## Measures -/

/-- What the check of a measure matches, piece by piece, if it passes. -/
def measurePieces (cs : List Char) : Option (List (List Char)) :=
  if cs.isEmpty then some []
  else
    match h : measureFragment cs with
    | none => none
    | some rest =>
      have _shorter := length_measureFragment h
      (measurePieces (trimStart rest)).map (cs.take (cs.length - rest.length) :: ·)
termination_by cs.length
decreasing_by
  have htrim : (trimStart rest).length ≤ rest.length := (List.dropWhile_suffix _).length_le
  omega

theorem isMeasureRun_eq (cs : List Char) : isMeasureRun cs = (measurePieces cs).isSome := by
  fun_induction isMeasureRun cs with
  | case1 cs hnil => simp [measurePieces, hnil]
  | case2 cs hne hnone =>
    rw [measurePieces, if_neg hne]
    split
    · rfl
    · next heq => simp [hnone] at heq
  | case3 cs hne rest hrest _ ih =>
    rw [measurePieces, if_neg hne, ih]
    split
    · next heq => simp [hrest] at heq
    · next rest' heq =>
      rw [hrest] at heq
      cases heq
      simp

/-- `Row cs fs`: the characters are the fragments in a row, with any separators around them. -/
inductive Row : List Char → List Fragment → Prop
  | nil {gap : List Char} : IsGap gap → Row gap []
  | cons {gap cs : List Char} {fs : List Fragment} (f : Fragment) :
      IsGap gap → Row cs fs → Row (gap ++ (f.source ++ cs)) (f :: fs)

namespace Row

variable {gap cs : List Char} {fs : List Fragment}

theorem gap_append (hgap : IsGap gap) (h : Row cs fs) : Row (gap ++ cs) fs := by
  cases h with
  | nil hcs => exact .nil (List.forall_mem_append.2 ⟨hgap, hcs⟩)
  | cons f hfirst hrest =>
    rw [← List.append_assoc]
    exact .cons f (List.forall_mem_append.2 ⟨hgap, hfirst⟩) hrest

theorem append_gap (h : Row cs fs) (hgap : IsGap gap) : Row (cs ++ gap) fs := by
  induction h with
  | nil hcs => exact .nil (List.forall_mem_append.2 ⟨hcs, hgap⟩)
  | cons f hfirst _ ih =>
    rw [List.append_assoc, List.append_assoc]
    exact .cons f hfirst ih

end Row

/-- A measure is a row of the fragments that its check matches. -/
theorem row_of_measurePieces {cs : List Char} (hplain : IsPlain cs) {pieces : List (List Char)}
    (h : measurePieces cs = some pieces) :
    ∃ fs : List Fragment, pieces = fs.map Fragment.source ∧ Row cs fs := by
  fun_induction measurePieces cs generalizing pieces with
  | case1 cs hnil =>
    cases h
    rw [List.isEmpty_iff.1 hnil]
    exact ⟨[], rfl, .nil (by simp [IsGap])⟩
  | case2 cs hne hnone => cases h
  | case3 cs hne rest hrest _ ih =>
    obtain ⟨more, hmore, rfl⟩ := Option.map_eq_some_iff.1 h
    obtain ⟨f, rfl⟩ := fragment_of_measureFragment hplain hrest
    obtain ⟨blanks, hblank, hsplit⟩ := takeBlanks_append_trimStart rest
    have hplain' : IsPlain (blanks ++ trimStart rest) := by
      rw [← hsplit]
      exact (IsPlain.append_iff.1 hplain).2
    obtain ⟨hblanks, htrim⟩ := IsPlain.append_iff.1 hplain'
    obtain ⟨fs, rfl, hrow⟩ := ih htrim hmore
    refine ⟨f :: fs, by simp, ?_⟩
    have hnext := hrow.gap_append (hblanks.isGap hblank)
    rw [← hsplit] at hnext
    exact .cons f (by simp [IsGap] : IsGap []) hnext

end ScoreText
