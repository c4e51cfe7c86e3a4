import ScoreText.Lexeme
import ScoreText.Proofs.Ascii

/-!
What the pieces of a text look like. Every kind of token has texts of its own (`Kind.Admits`), and
every piece is sound: a token piece is made of characters of the notation and has a text of its
kind, and a stray character is one that the notation does not have (`sound_of_mem_lexemes`). So a
text has no stray characters exactly when all its characters belong to the notation
(`noStray_iff`). What a scan can cut off is listed once, in `Scans`.
-/

namespace ScoreText

/-! ## Codes of the parts of a score -/

namespace NoteLetter

theorem ofChar?_eq_some_iff {c : Char} {l : NoteLetter} : ofChar? c = some l ↔ c = l.char := by
  constructor
  · unfold ofChar?
    split <;> simp <;> rintro rfl <;> rfl
  · rintro rfl
    cases l <;> rfl

end NoteLetter

namespace Accidental

theorem ofChar?_eq_some_iff {c : Char} {a : Accidental} : ofChar? c = some a ↔ c = a.char := by
  constructor
  · unfold ofChar?
    split <;> simp <;> rintro rfl <;> rfl
  · rintro rfl
    cases a <;> rfl

end Accidental

namespace Duration

theorem ofChar?_eq_some_iff {c : Char} {d : Duration} : ofChar? c = some d ↔ c = d.char := by
  constructor
  · unfold ofChar?
    split <;> simp <;> rintro rfl <;> rfl
  · rintro rfl
    cases d <;> rfl

end Duration

namespace ClefType

theorem ofName?_eq_some_iff {s : String} {t : ClefType} : ofName? s = some t ↔ s = t.name := by
  constructor
  · unfold ofName?
    split <;> simp <;> rintro rfl <;> rfl
  · rintro rfl
    cases t <;> rfl

end ClefType

/-- The flat sign is a letter. -/
theorem eq_sharp_of_isAccidentalSign {c : Char} (h : isAccidentalSign c = true)
    (hc : ¬ c.isAlpha = true) : c = '#' := by
  obtain ⟨a, ha⟩ := Option.isSome_iff_exists.1 h
  rw [Accidental.ofChar?_eq_some_iff.1 ha] at hc ⊢
  cases a with
  | sharp => rfl
  | flat => exact absurd (by decide) hc

/-! ## Sound lexemes -/

def isNotationChar (c : Char) : Bool :=
  c.isAlpha || c.isDigit || [' ', '\t', '\r', '\n', ':', '|', '/', '#'].contains c

def Kind.Admits : Kind → List Char → Prop
  | .note, cs => ∃ c : Char, cs = [c] ∧ c.isAlpha = true
  | .duration, cs => ∃ d : Duration, cs = [d.char]
  | .clef, cs =>
    (∀ c ∈ cs, c.isAlpha = true) ∧ ∃ type : ClefType, cs.map Char.toLower = type.name.toList
  | .accidental, cs => ∃ a : Accidental, cs = [a.char]
  | .number, cs => cs ≠ [] ∧ ∀ c ∈ cs, c.isDigit = true
  | .identifier, cs => cs ≠ [] ∧ ∀ c ∈ cs, c.isAlpha = true
  | .rest, cs => cs = ['r'] ∨ cs = ['R']
  | .colon, cs => cs = [':']
  | .pipe, cs => cs = ['|']
  | .slash, cs => cs = ['/']
  | .whitespace, cs => cs = [' '] ∨ cs = ['\t']
  | .newline, cs => cs = ['\n'] ∨ cs = ['\r', '\n']
  | .eof, cs => cs = []
  | .unknown, _ => False

/-- A piece is what its kind says. No piece of a text is an end token. -/
def Lexeme.Sound : Lexeme → Prop
  | .token kind source text =>
    kind ≠ .eof ∧ kind.Admits text ∧ source ≠ [] ∧ ∀ c ∈ source, isNotationChar c = true
  | .stray c => isNotationChar c = false
  | .carriage => True

theorem isNotationChar_of_isAlpha {c : Char} (h : c.isAlpha = true) :
    isNotationChar c = true := by
  simp [isNotationChar, h]

theorem isNotationChar_of_isDigit {c : Char} (h : c.isDigit = true) :
    isNotationChar c = true := by
  simp [isNotationChar, h]

theorem admits_classifyWord {word : List Char} (hne : word ≠ [])
    (h : ∀ c ∈ word, c.isAlpha = true) : (classifyWord word).Admits word := by
  unfold classifyWord
  dsimp only
  split
  · next c =>
    split
    · exact ⟨c, rfl, h c (by simp)⟩
    · split
      · next hd =>
        obtain ⟨d, hd⟩ := Option.isSome_iff_exists.1 hd
        exact ⟨d, by rw [Duration.ofChar?_eq_some_iff.1 hd]⟩
      · split
        · next hr =>
          simp only [List.map_cons, List.map_nil, List.cons.injEq, and_true] at hr
          rcases Text.toNat_of_toLower_eq hr with rfl | hn
          · exact .inl rfl
          · have : c = 'R' := Char.toNat_inj.1 (Nat.add_right_cancel hn)
            exact .inr (by rw [this])
        · exact ⟨hne, h⟩
  · split
    · next hc =>
      obtain ⟨type, ht⟩ := Option.isSome_iff_exists.1 hc
      refine ⟨h, type, ?_⟩
      rw [← ClefType.ofName?_eq_some_iff.1 ht, String.toList_ofList]
    · exact ⟨hne, h⟩

theorem classifyWord_ne_eof (word : List Char) : classifyWord word ≠ .eof := by
  unfold classifyWord
  dsimp only
  repeat' split
  all_goals simp

private theorem sound_plain_of_letters {kind : Kind} {c : Char} (hk : kind ≠ .eof)
    (ha : kind.Admits [c]) (hc : isNotationChar c = true) : (Lexeme.plain kind [c]).Sound :=
  ⟨hk, ha, by simp, by simpa using hc⟩

private theorem sound_noteLetter {c : Char} (h : c.isAlpha = true) :
    (Lexeme.noteLetter c).Sound := by
  refine ⟨by simp, ⟨c.toUpper, rfl, Text.isAlpha_toUpper h⟩, by simp, ?_⟩
  simpa using isNotationChar_of_isAlpha h

private theorem sound_accidental (a : Accidental) : (Lexeme.plain .accidental [a.char]).Sound :=
  sound_plain_of_letters (by simp) ⟨a, rfl⟩ (by cases a <;> decide)

private theorem sound_sign {c : Char} {kind : Kind} (h : signKind? c = some kind) :
    (Lexeme.plain kind [c]).Sound := by
  unfold signKind? at h
  split at h
  all_goals cases h
  · exact sound_plain_of_letters (by simp) rfl (by decide)
  · exact sound_plain_of_letters (by simp) rfl (by decide)
  · exact sound_plain_of_letters (by simp) rfl (by decide)
  · exact sound_accidental .sharp
  · exact sound_plain_of_letters (by simp) (.inl rfl) (by decide)
  · exact sound_plain_of_letters (by simp) (.inr rfl) (by decide)
  · exact sound_plain_of_letters (by simp) (.inl rfl) (by decide)

/-- A character that starts no piece of a token is none of the notation. -/
theorem isNotationChar_eq_false {c : Char} (hs : signKind? c = none) (hr : c ≠ '\r')
    (ha : ¬ c.isAlpha = true) (hd : ¬ c.isDigit = true) : isNotationChar c = false := by
  simp only [Bool.not_eq_true] at ha hd
  simp only [isNotationChar, ha, hd, Bool.false_or, List.contains_eq_mem, List.mem_cons,
    List.not_mem_nil, or_false, decide_eq_false_iff_not]
  rintro (rfl | rfl | rfl | rfl | rfl | rfl | rfl | rfl)
  case inr.inr.inl => exact hr rfl
  all_goals cases hs

/-! ## Scans -/

/-- What one scan can do: `Scans c rest pieces after` cuts the pieces off the characters `c :: rest`
and leaves the characters `after`. -/
inductive Scans : Char → List Char → List Lexeme → List Char → Prop
  | sign {c : Char} {kind : Kind} {rest : List Char} (h : signKind? c = some kind) :
      Scans c rest [.plain kind [c]] rest
  | lineEnd {rest : List Char} : Scans '\r' ('\n' :: rest) [.plain .newline ['\r', '\n']] rest
  | carriage {rest : List Char} (h : rest.head? ≠ some '\n') : Scans '\r' rest [.carriage] rest
  | duration (d : Duration) {rest : List Char} :
      Scans d.char rest [.plain .duration [d.char]] rest
  | altered {c : Char} (hc : c.isAlpha = true) (a : Accidental) {rest : List Char} :
      Scans c (a.char :: rest) [.noteLetter c, .plain .accidental [a.char]] rest
  | letter {c : Char} (hc : c.isAlpha = true) {rest : List Char} : Scans c rest [.noteLetter c] rest
  /-- A note letter is a word of its own just before a sharp sign with a letter behind it. -/
  | word {c : Char} {run after : List Char} (h : ∀ d ∈ c :: run, d.isAlpha = true)
      (hstop : ∀ d ∈ after.head?, d.isAlpha = false)
      (hshort : run = [] → isNoteLetter c.toUpper = true →
        ∃ d more, after = '#' :: d :: more ∧ d.isAlpha = true) :
      Scans c (run ++ after) [.plain (classifyWord (c :: run)) (c :: run)] after
  | number {c : Char} {run after : List Char} (h : ∀ d ∈ c :: run, d.isDigit = true)
      (hstop : ∀ d ∈ after.head?, d.isDigit = false) :
      Scans c (run ++ after) [.plain .number (c :: run)] after
  | stray {c : Char} (h : isNotationChar c = false) {rest : List Char} :
      Scans c rest [.stray c] rest

private theorem not_head?_dropWhile (p : Char → Bool) (cs : List Char) :
    ∀ c ∈ (cs.dropWhile p).head?, p c = false := by
  intro c hc
  have := List.head?_dropWhile_not p cs
  rw [Option.mem_def.1 hc] at this
  simpa using this

private theorem forall_mem_cons_takeWhile {p : Char → Bool} {c : Char} (hc : p c = true)
    (cs : List Char) : ∀ d ∈ c :: cs.takeWhile p, p d = true :=
  List.forall_mem_cons.2 ⟨hc, List.all_eq_true.1 List.all_takeWhile⟩

private theorem scans_letters {c : Char} (hc : c.isAlpha = true) {rest : List Char}
    (hshort : rest.takeWhile Char.isAlpha = [] → isNoteLetter c.toUpper = true →
      ∃ d more, rest = '#' :: d :: more ∧ d.isAlpha = true) :
    Scans c rest (scanLetters c rest).1 (scanLetters c rest).2 := by
  have hsplit : rest.takeWhile Char.isAlpha ++ rest.dropWhile Char.isAlpha = rest :=
    List.takeWhile_append_dropWhile
  have hword := Scans.word (forall_mem_cons_takeWhile hc rest)
    (not_head?_dropWhile Char.isAlpha rest) fun hrun hnote => by
      rw [hrun, List.nil_append] at hsplit
      rw [hsplit]
      exact hshort hrun hnote
  rwa [hsplit] at hword

private theorem scans_duration {c : Char} (h : isDurationCode c = true) (rest : List Char) :
    Scans c rest [.plain .duration [c]] rest := by
  obtain ⟨d, hd⟩ := Option.isSome_iff_exists.1 h
  rw [Duration.ofChar?_eq_some_iff.1 hd]
  exact .duration d

private theorem exists_cons_of_head?_any {p : Char → Bool} {cs : List Char}
    (h : cs.head?.any p = true) : ∃ d more, cs = d :: more ∧ p d = true := by
  cases cs with
  | nil => cases h
  | cons d more => exact ⟨d, more, rfl, h⟩

private theorem scans_scanWord {c : Char} (hc : c.isAlpha = true) (rest : List Char) :
    Scans c rest (scanWord c rest).1 (scanWord c rest).2 := by
  unfold scanWord
  split
  · split
    · next hd => exact scans_duration hd []
    · split
      · exact .letter hc
      · next hnote => exact scans_letters hc fun _ h => absurd h hnote
  · next second after =>
    split
    · next hd => exact scans_duration (Bool.and_eq_true_iff.1 hd).1 _
    · split
      · next hsign =>
        obtain ⟨a, ha⟩ := Option.isSome_iff_exists.1 (Bool.and_eq_true_iff.1 hsign).1
        rw [Accidental.ofChar?_eq_some_iff.1 ha]
        exact .altered hc a
      · next hplain =>
        split
        · exact .letter hc
        · split
          · exact .letter hc
          · next hlast =>
            -- No letter follows, so what keeps rules 2 and 4 off is a sharp sign before a letter.
            refine scans_letters hc fun hrun hnote => ?_
            have halpha : second.isAlpha = false := by
              by_cases h : second.isAlpha = true
              · simp [h] at hrun
              · simpa using h
            have hsign : isAccidentalSign second = true := by simpa [halpha, hnote] using hlast
            have hnext : after.head?.any Char.isAlpha = true := by simpa [hsign] using hplain
            obtain ⟨d, more, rfl, hd⟩ := exists_cons_of_head?_any hnext
            exact ⟨d, more, by rw [eq_sharp_of_isAccidentalSign hsign (by simp [halpha])], hd⟩

/-- Every scan does one of these things. -/
theorem scans_scan (c : Char) (rest : List Char) :
    Scans c rest (scan c rest).1 (scan c rest).2 := by
  unfold scan
  split
  · next kind hk => exact .sign hk
  · next hs =>
    split
    · next hr =>
      subst hr
      split
      · exact .lineEnd
      · next hne =>
        refine .carriage fun hhead => ?_
        obtain ⟨after, rfl⟩ := List.head?_eq_some_iff.1 hhead
        exact hne after rfl
    · next hr =>
      split
      · next ha => exact scans_scanWord ha rest
      · next ha =>
        split
        · next hd =>
          have hnumber := Scans.number (forall_mem_cons_takeWhile hd rest)
            (not_head?_dropWhile Char.isDigit rest)
          rwa [List.takeWhile_append_dropWhile] at hnumber
        · next hd => exact .stray (isNotationChar_eq_false hs hr ha hd)

namespace Scans

variable {c : Char} {rest after : List Char} {pieces : List Lexeme}

theorem sound (h : Scans c rest pieces after) : ∀ x ∈ pieces, x.Sound := by
  cases h with
  | sign hk => simpa using sound_sign hk
  | lineEnd =>
    have hn : (Lexeme.plain .newline ['\r', '\n']).Sound :=
      ⟨by simp, .inr rfl, by simp, List.all_eq_true.1 (by decide)⟩
    simpa using hn
  | carriage => simp [Lexeme.Sound]
  | duration d =>
    have hd : (Lexeme.plain .duration [d.char]).Sound :=
      sound_plain_of_letters (by simp) ⟨d, rfl⟩ (by cases d <;> decide)
    simpa using hd
  | altered hc a => simpa using ⟨sound_noteLetter hc, sound_accidental a⟩
  | letter hc => simpa using sound_noteLetter hc
  | @word c run _ h =>
    have hw : (Lexeme.plain (classifyWord (c :: run)) (c :: run)).Sound :=
      ⟨classifyWord_ne_eof _, admits_classifyWord (by simp) h, by simp,
        fun d hd => isNotationChar_of_isAlpha (h d hd)⟩
    simpa using hw
  | @number c run _ h =>
    have hn : (Lexeme.plain .number (c :: run)).Sound :=
      ⟨by simp, ⟨by simp, h⟩, by simp, fun d hd => isNotationChar_of_isDigit (h d hd)⟩
    simpa using hn
  | stray h => simpa [Lexeme.Sound] using h

end Scans

/-- Every piece of a text is sound. -/
theorem sound_of_mem_lexemes {cs : List Char} {x : Lexeme} (h : x ∈ lexemes cs) : x.Sound := by
  fun_induction lexemes cs with
  | case1 => simp at h
  | case2 c rest ih =>
    rcases List.mem_append.1 h with h | h
    · exact (scans_scan c rest).sound x h
    · exact ih h

theorem split_singleton {x y : Lexeme} {us vs : List Lexeme} (h : [y] = us ++ x :: vs) :
    us = [] ∧ x = y ∧ vs = [] := by
  cases us with
  | nil => simpa [eq_comm] using h
  | cons u us => simp at h

theorem split_pair {x y z : Lexeme} {us vs : List Lexeme} (h : [y, z] = us ++ x :: vs) :
    us = [] ∧ x = y ∧ vs = [z] ∨ us = [y] ∧ x = z ∧ vs = [] := by
  cases us with
  | nil => exact .inl (by simpa [eq_comm] using h)
  | cons u us =>
    obtain ⟨rfl, hrest⟩ := List.cons.inj h
    obtain ⟨rfl, hx, hvs⟩ := split_singleton hrest
    exact .inr ⟨rfl, hx, hvs⟩

/-- A piece of a text comes from a scan, which may have cut off pieces before and behind it. -/
theorem exists_scans_of_lexemes {cs : List Char} {xs ys : List Lexeme} {x : Lexeme}
    (h : lexemes cs = xs ++ x :: ys) :
    ∃ c rest us vs after, Scans c rest (us ++ x :: vs) after ∧ us <:+ xs ∧
      ys = vs ++ lexemes after := by
  fun_induction lexemes cs generalizing xs with
  | case1 => simp at h
  | case2 c rest ih =>
    rcases List.append_eq_append_iff.1 h with ⟨zs, rfl, hrest⟩ | ⟨zs, hscan, hrest⟩
    · obtain ⟨d, more, us, vs, after, hscans, hus, hys⟩ := ih hrest
      exact ⟨d, more, us, vs, after, hscans, hus.trans (List.suffix_append _ _), hys⟩
    · cases zs with
      | nil =>
        have hnext : lexemes _ = [] ++ x :: ys := hrest.symm
        obtain ⟨d, more, us, vs, after, hscans, hus, hys⟩ := ih hnext
        exact ⟨d, more, us, vs, after, hscans, hus.trans (List.nil_suffix), hys⟩
      | cons z zs =>
        obtain ⟨rfl, rfl⟩ := List.cons.inj hrest
        exact ⟨c, rest, xs, zs, _, hscan ▸ scans_scan c rest, List.suffix_refl _, rfl⟩

theorem source_ne_nil {x : Lexeme} (h : x.Sound) : x.source ≠ [] := by
  cases x with
  | token kind source text => exact h.2.2.1
  | stray c => simp [Lexeme.source]
  | carriage => simp [Lexeme.source]

/-- A text has no stray characters exactly when all its characters belong to the notation. -/
theorem noStray_iff (cs : List Char) :
    (∀ c, Lexeme.stray c ∉ lexemes cs) ↔ ∀ c ∈ cs, isNotationChar c = true := by
  constructor
  · intro h c hc
    rw [← flatMap_source_lexemes cs, List.mem_flatMap] at hc
    obtain ⟨x, hx, hcx⟩ := hc
    have hsound := sound_of_mem_lexemes hx
    cases x with
    | token kind source text => exact hsound.2.2.2 c hcx
    | stray d => exact absurd hx (h d)
    | carriage =>
      have : c = '\r' := by simpa [Lexeme.source] using hcx
      rw [this]
      decide
  · intro h c hc
    have hmem : c ∈ cs := by
      rw [← flatMap_source_lexemes cs, List.mem_flatMap]
      exact ⟨.stray c, hc, by simp [Lexeme.source]⟩
    have hno : isNotationChar c = false := sound_of_mem_lexemes hc
    rw [h c hmem] at hno
    cases hno

end ScoreText
