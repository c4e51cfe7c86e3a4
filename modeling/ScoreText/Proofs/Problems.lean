import ScoreText.Proofs.Run

/-!
What a reading complains about. Each problem has its place in the grammar: `Complaint` lists, for
tokens from a lexer, which tokens lead to which diagnostic and which token shows it. Every
diagnostic of a step is such a complaint about the tokens ahead (`blames_step`), and so is every
diagnostic of a run (`complaint_of_mem_events`).
-/

namespace ScoreText

/-! ## Conversions of token texts

Nothing that a lexer writes into a token fails to be converted by the reader of its kind. -/

namespace Token

variable {t : Token}

theorem duration_of_lexical (hk : t.kind = .duration) (h : t.Lexical) :
    ∃ d, Duration.ofCode? t.text = some d := by
  rw [Lexical, hk] at h
  obtain ⟨d, ht⟩ := h
  refine ⟨d, ?_⟩
  rw [Duration.ofCode?, onlyChar?_eq_some_iff.2 ht]
  exact Duration.ofChar?_eq_some_iff.2 rfl

theorem accidental_of_lexical (hk : t.kind = .accidental) (h : t.Lexical) :
    ∃ a, (onlyChar? t.text).bind Accidental.ofChar? = some a := by
  rw [Lexical, hk] at h
  obtain ⟨a, ht⟩ := h
  refine ⟨a, ?_⟩
  rw [onlyChar?_eq_some_iff.2 ht]
  exact Accidental.ofChar?_eq_some_iff.2 rfl

theorem clefType_of_lexical (hk : t.kind = .clef) (h : t.Lexical) :
    ∃ type, ClefType.ofName? (String.ofList (Text.lower t.text.toList)) = some type := by
  rw [Lexical, hk] at h
  obtain ⟨hletters, type, hname⟩ := h
  refine ⟨type, ClefType.ofName?_eq_some_iff.2 ?_⟩
  rw [Text.lower_of_isAlpha hletters, hname, String.ofList_toList]

/-- The name of a note is one letter, though not always that of a note. -/
theorem noteName_of_lexical (hk : t.kind = .note) (h : t.Lexical) :
    ∃ c : Char, Text.upper t.text.toList = [c] := by
  rw [Lexical, hk] at h
  obtain ⟨c, ht, hc⟩ := h
  exact ⟨c.toUpper, by rw [ht, Text.upper_of_isAlpha hc]⟩

theorem octave_of_lexical (hk : t.kind = .number) (hone : ¬ 1 < t.text.length) (h : t.Lexical) :
    ∃ n, Text.integer? t.text = some n ∧ n ≤ maxOctave ∧ t.octave? = some n.toNat := by
  have hshort : t.text.toList.length ≤ Text.maxDigits := by
    rw [String.length_toList]
    exact Nat.le_trans (Nat.le_of_not_lt hone) (by decide)
  have hint := Cursor.integer?_of_lexical hk h
  rw [if_pos hshort] at hint
  have hoctave := Cursor.octave?_of_lexical hk hone hint h
  refine ⟨_, hint, ?_, hoctave⟩
  obtain ⟨-, c, ht, hdigit, -⟩ := octave?_eq_some_iff.1 hoctave
  have hrange := (Text.isDigit_iff_toNat c).1 hdigit
  rw [ht, Text.decimal_singleton, maxOctave]
  omega

/-- A run of digits that is too long is no number. -/
theorem integer_of_overlong (hk : t.kind = .number) (hlong : Text.maxDigits < t.text.length)
    (h : t.Lexical) : Text.integer? t.text = none := by
  have hint := Cursor.integer?_of_lexical hk h
  rwa [String.length_toList, if_neg (by omega)] at hint

end Token

/-! ## Complaints -/

/-- The beginning of a note up to its octave; the flag tells whether it has an accidental. -/
inductive NoteHead : List Token → Bool → Prop
  | plain {name : Token} {letter : NoteLetter} :
      name.letter? = some letter → NoteHead [name] false
  | altered {name sign : Token} {letter : NoteLetter} {a : Accidental} :
      name.letter? = some letter → sign.accidental? = some a → NoteHead [name, sign] true

/-- `Complaint tokens d`: no phrase stands at the start of the tokens, and `d` says why. -/
inductive Complaint : List Token → Diagnostic → Prop
  | word {t : Token} {rest : List Token} :
      t.kind = .identifier → t.opensItem = false →
      Complaint (t :: rest) (.atToken (.unknownIdentifier t.text) t)
  | misplaced {t : Token} {rest : List Token} :
      t.kind.isInner = true → Complaint (t :: rest) (.atToken (.unexpectedToken t.kind) t)
  | letter {t : Token} {rest : List Token} :
      t.kind = .note → t.letter? = none →
      Complaint (t :: rest)
        (.atToken (.invalidNoteName (String.ofList (Text.upper t.text.toList))) t)
  | noOctave {head : List Token} {altered : Bool} {t : Token} {rest : List Token} :
      NoteHead head altered → (altered = false → t.kind ≠ .accidental) → t.kind ≠ .number →
      Complaint (head ++ t :: rest) (.atToken (.missingOctave altered) t)
  | octave {head : List Token} {altered : Bool} {t : Token} {rest : List Token} :
      NoteHead head altered → t.kind = .number → t.octave? = none →
      Complaint (head ++ t :: rest) (.atToken (.invalidOctave t.text) t)
  | noteDuration {head : List Token} {altered : Bool} {octave t : Token} {o : Nat}
      {rest : List Token} :
      NoteHead head altered → octave.octave? = some o → t.kind ≠ .duration →
      Complaint (head ++ octave :: t :: rest) (.atToken .missingNoteDuration t)
  | restDuration {sign t : Token} {rest : List Token} :
      sign.kind = .rest → t.kind ≠ .duration →
      Complaint (sign :: t :: rest) (.atToken .missingRestDuration t)
  | clefColon {keyword t : Token} {rest : List Token} :
      keyword.isKeyword "clef" = true → t.kind ≠ .colon →
      Complaint (keyword :: t :: rest) (.atToken .missingClefColon t)
  | clefType {keyword colon t : Token} {rest : List Token} :
      keyword.isKeyword "clef" = true → colon.kind = .colon → t.kind ≠ .clef →
      Complaint (keyword :: colon :: t :: rest) (.atToken .missingClefType t)
  | timeColon {keyword t : Token} {rest : List Token} :
      keyword.isKeyword "time" = true → t.kind ≠ .colon →
      Complaint (keyword :: t :: rest) (.atToken .missingTimeColon t)
  | numerator {keyword colon t : Token} {rest : List Token} :
      keyword.isKeyword "time" = true → colon.kind = .colon → t.kind ≠ .number →
      Complaint (keyword :: colon :: t :: rest) (.atToken .missingNumerator t)
  | slash {keyword colon above t : Token} {rest : List Token} :
      keyword.isKeyword "time" = true → colon.kind = .colon → above.kind = .number →
      t.kind ≠ .slash →
      Complaint (keyword :: colon :: above :: t :: rest) (.atToken .missingSlash t)
  | denominator {keyword colon above slash t : Token} {rest : List Token} :
      keyword.isKeyword "time" = true → colon.kind = .colon → above.kind = .number →
      slash.kind = .slash → t.kind ≠ .number →
      Complaint (keyword :: colon :: above :: slash :: t :: rest)
        (.atToken .missingDenominator t)
  | timeSignature {keyword colon above slash below : Token} {rest : List Token} :
      keyword.isKeyword "time" = true → colon.kind = .colon → above.kind = .number →
      slash.kind = .slash → below.kind = .number →
      Cursor.timeSignature? above.text below.text keyword.position = none →
      Complaint (keyword :: colon :: above :: slash :: below :: rest)
        (.atToken (.invalidTimeSignature above.text below.text) keyword)

namespace Cursor

/-! ## Attempts at an item -/

/-- If an attempt ends with a problem, its diagnostic satisfies `Q`. -/
def Blames {α : Type} (Q : Diagnostic → Prop) : Except Halt α → Prop
  | .error (.problem d _) => Q d
  | _ => True

section Rules

variable {α : Type} {c : Cursor} {Q : Diagnostic → Prop}

theorem blames_pass {kind : Kind} {missing : Problem} {f : Cursor → Except Halt α}
    (absent : c.current.kind ≠ kind → Q (.atToken missing c.current))
    (present : c.current.kind = kind → Blames Q (f c.advance)) :
    Blames Q (c.pass kind missing >>= f) := by
  unfold pass
  split
  · next hk => exact present hk
  · next hk => exact absent hk

theorem blames_readDuration {missing : Problem} {f : Duration × Cursor → Except Halt α}
    (hlex : c.current.Lexical)
    (absent : c.current.kind ≠ .duration → Q (.atToken missing c.current))
    (present : ∀ d, Blames Q (f (d, c.advance))) :
    Blames Q (c.readDuration missing >>= f) := by
  unfold readDuration
  dsimp only
  split
  · next hk =>
    obtain ⟨d, hd⟩ := Token.duration_of_lexical hk hlex
    rw [hd]
    exact present d
  · next hk => exact absent hk

theorem blames_readAccidental {f : Option Accidental × Cursor → Except Halt α}
    (absent : c.current.kind ≠ .accidental → Blames Q (f (none, c)))
    (present : ∀ a, c.current.accidental? = some a → Blames Q (f (some a, c.advance))) :
    Blames Q (c.readAccidental >>= f) := by
  unfold readAccidental
  dsimp only
  split
  · next hk =>
    split
    · next a ha =>
      refine present a ?_
      rw [Token.accidental?, if_pos hk]
      exact ha
    · trivial
  · next hk => exact absent hk

theorem blames_readOctave {afterAccidental : Bool} {f : Nat × Cursor → Except Halt α}
    (hlex : c.current.Lexical)
    (absent : c.current.kind ≠ .number →
      Q (.atToken (.missingOctave afterAccidental) c.current))
    (invalid : c.current.kind = .number → c.current.octave? = none →
      Q (.atToken (.invalidOctave c.current.text) c.current))
    (present : ∀ n, c.current.octave? = some n → Blames Q (f (n, c.advance))) :
    Blames Q (c.readOctave afterAccidental >>= f) := by
  unfold readOctave
  dsimp only
  split
  · next hk =>
    split
    · next hlong =>
      refine invalid hk (Option.eq_none_iff_forall_ne_some.2 fun n hn => ?_)
      obtain ⟨-, d, ht, -⟩ := Token.octave?_eq_some_iff.1 hn
      rw [← String.length_toList, ht] at hlong
      simp at hlong
    · next hone =>
      obtain ⟨n, hn, hle, hoctave⟩ := Token.octave_of_lexical hk hone hlex
      rw [hn]
      dsimp only
      rw [if_neg (by omega)]
      exact present _ hoctave
  · next hk => exact absent hk

end Rules

private theorem blames_fromOctave {s c : Cursor} {head : List Token} {altered : Bool}
    (ha : Along s head c) (hhead : NoteHead head altered)
    (hsign : altered = false → c.current.kind ≠ .accidental) (hlex : ∀ t ∈ s.ahead, t.Lexical)
    (note : Nat → Duration → Element) :
    Blames (Complaint s.ahead) (do
      let octave ← c.readOctave altered
      let duration ← octave.2.readDuration .missingNoteDuration
      return (note octave.1 duration.1, duration.2)) := by
  refine blames_readOctave (hlex _ ha.current_mem) (fun hk => ?_) (fun hk hnone => ?_)
    fun o ho => ?_
  · rw [ha.ahead]
    exact .noOctave hhead hsign hk
  · rw [ha.ahead]
    exact .octave hhead hk hnone
  · have hoctave := (Token.octave?_eq_some_iff.1 ho).1
    have hnext := ha.advance (by rw [hoctave]; rfl)
    refine blames_readDuration (hlex _ hnext.current_mem) (fun hk => ?_) fun d => trivial
    rw [hnext.ahead, List.append_assoc]
    exact .noteDuration hhead ho hk

variable {c : Cursor}

theorem blames_readNote (h : c.HasEnd) (hlex : ∀ t ∈ c.ahead, t.Lexical)
    (hk : c.current.kind = .note) : Blames (Complaint c.ahead) c.readNote := by
  have hfirst := Along.first h (by rw [hk]; simp)
  unfold readNote
  dsimp only
  split
  · next hnone =>
    refine .letter hk ?_
    rw [Token.letter?, if_pos hk]
    exact hnone
  · next letter hl =>
    have hletter : c.current.letter? = some letter := by
      rw [Token.letter?, if_pos hk]
      exact hl
    refine blames_readAccidental (fun hsign => ?_) fun a hsign => ?_
    · exact blames_fromOctave hfirst (.plain hletter) (fun _ => hsign) hlex
        fun o d => .note ⟨letter, o, none⟩ d c.current.position
    · have hkind := (Token.accidental?_eq_some_iff.1 hsign).1
      have hnext := hfirst.advance (by rw [hkind]; rfl)
      exact blames_fromOctave hnext (.altered hletter hsign) (fun he => by cases he) hlex
        fun o d => .note ⟨letter, o, some a⟩ d c.current.position

theorem blames_readRest (h : c.HasEnd) (hlex : ∀ t ∈ c.ahead, t.Lexical)
    (hk : c.current.kind = .rest) : Blames (Complaint c.ahead) c.readRest := by
  have hfirst := Along.first h (by rw [hk]; simp)
  unfold readRest
  refine blames_readDuration (hlex _ hfirst.current_mem) (fun hcode => ?_) fun d => trivial
  rw [hfirst.ahead]
  exact .restDuration hk hcode

theorem blames_readClef (h : c.HasEnd) (hlex : ∀ t ∈ c.ahead, t.Lexical)
    (hk : c.current.isKeyword "clef" = true) : Blames (Complaint c.ahead) c.readClef := by
  have hfirst := Along.first h (by rw [(Token.isKeyword_iff.1 hk).1]; simp)
  unfold readClef
  refine blames_pass (fun hcolon => ?_) fun hcolon => ?_
  · rw [hfirst.ahead]
    exact .clefColon hk hcolon
  · have hname := hfirst.advance (by rw [hcolon]; rfl)
    dsimp only
    split
    · next hkind =>
      obtain ⟨type, ht⟩ := Token.clefType_of_lexical hkind (hlex _ hname.current_mem)
      rw [ht]
      trivial
    · next hkind =>
      rw [hname.ahead]
      exact .clefType hk hcolon hkind

theorem blames_readTime (h : c.HasEnd) (hk : c.current.isKeyword "time" = true) :
    Blames (Complaint c.ahead) c.readTime := by
  have hfirst := Along.first h (by rw [(Token.isKeyword_iff.1 hk).1]; simp)
  unfold readTime
  dsimp only
  refine blames_pass (fun hcolon => ?_) fun hcolon => ?_
  · rw [hfirst.ahead]
    exact .timeColon hk hcolon
  have habove := hfirst.advance (by rw [hcolon]; rfl)
  refine blames_pass (fun hn => ?_) fun hn => ?_
  · rw [habove.ahead]
    exact .numerator hk hcolon hn
  have hslash := habove.advance (by rw [hn]; rfl)
  refine blames_pass (fun hs => ?_) fun hs => ?_
  · rw [hslash.ahead]
    exact .slash hk hcolon hn hs
  have hbelow := hslash.advance (by rw [hs]; rfl)
  refine blames_pass (fun hd => ?_) fun hd => ?_
  · rw [hbelow.ahead]
    exact .denominator hk hcolon hn hs hd
  split
  · trivial
  · next hnone =>
    rw [hbelow.ahead]
    exact .timeSignature hk hcolon hn hs hd hnone

/-! ## Steps and runs -/

def StepBlames (Q : Diagnostic → Prop) : Step → Prop
  | .stray d _ | .failed d _ => Q d
  | _ => True

private theorem Blames.step {α : Type} {Q : Diagnostic → Prop} {x : Except Halt (α × Cursor)}
    (h : Blames Q x) (toItem : α → Item) : StepBlames Q (Step.ofAttempt toItem x) := by
  unfold Step.ofAttempt
  split
  · trivial
  · exact h
  · trivial

/-- A kind that lexers give to tokens with a meaning, and at which nothing starts. -/
private theorem isInner_of_other {t : Token} (hlex : t.Lexical) (htrivia : t.kind.isTrivia = false)
    (hend : t.kind ≠ .eof) (hstart : t.kind.startsElement = false) (hpipe : t.kind ≠ .pipe) :
    t.kind.isInner = true := by
  rw [Token.Lexical] at hlex
  cases hk : t.kind <;>
    simp [hk, Kind.isTrivia, Kind.startsElement, Kind.isInner, Kind.Admits] at *

/-- Every problem of a step is a complaint about the tokens ahead. -/
theorem blames_step (h : c.HasEnd) (hk : c.current.kind ≠ .eof)
    (htokens : ∀ t ∈ c.ahead, t.Lexical ∧ t.kind.isTrivia = false) :
    StepBlames (Complaint c.ahead) c.step := by
  have hlex : ∀ t ∈ c.ahead, t.Lexical := fun t ht => (htokens t ht).1
  obtain ⟨hcurrent, htrivia⟩ := htokens c.current List.mem_cons_self
  unfold step
  split
  · next hkind =>
    unfold stepIdentifier
    dsimp only
    split
    · next hword => exact (blames_readClef h hlex (Token.isKeyword_iff.2 ⟨hkind, hword⟩)).step _
    · next hclef =>
      split
      · next hword => exact (blames_readTime h (Token.isKeyword_iff.2 ⟨hkind, hword⟩)).step _
      · next htime =>
        refine .word hkind ?_
        simp [Token.opensItem, Token.isKeyword, hkind, hclef, htime]
  · next hkind => exact (blames_readNote h hlex hkind).step _
  · next hkind => exact (blames_readRest h hlex hkind).step _
  · trivial
  · next hident hnote hrest hpipe =>
    have hstart : c.current.kind.startsElement = false := by
      cases hkind : c.current.kind <;> simp_all [Kind.startsElement]
    exact .misplaced (isInner_of_other hcurrent htrivia hk hstart hpipe)

/-- Every diagnostic of a run is a complaint about the tokens from some place on. -/
theorem complaint_of_mem_events {limit : Nat} (h : c.HasEnd)
    (htokens : ∀ t ∈ c.ahead, t.Lexical ∧ t.kind.isTrivia = false) {d : Diagnostic}
    (hd : d ∈ (c.events limit).filterMap Event.diagnostic?) :
    ∃ tokens, tokens <:+ c.ahead ∧ Complaint tokens d := by
  induction limit, c, h using events_induction with
  | stop c h => simp [events_zero] at hd
  | atEnd limit c h hk => simp [events_of_eof limit hk] at hd
  | item limit c h run i next ha hp hs he ih =>
    rw [he] at hd
    obtain ⟨tokens, hsuffix, hc⟩ := ih (fun t ht => htokens t (ha.suffix.subset ht)) hd
    exact ⟨tokens, hsuffix.trans ha.suffix, hc⟩
  | stray limit c h e next ha ho hpipe hs he ih =>
    have hblame := blames_step h (kind_ne_eof_of_events he) htokens
    rw [hs] at hblame
    rw [he] at hd
    rcases List.mem_cons.1 hd with rfl | hd
    · exact ⟨c.ahead, List.suffix_rfl, hblame⟩
    · obtain ⟨tokens, hsuffix, hc⟩ := ih (fun t ht => htokens t (ha.suffix.subset ht)) hd
      exact ⟨tokens, hsuffix.trans ha.suffix, hc⟩
  | failed limit c h run e next ha ho hs he ih =>
    have hblame := blames_step h (kind_ne_eof_of_events he) htokens
    rw [hs] at hblame
    rw [he] at hd
    have hrecover : next.recover.ahead <:+ c.ahead := (suffix_recover next).trans ha.suffix
    rcases List.mem_cons.1 hd with rfl | hd
    · exact ⟨c.ahead, List.suffix_rfl, hblame⟩
    · obtain ⟨tokens, hsuffix, hc⟩ := ih (fun t ht => htokens t (hrecover.subset ht)) hd
      exact ⟨tokens, hsuffix.trans hrecover, hc⟩
  | broken limit c h f t ht hnot hs he => exact absurd (htokens t ht).1 hnot

end Cursor

end ScoreText
