import ScoreText.Proofs.Anchors
import ScoreText.Proofs.Coherence

/-!
How far a reading looks ahead. A step that fails has read some tokens and looked at one more at
most; whatever stands behind these, it fails in the same way (`Cursor.exists_failsOver`). So two
readings that have the same tokens ahead up to some place fail in the same way before they come to
that place (`Cursor.failed_of_shared`), and go on at the same token (`Cursor.recover_of_shared`).
-/

namespace ScoreText

namespace Cursor

/-! ## Failing steps -/

/-- A step over the tokens of `run` fails with `d`, if those of `seen` stand behind them; whatever
comes then, the cursor is left behind `run`. -/
def FailsOver (run seen : List Token) (d : Diagnostic) : Prop :=
  ∀ (c : Cursor) (rest : List Token), c.ahead = run ++ (seen ++ rest) → seen ++ rest ≠ [] →
    ∃ next, c.step = .failed d next ∧ next.ahead = seen ++ rest

section Readers

variable {c : Cursor}

private theorem pass_of_ne {kind : Kind} {missing : Problem} (h : c.current.kind ≠ kind) :
    c.pass kind missing = .error (c.refuse missing) := if_neg h

private theorem readDuration_of_ne {missing : Problem} (h : c.current.kind ≠ .duration) :
    c.readDuration missing = .error (c.refuse missing) := if_neg h

private theorem readOctave_of_ne {altered : Bool} (h : c.current.kind ≠ .number) :
    c.readOctave altered = .error (c.refuse (.missingOctave altered)) := if_neg h

/-- A note is read from its octave on once its head has been read. -/
private theorem readNote_of_head {head rest : List Token} {t : Token} {altered : Bool}
    (hc : c.ahead = head ++ t :: rest) (hhead : NoteHead head altered)
    (hsign : altered = false → t.kind ≠ .accidental) :
    ∃ (note : Nat → Duration → Element) (atOctave : Cursor), atOctave.ahead = t :: rest ∧
      c.current.kind = .note ∧
      c.readNote = (do
        let octave ← atOctave.readOctave altered
        let duration ← octave.2.readDuration .missingNoteDuration
        return (note octave.1 duration.1, duration.2)) := by
  cases hhead with
  | @plain name letter hl =>
    have h₁ := ahead_advance hc
    rw [← current_of_ahead hc] at hl
    have hkind := (Token.letter?_eq_some_iff.1 hl).1
    rw [Token.letter?, if_pos hkind] at hl
    have hnone : c.advance.readAccidental = .ok (none, c.advance) := by
      simp [readAccidental, current_of_ahead h₁, hsign rfl]
    refine ⟨fun o d => .note ⟨letter, o, none⟩ d c.current.position, c.advance, h₁, hkind, ?_⟩
    simp [readNote, hl, hnone, bind, Except.bind]
  | @altered name sign letter a hl ha =>
    have h₁ := ahead_advance hc
    have h₂ := ahead_advance h₁
    rw [← current_of_ahead hc] at hl
    rw [← current_of_ahead h₁] at ha
    have hkind := (Token.letter?_eq_some_iff.1 hl).1
    rw [Token.letter?, if_pos hkind] at hl
    refine ⟨fun o d => .note ⟨letter, o, some a⟩ d c.current.position, c.advance.advance, h₂,
      hkind, ?_⟩
    simp [readNote, hl, readAccidental_of ha, bind, Except.bind]

end Readers

section Failures

variable {head : List Token} {altered : Bool} {t : Token}

private theorem failsOver_letter (hk : t.kind = .note) (hl : t.letter? = none) :
    FailsOver [t] []
      (.atToken (.invalidNoteName (String.ofList (Text.upper t.text.toList))) t) := by
  intro c rest hc hne
  rw [Token.letter?, if_pos hk] at hl
  refine ⟨c.advance, ?_, ahead_advance_of_ne hc hne⟩
  rw [← current_of_ahead hc] at hk hl ⊢
  simp [step, hk, readNote, hl, Step.ofAttempt]

private theorem failsOver_noOctave (hhead : NoteHead head altered)
    (hsign : altered = false → t.kind ≠ .accidental) (hk : t.kind ≠ .number) :
    FailsOver head [t] (.atToken (.missingOctave altered) t) := by
  intro c rest hc _
  obtain ⟨note, atOctave, hahead, hnote, hread⟩ := readNote_of_head hc hhead hsign
  refine ⟨atOctave, ?_, hahead⟩
  rw [← current_of_ahead hahead] at hk ⊢
  simp [step, hnote, hread, readOctave_of_ne hk, refuse, bind, Except.bind, Step.ofAttempt]

private theorem failsOver_octave (hhead : NoteHead head altered) (hk : t.kind = .number)
    (hlong : 1 < t.text.length) :
    FailsOver (head ++ [t]) [] (.atToken (.invalidOctave t.text) t) := by
  intro c rest hc hne
  rw [List.append_assoc] at hc
  obtain ⟨next, hstep, hnext⟩ := step_of_longOctave hc hhead hk hlong
  exact ⟨next, hstep, hnext hne⟩

private theorem failsOver_noteDuration (hhead : NoteHead head altered) {octave : Token} {o : Nat}
    (ho : octave.octave? = some o) (hk : t.kind ≠ .duration) :
    FailsOver (head ++ [octave]) [t] (.atToken .missingNoteDuration t) := by
  intro c rest hc _
  have hnumber := (Token.octave?_eq_some_iff.1 ho).1
  rw [List.append_assoc] at hc
  obtain ⟨note, atOctave, hahead, hnote, hread⟩ := readNote_of_head hc hhead (by simp [hnumber])
  have hnext := ahead_advance hahead
  refine ⟨atOctave.advance, ?_, hnext⟩
  rw [← current_of_ahead hahead] at ho
  rw [← current_of_ahead hnext] at hk ⊢
  simp [step, hnote, hread, readOctave_of ho, readDuration_of_ne hk, refuse, bind, Except.bind,
    Step.ofAttempt]

private theorem failsOver_restDuration {sign : Token} (hr : sign.kind = .rest)
    (hk : t.kind ≠ .duration) : FailsOver [sign] [t] (.atToken .missingRestDuration t) := by
  intro c rest hc _
  have h₁ := ahead_advance hc
  refine ⟨c.advance, ?_, h₁⟩
  rw [← current_of_ahead hc] at hr
  rw [← current_of_ahead h₁] at hk ⊢
  simp [step, hr, readRest, readDuration_of_ne hk, refuse, bind, Except.bind, Step.ofAttempt]

private theorem failsOver_clefColon {keyword : Token} (hkey : keyword.isKeyword "clef" = true)
    (hk : t.kind ≠ .colon) : FailsOver [keyword] [t] (.atToken .missingClefColon t) := by
  intro c rest hc _
  have h₁ := ahead_advance hc
  refine ⟨c.advance, ?_, h₁⟩
  rw [← current_of_ahead hc, Token.isKeyword_iff] at hkey
  rw [← current_of_ahead h₁] at hk ⊢
  simp [step, stepIdentifier, hkey.1, hkey.2, readClef, pass_of_ne hk, refuse, bind, Except.bind,
    Step.ofAttempt]

private theorem failsOver_clefType {keyword colon : Token}
    (hkey : keyword.isKeyword "clef" = true) (hcolon : colon.kind = .colon)
    (hk : t.kind ≠ .clef) : FailsOver [keyword, colon] [t] (.atToken .missingClefType t) := by
  intro c rest hc _
  have h₁ := ahead_advance hc
  have h₂ := ahead_advance h₁
  refine ⟨c.advance.advance, ?_, h₂⟩
  rw [← current_of_ahead hc, Token.isKeyword_iff] at hkey
  rw [← current_of_ahead h₁] at hcolon
  rw [← current_of_ahead h₂] at hk ⊢
  simp [step, stepIdentifier, hkey.1, hkey.2, readClef, pass_of hcolon, hk, refuse, bind,
    Except.bind, throw, throwThe, MonadExceptOf.throw, Step.ofAttempt]

section Time

variable {keyword colon above slash : Token}

private theorem failsOver_timeColon (hkey : keyword.isKeyword "time" = true)
    (hk : t.kind ≠ .colon) : FailsOver [keyword] [t] (.atToken .missingTimeColon t) := by
  intro c rest hc _
  have h₁ := ahead_advance hc
  refine ⟨c.advance, ?_, h₁⟩
  rw [← current_of_ahead hc, Token.isKeyword_iff] at hkey
  rw [← current_of_ahead h₁] at hk ⊢
  simp [step, stepIdentifier, hkey.1, hkey.2, readTime, pass_of_ne hk, refuse, bind, Except.bind,
    Step.ofAttempt]

private theorem failsOver_numerator (hkey : keyword.isKeyword "time" = true)
    (hcolon : colon.kind = .colon) (hk : t.kind ≠ .number) :
    FailsOver [keyword, colon] [t] (.atToken .missingNumerator t) := by
  intro c rest hc _
  have h₁ := ahead_advance hc
  have h₂ := ahead_advance h₁
  refine ⟨c.advance.advance, ?_, h₂⟩
  rw [← current_of_ahead hc, Token.isKeyword_iff] at hkey
  rw [← current_of_ahead h₁] at hcolon
  rw [← current_of_ahead h₂] at hk ⊢
  simp [step, stepIdentifier, hkey.1, hkey.2, readTime, pass_of hcolon, pass_of_ne hk, refuse, bind,
    Except.bind, Step.ofAttempt]

private theorem failsOver_slash (hkey : keyword.isKeyword "time" = true)
    (hcolon : colon.kind = .colon) (habove : above.kind = .number) (hk : t.kind ≠ .slash) :
    FailsOver [keyword, colon, above] [t] (.atToken .missingSlash t) := by
  intro c rest hc _
  have h₁ := ahead_advance hc
  have h₂ := ahead_advance h₁
  have h₃ := ahead_advance h₂
  refine ⟨c.advance.advance.advance, ?_, h₃⟩
  rw [← current_of_ahead hc, Token.isKeyword_iff] at hkey
  rw [← current_of_ahead h₁] at hcolon
  rw [← current_of_ahead h₂] at habove
  rw [← current_of_ahead h₃] at hk ⊢
  simp [step, stepIdentifier, hkey.1, hkey.2, readTime, pass_of hcolon, pass_of habove,
    pass_of_ne hk, refuse, bind, Except.bind, Step.ofAttempt]

private theorem failsOver_denominator (hkey : keyword.isKeyword "time" = true)
    (hcolon : colon.kind = .colon) (habove : above.kind = .number) (hslash : slash.kind = .slash)
    (hk : t.kind ≠ .number) :
    FailsOver [keyword, colon, above, slash] [t] (.atToken .missingDenominator t) := by
  intro c rest hc _
  have h₁ := ahead_advance hc
  have h₂ := ahead_advance h₁
  have h₃ := ahead_advance h₂
  have h₄ := ahead_advance h₃
  refine ⟨c.advance.advance.advance.advance, ?_, h₄⟩
  rw [← current_of_ahead hc, Token.isKeyword_iff] at hkey
  rw [← current_of_ahead h₁] at hcolon
  rw [← current_of_ahead h₂] at habove
  rw [← current_of_ahead h₃] at hslash
  rw [← current_of_ahead h₄] at hk ⊢
  simp [step, stepIdentifier, hkey.1, hkey.2, readTime, pass_of hcolon, pass_of habove,
    pass_of hslash, pass_of_ne hk, refuse, bind, Except.bind, Step.ofAttempt]

end Time

end Failures

/-- Where an end token stands ahead, it does not stand among tokens of other kinds. -/
private theorem ne_nil_of_eof (run : List Token) {rest : List Token}
    (hend : ∃ u ∈ run ++ rest, u.kind = .eof) (hrun : ∀ u ∈ run, u.kind ≠ .eof) : rest ≠ [] := by
  rintro rfl
  obtain ⟨u, hu, hk⟩ := hend
  exact hrun u (by simpa using hu) hk

private theorem kind_ne_eof_of_noteHead {head : List Token} {altered : Bool}
    (h : NoteHead head altered) : ∀ u ∈ head, u.kind ≠ .eof := by
  cases h with
  | plain hl => simp [(Token.letter?_eq_some_iff.1 hl).1]
  | altered hl ha =>
    simp [(Token.letter?_eq_some_iff.1 hl).1, (Token.accidental?_eq_some_iff.1 ha).1]

/-- **A complaint is made wherever there is reason for it.** It depends on the tokens that the
attempt reads and on one more at most. -/
theorem exists_failsOver {tokens : List Token} {d : Diagnostic} (h : Complaint tokens d)
    (hlex : ∀ u ∈ tokens, u.Lexical) (hend : ∃ u ∈ tokens, u.kind = .eof)
    (hopen : ∀ u ∈ tokens.head?, u.opensItem = true) :
    ∃ run seen rest, tokens = run ++ (seen ++ rest) ∧ seen.length ≤ 1 ∧ seen ++ rest ≠ [] ∧
      FailsOver run seen d := by
  cases h with
  | @word t rest _ hno =>
    rw [hopen t rfl] at hno
    cases hno
  | @misplaced t rest hinner =>
    have hstart := startsElement_of_opensItem (hopen t rfl)
    rw [(startsElement_of_isInner hinner).1] at hstart
    cases hstart
  | @letter t rest hk hl =>
    have hne : rest ≠ [] := ne_nil_of_eof [t] hend (by simp [hk])
    exact ⟨[t], [], rest, rfl, by simp, hne, failsOver_letter hk hl⟩
  | @noOctave head altered t rest hhead hsign hk =>
    exact ⟨head, [t], rest, rfl, by simp, by simp, failsOver_noOctave hhead hsign hk⟩
  | @octave head altered t rest hhead hk hnone =>
    have hlong : 1 < t.text.length := by
      refine Decidable.byContradiction fun hone => ?_
      obtain ⟨n, -, -, ho⟩ := Token.octave_of_lexical hk hone (hlex t (by simp))
      rw [hnone] at ho
      cases ho
    have hsplit : head ++ t :: rest = (head ++ [t]) ++ rest := by simp
    rw [hsplit] at hend ⊢
    have hne := ne_nil_of_eof _ hend
      (List.forall_mem_append.2 ⟨kind_ne_eof_of_noteHead hhead, by simp [hk]⟩)
    exact ⟨head ++ [t], [], rest, rfl, by simp, hne, failsOver_octave hhead hk hlong⟩
  | @noteDuration head altered octave t o rest hhead ho hk =>
    exact ⟨head ++ [octave], [t], rest, by simp, by simp, by simp,
      failsOver_noteDuration hhead ho hk⟩
  | @restDuration sign t rest hr hk =>
    exact ⟨[sign], [t], rest, rfl, by simp, by simp, failsOver_restDuration hr hk⟩
  | @clefColon keyword t rest hkey hk =>
    exact ⟨[keyword], [t], rest, rfl, by simp, by simp, failsOver_clefColon hkey hk⟩
  | @clefType keyword colon t rest hkey hcolon hk =>
    exact ⟨[keyword, colon], [t], rest, rfl, by simp, by simp, failsOver_clefType hkey hcolon hk⟩
  | @timeColon keyword t rest hkey hk =>
    exact ⟨[keyword], [t], rest, rfl, by simp, by simp, failsOver_timeColon hkey hk⟩
  | @numerator keyword colon t rest hkey hcolon hk =>
    exact ⟨[keyword, colon], [t], rest, rfl, by simp, by simp,
      failsOver_numerator hkey hcolon hk⟩
  | @slash keyword colon above t rest hkey hcolon habove hk =>
    exact ⟨[keyword, colon, above], [t], rest, rfl, by simp, by simp,
      failsOver_slash hkey hcolon habove hk⟩
  | @denominator keyword colon above slash t rest hkey hcolon habove hslash hk =>
    exact ⟨[keyword, colon, above, slash], [t], rest, rfl, by simp, by simp,
      failsOver_denominator hkey hcolon habove hslash hk⟩
  | @timeSignature keyword colon above slash below rest hkey hcolon habove hslash hbelow hnone =>
    have hword := (Token.isKeyword_iff.1 hkey).1
    have hne : rest ≠ [] := ne_nil_of_eof [keyword, colon, above, slash, below] hend
      (by simp [hword, hcolon, habove, hslash, hbelow])
    refine ⟨[keyword, colon, above, slash, below], [], rest, rfl, by simp, hne, ?_⟩
    intro c rest hc hne
    obtain ⟨next, hstep, hnext⟩ :=
      step_of_invalidTime hc hkey hcolon habove hslash hbelow hnone
    exact ⟨next, hstep, hnext hne⟩

/-! ## Readings that share the tokens up to some place -/

/-- A token at which nothing starts is passed over, and nothing else is looked at. -/
theorem step_of_not_opensItem {c : Cursor} (ho : c.current.opensItem = false)
    (hpipe : c.current.kind ≠ .pipe) :
    c.step = c.skip (if c.current.kind = .identifier then .unknownIdentifier c.current.text
      else .unexpectedToken c.current.kind) := by
  simp only [Token.opensItem, Bool.or_eq_false_iff, decide_eq_false_iff_not] at ho
  obtain ⟨⟨⟨hnote, hrest⟩, hclef⟩, htime⟩ := ho
  unfold step
  split
  · next hk =>
    simp only [Token.isKeyword, hk, decide_true, Bool.true_and, beq_eq_false_iff_ne] at hclef htime
    rw [if_pos hk]
    simp [stepIdentifier, hclef, htime]
  · next hk => exact absurd hk hnote
  · next hk => exact absurd hk hrest
  · next hk => exact absurd hk hpipe
  · next hk _ _ _ => rw [if_neg hk]

section Shared

variable {c c' : Cursor} {front rest rest' : List Token} {x t : Token}

private theorem advance_of_shared {u : Token} (hc : c.ahead = u :: front ++ x :: rest) :
    c.current = u ∧ c.advance.ahead = front ++ x :: rest :=
  ⟨current_of_ahead hc, ahead_advance_of_ne hc (by simp)⟩

/-- Skipping ahead stops at the same place, if it stops before the tokens differ. -/
theorem recover_of_shared (hc : c.ahead = front ++ x :: rest)
    (hc' : c'.ahead = front ++ t :: rest') {front₂ : List Token}
    (hstop : c.recover.ahead = front₂ ++ x :: rest) (hne : front₂ ≠ []) :
    c'.recover.ahead = front₂ ++ t :: rest' := by
  induction front generalizing c c' with
  | nil =>
    have hle := (suffix_recover c).length_le
    have hpos := List.length_pos_iff.2 hne
    rw [hstop, hc] at hle
    simp only [List.length_append, List.length_cons, List.length_nil] at hle
    omega
  | cons u front ih =>
    obtain ⟨hu, hnext⟩ := advance_of_shared hc
    obtain ⟨hu', hnext'⟩ := advance_of_shared hc'
    by_cases hend : u.kind = .eof ∨ u.kind.startsElement = true
    · rw [recover_of_stop (by rwa [hu])] at hstop
      rw [recover_of_stop (by rwa [hu']), hc']
      rw [hc] at hstop
      rw [List.append_cancel_right hstop]
    · obtain ⟨heof, hstart⟩ := not_or.1 hend
      rw [Bool.not_eq_true] at hstart
      by_cases hpipe : u.kind = .pipe
      · rw [recover_of_pipe (by rwa [hu]), hnext] at hstop
        rw [recover_of_pipe (by rwa [hu']), hnext', List.append_cancel_right hstop]
      · rw [recover_of_skipped (by rwa [hu]) (by rwa [hu]) (by rwa [hu])] at hstop
        rw [recover_of_skipped (by rwa [hu']) (by rwa [hu']) (by rwa [hu'])]
        exact ih hnext hnext' hstop

/-- A step fails in the same way, if it ends before the tokens differ. -/
theorem failed_of_shared {next : Cursor} {d : Diagnostic} {run : List Token} (h : c.HasEnd)
    (htokens : ∀ u ∈ c.ahead, u.Lexical ∧ u.kind.isTrivia = false)
    (ho : c.current.opensItem = true) (hs : c.step = .failed d next) (ha : Along c run next)
    (hnext : next.ahead = front ++ x :: rest) (hne : front ≠ [])
    (hc' : c'.ahead = run ++ (front ++ t :: rest')) :
    ∃ next', c'.step = .failed d next' ∧ next'.ahead = front ++ t :: rest' := by
  have hblame := blames_step h (fun hk => by simp [Token.opensItem, Token.isKeyword, hk] at ho)
    htokens
  rw [hs] at hblame
  obtain ⟨run₀, seen, rest₀, hsplit, hseen, hbehind, hfails⟩ :=
    exists_failsOver hblame (fun u hu => (htokens u hu).1) h (by simpa [ahead] using ho)
  obtain ⟨next₀, hs₀, hnext₀⟩ := hfails c rest₀ hsplit hbehind
  rw [hs] at hs₀
  cases hs₀
  obtain rfl : run = run₀ := by
    rw [ha.ahead, hnext₀] at hsplit
    exact List.append_cancel_right hsplit
  -- What the step has looked at are tokens before the place where the two lists differ.
  rw [hnext₀] at hnext
  obtain ⟨mid, rfl⟩ : seen <+: front := by
    refine List.prefix_of_prefix_length_le (List.prefix_append seen rest₀) ?_ ?_
    · rw [hnext]
      exact List.prefix_append _ _
    · exact Nat.le_trans hseen (List.length_pos_iff.2 hne)
  rw [List.append_assoc] at hc' ⊢
  exact hfails c' _ hc' (by simp)

end Shared

end Cursor

end ScoreText
