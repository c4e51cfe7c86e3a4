import ScoreText.Proofs.Parser
import ScoreText.Proofs.Provenance

/-!
Every score that the parser returns is well formed, whatever the tokens are and however often the
parser has been run before. What the parser has gathered is sound at the start of a run and stays so
from turn to turn (`sound_turn`), also where the run breaks off (`sound_read`). And a run depends on
nothing that earlier runs leave behind, as they keep the options and the tokens
(`run_afterRuns`).
-/

namespace ScoreText

/-! ## What a parser has gathered -/

/-- All that is gathered comes from the tokens and is in range, the measures are numbered from one
and none is empty, and there are not too many problems. -/
structure Parser.Sound (tokens : List Token) (p : Parser) : Prop where
  source : p.cursor.tokens = tokens
  shown : ∀ d ∈ p.diagnostics, d.ShownBy tokens
  within : p.diagnostics.length ≤ p.options.limit
  pending : ∀ e ∈ p.pending, (Item.element e).InRange tokens
  nonempty : ∀ m ∈ p.measures, m.elements ≠ []
  measures : ∀ m ∈ p.measures, ∀ e ∈ m.elements, (Item.element e).InRange tokens
  numbers : p.measures.map Measure.number = List.range' 1 p.measures.length

def Score.TimeInRange (tokens : List Token) (s : Score) : Prop :=
  ∀ t, s.time = some t → (Item.time t).InRange tokens

def Turn.Sound (tokens : List Token) : Turn → Prop
  | .goOn p score | .stop p score => p.Sound tokens ∧ score.TimeInRange tokens
  | .broken _ p => p.Sound tokens

theorem Score.TimeInRange.declare {tokens : List Token} {score : Score}
    (h : score.TimeInRange tokens) {i : Item} (hi : i.InRange tokens) :
    (score.declare i).TimeInRange tokens := by
  cases i with
  | time t =>
    intro u hu
    cases hu
    exact hi
  | clef c => exact h
  | element e => exact h
  | bar => exact h

namespace Parser.Sound

variable {tokens : List Token} {p : Parser}

theorem moveTo (h : p.Sound tokens) {c : Cursor} (hc : c.tokens = tokens) :
    (p.moveTo c).Sound tokens :=
  { h with source := hc }

theorem report (h : p.Sound tokens) (hgo : p.isDone = false) {d : Diagnostic}
    (hd : d.ShownBy tokens) : (p.report d).Sound tokens := by
  refine { h with shown := ?_, within := ?_ }
  · intro e he
    rcases List.mem_append.1 he with he | he
    · exact h.shown e he
    · rw [List.mem_singleton.1 he]
      exact hd
  · have hroom := room_pos hgo
    simp only [Parser.report, List.length_append, List.length_singleton]
    unfold room at hroom
    omega

theorem closeMeasure (h : p.Sound tokens) : p.closeMeasure.Sound tokens := by
  unfold Parser.closeMeasure
  split
  · exact h
  · next hsome =>
    refine { h with pending := by simp, nonempty := ?_, measures := ?_, numbers := ?_ }
    · intro m hm
      rcases List.mem_append.1 hm with hm | hm
      · exact h.nonempty m hm
      · rw [List.mem_singleton.1 hm]
        simpa using hsome
    · intro m hm
      rcases List.mem_append.1 hm with hm | hm
      · exact h.measures m hm
      · rw [List.mem_singleton.1 hm]
        exact h.pending
    · rw [List.map_append, h.numbers, List.length_append, List.length_singleton, List.range'_concat,
        Nat.one_mul, Nat.add_comm 1]
      rfl

theorem take (h : p.Sound tokens) {i : Item} (hi : i.InRange tokens) :
    (p.take i).Sound tokens := by
  cases i with
  | element e =>
    refine { h with pending := ?_ }
    intro e' he
    rcases List.mem_append.1 he with he | he
    · exact h.pending e' he
    · rw [List.mem_singleton.1 he]
      exact hi
  | bar => exact h.closeMeasure
  | clef c => exact h
  | time t => exact h

end Parser.Sound

namespace Parser

variable {tokens : List Token} {p : Parser} {score : Score}

/-- A turn keeps everything sound. -/
theorem sound_turn (h : p.Sound tokens) (hs : score.TimeInRange tokens) (hgo : p.isDone = false) :
    (p.turn score).Sound tokens := by
  have hyields := p.cursor.yields_step
  rw [h.source] at hyields
  have hleads := leads_turn p score
  generalize p.turn score = turn at hleads
  cases hleads with
  | item hstep _ =>
    rw [hstep] at hyields
    exact ⟨(h.moveTo hyields.2).take hyields.1, hs.declare hyields.1⟩
  | waiting _ _ => exact h
  | stray hstep =>
    rw [hstep] at hyields
    exact ⟨(h.report hgo hyields.1).moveTo hyields.2, hs⟩
  | givenUp hstep _ =>
    rw [hstep] at hyields
    exact ⟨(h.report hgo hyields.1).moveTo hyields.2, hs⟩
  | stuck hstep _ _ =>
    rw [hstep] at hyields
    exact (h.report hgo hyields.1).moveTo ((Cursor.tokens_recover _).trans hyields.2)
  | recovered hstep _ _ =>
    rw [hstep] at hyields
    exact ⟨(h.report hgo hyields.1).moveTo ((Cursor.tokens_recover _).trans hyields.2), hs⟩
  | broken hstep =>
    rw [hstep] at hyields
    exact h.moveTo hyields.2

/-- So does the whole loop, whether it breaks off or not. -/
theorem sound_read (h : p.Sound tokens) (hs : score.TimeInRange tokens) :
    (p.read score).2.Sound tokens ∧ (p.read score).2.options = p.options ∧
      ∀ s, (p.read score).1 = .ok s → s.TimeInRange tokens := by
  fun_induction read p score with
  | case1 p score hdone =>
    refine ⟨h, rfl, fun s hok => ?_⟩
    cases hok
    exact hs
  | case2 p score hdone next score' ht ih =>
    have hturn := sound_turn h hs (Bool.eq_false_iff.2 hdone)
    have hoptions := options_turn p score
    rw [ht] at hturn hoptions
    obtain ⟨hlast, hkept, htime⟩ := ih hturn.1 hturn.2
    exact ⟨hlast, hkept.trans hoptions, htime⟩
  | case3 p score hdone last score' ht =>
    have hturn := sound_turn h hs (Bool.eq_false_iff.2 hdone)
    have hoptions := options_turn p score
    rw [ht] at hturn hoptions
    refine ⟨hturn.1, hoptions, fun s hok => ?_⟩
    cases hok
    exact hturn.2
  | case4 p score hdone fault last ht =>
    have hturn := sound_turn h hs (Bool.eq_false_iff.2 hdone)
    have hoptions := options_turn p score
    rw [ht] at hturn hoptions
    refine ⟨hturn, hoptions, fun s hok => ?_⟩
    cases hok

/-! ## Earlier runs -/

theorem sound_restart (p : Parser) : p.restart.Sound p.cursor.tokens where
  source := p.cursor.tokens_reset
  shown := by simp [restart]
  within := by simp [restart]
  pending := by simp [restart]
  nonempty := by simp [restart]
  measures := by simp [restart]
  numbers := by simp [restart]

private theorem timeInRange_empty (tokens : List Token) : Score.TimeInRange tokens {} := by
  intro t ht
  cases ht

/-- A run keeps the options and the tokens. -/
theorem options_run (p : Parser) :
    p.run.2.options = p.options ∧ p.run.2.cursor.tokens = p.cursor.tokens := by
  obtain ⟨hsound, hoptions, -⟩ := sound_read p.sound_restart (timeInRange_empty _)
  rw [p.run_snd.1, p.run_snd.2]
  exact ⟨hoptions, hsound.source⟩

/-- A run depends on the options and the tokens only. -/
theorem run_congr {p q : Parser} (hoptions : p.options = q.options)
    (htokens : p.cursor.tokens = q.cursor.tokens) : p.run = q.run := by
  have hrestart : p.restart = q.restart := by
    unfold restart
    rw [hoptions, Cursor.reset_congr htokens]
  unfold run
  rw [hrestart]

def afterRuns : Nat → Parser → Parser
  | 0, p => p
  | n + 1, p => afterRuns n p.run.2

/-- Whatever earlier runs have left behind, a run does what the first one would have done. -/
theorem run_afterRuns (n : Nat) (p : Parser) : (p.afterRuns n).run = p.run := by
  induction n generalizing p with
  | zero => rfl
  | succ n ih =>
    obtain ⟨hoptions, htokens⟩ := options_run p
    rw [afterRuns, ih, run_congr hoptions htokens]

end Parser

/-! ## Results -/

/-- The measures are numbered from one and none is empty, the octaves have one digit, and the
numbers of the time signature are positive. All these numbers are written in the tokens. -/
structure Score.WellFormed (tokens : List Token) (s : Score) : Prop where
  numbers : s.measures.map Measure.number = List.range' 1 s.measures.length
  nonempty : ∀ m ∈ s.measures, m.elements ≠ []
  octaves : ∀ m ∈ s.measures, ∀ pitch duration p, .note pitch duration p ∈ m.elements →
    pitch.octave ≤ 9 ∧ WrittenIn tokens pitch.octave
  time : ∀ t, s.time = some t → (1 ≤ t.numerator ∧ WrittenIn tokens t.numerator) ∧
    1 ≤ t.denominator ∧ WrittenIn tokens t.denominator

/-- There is a score, and it is well formed. Each diagnostic is shown by a token that is not white
space, at its place; where all tokens are white space, an end token stands for them. There are not
more diagnostics than the limit, and none exactly in a success. -/
structure ParseResult.WellFormed (options : ParserOptions) (tokens : List Token)
    (r : ParseResult) : Prop where
  score : ∃ s, r.score = some s ∧ s.WellFormed tokens
  shown : ∀ d ∈ r.diagnostics, ∃ t, d.token = some t ∧ d.position = t.position ∧
    (t ∈ tokens ∧ t.kind.isTrivia = false ∨
      (∀ u ∈ tokens, u.kind.isTrivia = true) ∧ t = .endAt .nowhere)
  within : r.diagnostics.length ≤ options.limit
  success : r.success = true ↔ r.diagnostics = []

private theorem wellFormed_result {options : ParserOptions} {tokens : List Token} {p : Parser}
    {score : Score} (hoptions : p.options = options)
    (h : p.Sound (Cursor.ofTokens tokens).tokens)
    (hs : score.TimeInRange (Cursor.ofTokens tokens).tokens) :
    (p.result score).WellFormed options tokens where
  score := by
    refine ⟨_, rfl, h.numbers, h.nonempty, ?_, ?_⟩
    · intro m hm pitch duration position he
      obtain ⟨hle, hwritten⟩ := h.measures m hm _ he
      exact ⟨hle, writtenIn_ofTokens hwritten⟩
    · intro t ht
      obtain ⟨⟨hn, hwn⟩, hd, hwd⟩ := hs t ht
      exact ⟨⟨hn, writtenIn_ofTokens hwn⟩, hd, writtenIn_ofTokens hwd⟩
  shown := by
    intro d hd
    obtain ⟨t, ht, htoken, hplace⟩ := h.shown d hd
    exact ⟨t, htoken, hplace, mem_tokens_ofTokens ht⟩
  within := hoptions ▸ h.within
  success := List.isEmpty_iff

/-- **Every result of the parser is well formed, whatever the tokens.** Take a parser over any
tokens that has been run any number of times, and run it once more. If that returns a result, then
the result is well formed, and a parser that has never been run returns the same. -/
theorem parser_wellFormed (options : ParserOptions) (tokens : List Token) (n : Nat)
    {r : ParseResult} (h : ((Parser.ofTokens options tokens).afterRuns n).run.1 = .ok r) :
    r.WellFormed options tokens ∧ (Parser.ofTokens options tokens).run.1 = .ok r := by
  rw [Parser.run_afterRuns] at h
  refine ⟨?_, h⟩
  obtain ⟨score, hread, rfl⟩ := Parser.read_of_run h
  obtain ⟨hsound, hoptions, htime⟩ :=
    Parser.sound_read (Parser.ofTokens options tokens).sound_restart
      (Parser.timeInRange_empty _)
  refine wellFormed_result ?_ hsound.closeMeasure (htime score hread)
  rw [Parser.options_closeMeasure, hoptions]
  rfl

/-- The third run over a note whose octave is written in another script, and a stray colon. -/
theorem parser_wellFormed_third_run :
    let tokens : List Token := [⟨.note, "c", .nowhere⟩, ⟨.number, "٣", .nowhere⟩,
      ⟨.duration, "q", .nowhere⟩, ⟨.colon, ":", .start⟩, .endAt .nowhere]
    let r : ParseResult := ⟨false, [.atToken (.unexpectedToken .colon) ⟨.colon, ":", .start⟩],
      some { measures := [⟨1, [.note ⟨.c, 3, none⟩ .quarter .nowhere]⟩] }⟩
    ((Parser.ofTokens {} tokens).afterRuns 2).run.1 = .ok r ∧ r.WellFormed {} tokens := by
  intro tokens r
  have hsome : ((Parser.ofTokens {} tokens).afterRuns 2).run.1.toOption = some r := by
    decide +kernel
  have h : ((Parser.ofTokens {} tokens).afterRuns 2).run.1 = .ok r := by
    cases hrun : ((Parser.ofTokens {} tokens).afterRuns 2).run.1 with
    | ok result =>
      rw [hrun] at hsome
      exact congrArg Except.ok (Option.some.inj hsome)
    | error fault =>
      rw [hrun] at hsome
      cases hsome
  exact ⟨h, (parser_wellFormed {} tokens 2 h).1⟩

end ScoreText
