import ScoreText.Proofs.Parser
import ScoreText.Proofs.Provenance
import ScoreText.Proofs.Relocation

/-!
Parsing moves on and comes to an end. With an end token among its tokens, every turn of the
parser's loop, malformed items and the skipping after them included, moves the cursor on over at
least one token, and never over an end token (`turn_passes`). So the places of the cursor increase
up to the first end token, no run goes on for ever, what stands behind that token has no influence,
and a run that does not use up its errors comes to it (`parser_progresses`).
-/

namespace ScoreText

namespace Cursor

/-- `Passes c run d`: the cursor has come from `c` to `d` over the tokens of `run`, none of which is
an end token, and one is still ahead. -/
structure Passes (c : Cursor) (run : List Token) (d : Cursor) : Prop where
  before : d.before = run.reverse ++ c.before
  ahead : c.ahead = run ++ d.ahead
  noEnd : ∀ t ∈ run, t.kind ≠ .eof
  hasEnd : d.HasEnd

namespace Passes

variable {c d e : Cursor} {run run' : List Token}

theorem refl (h : c.HasEnd) : Passes c [] c := ⟨rfl, rfl, by simp, h⟩

theorem trans (h : Passes c run d) (h' : Passes d run' e) : Passes c (run ++ run') e := by
  refine ⟨?_, ?_, ?_, h'.hasEnd⟩
  · rw [h'.before, h.before, List.reverse_append, List.append_assoc]
  · rw [h.ahead, h'.ahead, List.append_assoc]
  · intro t ht
    rcases List.mem_append.1 ht with ht | ht
    · exact h.noEnd t ht
    · exact h'.noEnd t ht

theorem position (h : Passes c run d) : d.position = c.position + run.length := by
  unfold Cursor.position
  rw [h.before, List.length_append, List.length_reverse]
  omega

theorem tokens (h : Passes c run d) : d.tokens = c.tokens := by
  have hc : c.tokens = c.before.reverse ++ c.ahead := rfl
  have hd : d.tokens = d.before.reverse ++ d.ahead := rfl
  rw [hc, hd, h.before, h.ahead, List.reverse_append, List.reverse_reverse, List.append_assoc]

/-- The first end token ahead stays where it is. -/
theorem position_add_findIdx (h : Passes c run d) :
    d.position + d.ahead.findIdx (·.kind = .eof) =
      c.position + c.ahead.findIdx (·.kind = .eof) := by
  have hrun : run.findIdx (fun t => decide (t.kind = .eof)) = run.length :=
    List.findIdx_eq_length_of_false fun t ht => by simpa using h.noEnd t ht
  rw [h.position, h.ahead, List.findIdx_append, hrun, if_neg (Nat.lt_irrefl _)]
  omega

end Passes

theorem Along.passes {c d : Cursor} {run : List Token} (h : Along c run d)
    (hk : c.current.kind ≠ .eof) : Passes c run d := by
  refine ⟨h.before, h.ahead, ?_, h.hasEnd⟩
  intro t ht
  rw [h.eq_cons, List.mem_cons] at ht
  rcases ht with rfl | ht
  · exact hk
  · have hinner := h.inner t ht
    intro he
    rw [he] at hinner
    cases hinner

/-- Skipping ahead does not go past the end. -/
theorem passes_recover {c : Cursor} (h : c.HasEnd) : ∃ run, Passes c run c.recover := by
  induction hn : c.ahead.length using Nat.strongRecOn generalizing c with
  | ind n ih =>
    by_cases hstop : c.current.kind = .eof ∨ c.current.kind.startsElement = true
    · rw [recover_of_stop hstop]
      exact ⟨[], .refl h⟩
    · obtain ⟨hend, hstart⟩ := not_or.1 hstop
      have hnext := (Along.first h hend).passes hend
      by_cases hpipe : c.current.kind = .pipe
      · rw [recover_of_pipe hpipe]
        exact ⟨_, hnext⟩
      · rw [recover_of_skipped hend (Bool.eq_false_iff.2 hstart) hpipe]
        have hlt := (Along.first h hend).length_lt
        obtain ⟨run, hrun⟩ := ih _ (hn ▸ hlt) hnext.hasEnd rfl
        exact ⟨_, hnext.trans hrun⟩

end Cursor

namespace Parser

/-! ## Turns -/

section Turn

variable {p : Parser} (score : Score)

theorem kind_ne_eof_of_not_isDone (h : p.isDone = false) : p.cursor.current.kind ≠ .eof := by
  have hend := isAtEnd_of_not_isDone h
  simpa [Cursor.isAtEnd] using hend

/-- A turn breaks off only at a text that cannot be converted; it does not wait for ever. -/
theorem raisedBy_of_turn (h : p.cursor.HasEnd) (hgo : p.isDone = false) {fault : TokenFault}
    {last : Parser} (ht : p.turn score = .broken fault last) :
    fault.RaisedBy p.cursor.tokens := by
  have hk := kind_ne_eof_of_not_isDone hgo
  have hstep := Cursor.step_cases h hk
  have hleads := leads_turn p score
  rw [ht] at hleads
  cases hleads with
  | waiting hs hafter => exact Cursor.after_ne_nil h hk (List.isEmpty_iff.1 hafter)
  | stuck hs hr hstuck =>
    rw [hs] at hstep
    cases hstep with
    | failed ha _ =>
      rw [Cursor.isStuck_of_hasEnd (Cursor.hasEnd_recover ha.hasEnd)] at hstuck
      cases hstuck
  | broken hs =>
    have hyields := p.cursor.yields_step
    rw [hs] at hyields
    exact hyields.1

/-- A turn moves the cursor on, over tokens that are no end tokens. -/
theorem turn_passes (h : p.cursor.HasEnd) (hgo : p.isDone = false) :
    ∃ run, run ≠ [] ∧ p.cursor.Passes run (p.turn score).parser.cursor := by
  have hk := kind_ne_eof_of_not_isDone hgo
  have hstep := Cursor.step_cases h hk
  have hends (last : Parser) : p.turn score ≠ .broken .endless last := raisedBy_of_turn score h hgo
  have hleads := leads_turn p score
  generalize p.turn score = turn at hleads hends
  cases hleads with
  | item hs hafter =>
    rw [hs] at hstep
    cases hstep with
    | item ha _ => exact ⟨_, ha.nonempty, by simpa [Turn.parser] using ha.passes hk⟩
  | waiting hs hafter => exact absurd rfl (hends _)
  | stray hs =>
    rw [hs] at hstep
    cases hstep with
    | stray ha _ _ => exact ⟨_, ha.nonempty, ha.passes hk⟩
  | givenUp hs hr =>
    rw [hs] at hstep
    cases hstep with
    | failed ha _ => exact ⟨_, ha.nonempty, ha.passes hk⟩
  | stuck hs hr hstuck => exact absurd rfl (hends _)
  | recovered hs hr hstuck =>
    rw [hs] at hstep
    cases hstep with
    | failed ha _ =>
      obtain ⟨skipped, hskipped⟩ := Cursor.passes_recover ha.hasEnd
      refine ⟨_, ?_, (ha.passes hk).trans hskipped⟩
      simp [ha.nonempty]
  | broken hs =>
    rw [hs] at hstep
    cases hstep with
    | broken ha _ _ => exact ⟨_, ha.nonempty, ha.passes hk⟩

end Turn

/-! ## Runs -/

/-- `TurnsTo p score q score'`: turns of the loop lead from one state to the other. -/
inductive TurnsTo (p : Parser) (score : Score) : Parser → Score → Prop
  | refl : TurnsTo p score p score
  | step {q q' : Parser} {score₁ score₂ : Score} : TurnsTo p score q score₁ → q.isDone = false →
      q.turn score₁ = .goOn q' score₂ → TurnsTo p score q' score₂

theorem TurnsTo.passes {p q : Parser} {score score' : Score} (ht : TurnsTo p score q score')
    (h : p.cursor.HasEnd) : ∃ run, p.cursor.Passes run q.cursor := by
  induction ht with
  | refl => exact ⟨[], .refl h⟩
  | @step q q' score₁ score₂ _ hgo hturn ih =>
    obtain ⟨run, hrun⟩ := ih
    obtain ⟨more, -, hmore⟩ := turn_passes score₁ hrun.hasEnd hgo
    rw [hturn] at hmore
    exact ⟨_, hrun.trans hmore⟩

/-- How the loop ends: at some place up to the first end token, and at that token unless the run
breaks off or no more problem may be recorded. -/
theorem read_passes {p : Parser} (h : p.cursor.HasEnd) (score : Score) :
    (∃ run, p.cursor.Passes run (p.read score).2.cursor) ∧
      (∀ fault, (p.read score).1 = .error fault → fault.RaisedBy p.cursor.tokens) ∧
      ∀ s, (p.read score).1 = .ok s →
        (p.read score).2.diagnostics.length < p.options.limit →
        (p.read score).2.cursor.isAtEnd = true := by
  fun_induction read p score with
  | case1 p score hdone =>
    refine ⟨⟨[], .refl h⟩, by simp, fun s _ hroom => ?_⟩
    simp only [isDone, Bool.or_eq_true, decide_eq_true_iff] at hdone
    rcases hdone with hend | hfull
    · exact hend
    · dsimp only at hroom
      omega
  | case2 p score hdone next score' ht ih =>
    obtain ⟨run, -, hrun⟩ := turn_passes score h (Bool.eq_false_iff.2 hdone)
    have hoptions := options_turn p score
    rw [ht] at hrun hoptions
    obtain ⟨⟨more, hmore⟩, hraised, hlast⟩ := ih hrun.hasEnd
    refine ⟨⟨_, hrun.trans hmore⟩, ?_, ?_⟩
    · rw [← hrun.tokens]
      exact hraised
    · rw [← hoptions]
      exact hlast
  | case3 p score hdone last score' ht =>
    obtain ⟨run, -, hrun⟩ := turn_passes score h (Bool.eq_false_iff.2 hdone)
    have hleads := leads_turn p score
    rw [ht] at hrun hleads
    refine ⟨⟨run, hrun⟩, by simp, fun s _ hroom => ?_⟩
    -- The loop stops short only where one problem is the limit, and it has just been recorded.
    cases hleads with
    | givenUp hs hr =>
      rw [Cursor.limit_of_not_canRecover hr] at hroom
      simp [moveTo, report] at hroom
  | case4 p score hdone fault last ht =>
    have hgo := Bool.eq_false_iff.2 hdone
    obtain ⟨run, -, hrun⟩ := turn_passes score h hgo
    rw [ht] at hrun
    refine ⟨⟨run, hrun⟩, fun f hf => ?_, by simp⟩
    cases hf
    exact raisedBy_of_turn score h hgo ht

end Parser

/-! ## Runs over a token list -/

/-- How many of the tokens that are not white space stand before the first end token. -/
def endIndex (tokens : List Token) : Nat :=
  (Cursor.ofTokens tokens).tokens.findIdx (·.kind = .eof)

theorem Cursor.before_ofTokens (tokens : List Token) : (Cursor.ofTokens tokens).before = [] := by
  unfold ofTokens
  split <;> rfl

private theorem hasEnd_of_usable {tokens : List Token}
    (h : (∀ t ∈ tokens, t.kind.isTrivia = true) ∨ ∃ t ∈ tokens, t.kind = .eof) :
    (Cursor.ofTokens tokens).HasEnd := by
  rcases h with hblank | hend
  · have hnone : tokens.filter (!·.kind.isTrivia) = [] := by
      rw [List.filter_eq_nil_iff]
      intro t ht
      simp [hblank t ht]
    refine ⟨.endAt .nowhere, ?_, rfl⟩
    rw [Cursor.ofTokens, hnone]
    simp [Cursor.ahead]
  · exact hasEnd_ofTokens hend

private theorem position_of_passes {tokens run : List Token} {d : Cursor}
    (h : (Cursor.ofTokens tokens).Passes run d) :
    d.position ≤ endIndex tokens ∧ (d.isAtEnd = true → d.position = endIndex tokens) := by
  have hindex := h.position_add_findIdx
  have hstart : (Cursor.ofTokens tokens).position = 0 := by
    rw [Cursor.position, Cursor.before_ofTokens]
    rfl
  have hahead : (Cursor.ofTokens tokens).tokens = (Cursor.ofTokens tokens).ahead := by
    rw [Cursor.tokens, Cursor.before_ofTokens]
    rfl
  rw [hstart, Nat.zero_add, ← hahead] at hindex
  refine ⟨?_, fun hend => ?_⟩
  · unfold endIndex
    omega
  · have hfirst : d.ahead.findIdx (fun t => decide (t.kind = .eof)) = 0 := by
      have hkind : d.current.kind = .eof := by simpa [Cursor.isAtEnd] using hend
      simp [Cursor.ahead, List.findIdx_cons, hkind]
    unfold endIndex
    omega

/-- What stands behind an end token is not looked at. -/
theorem parseTokens_append_eof (options : ParserOptions) (front : List Token) {stop : Token}
    (h : stop.kind = .eof) (back back' : List Token) :
    parseTokens options (front ++ stop :: back') = parseTokens options (front ++ stop :: back) := by
  have hend (back : List Token) : (Cursor.ofTokens (front ++ stop :: back)).HasEnd :=
    hasEnd_ofTokens ⟨stop, by simp, h⟩
  have hahead (back : List Token) : (Cursor.ofTokens (front ++ stop :: back)).ahead =
      front.filter (!·.kind.isTrivia) ++ stop :: back.filter (!·.kind.isTrivia) := by
    have hfilter : (front ++ stop :: back).filter (!·.kind.isTrivia) =
        front.filter (!·.kind.isTrivia) ++ stop :: back.filter (!·.kind.isTrivia) := by
      simp [h, Kind.isTrivia]
    rw [Cursor.ahead_ofTokens (by rw [hfilter]; simp), hfilter]
  have hmirrors : (Cursor.ofTokens (front ++ stop :: back)).Mirrors id
      (Cursor.ofTokens (front ++ stop :: back')) := by
    refine ⟨hend back, ?_⟩
    have hid : Token.relocate id = id := rfl
    rw [hid, List.map_id, hahead, hahead]
    exact upToEnd_append_eof _ h _ _
  have hevents : tokenEvents options (front ++ stop :: back') =
      tokenEvents options (front ++ stop :: back) := by
    have hid : Event.relocate id = id := funext Event.relocate_id
    unfold tokenEvents
    rw [Cursor.readEvents_eq_events options (hend back),
      Cursor.readEvents_eq_events options (hend back'), Cursor.events_of_mirrors hmirrors, hid,
      List.map_id]
  simp only [parseTokens, hevents]

/-- **Parsing moves on, and comes to the first end token.** For tokens that are all white space or
have an end token among them, whatever their kinds and texts: a run ends, with a result or at a
token whose text cannot be converted. Every turn of its loop moves the cursor on, and the cursor
never gets past the first end token. What stands behind an end token changes nothing. And a result
with fewer problems than the limit is only returned at the first end token. -/
theorem parser_progresses (options : ParserOptions) {tokens : List Token}
    (h : (∀ t ∈ tokens, t.kind.isTrivia = true) ∨ ∃ t ∈ tokens, t.kind = .eof) :
    let p := Parser.ofTokens options tokens
    ((∃ r, p.run.1 = .ok r) ∨ ∃ fault, p.run.1 = .error fault ∧ fault.RaisedBy tokens) ∧
    (∀ q score, p.restart.TurnsTo {} q score → q.cursor.position ≤ endIndex tokens ∧
      (q.isDone = false →
        q.cursor.position < (q.turn score).parser.cursor.position ∧
        (q.turn score).parser.cursor.position ≤ endIndex tokens)) ∧
    (∀ front stop back back', tokens = front ++ stop :: back → stop.kind = .eof →
      (Parser.ofTokens options (front ++ stop :: back')).run.1 = p.run.1) ∧
    ∀ r, p.run.1 = .ok r → r.diagnostics.length < options.limit →
      p.run.2.cursor.isAtEnd = true ∧ p.run.2.cursor.position = endIndex tokens := by
  intro p
  have hend : p.cursor.HasEnd := hasEnd_of_usable h
  have hstart : p.restart = p := Parser.restart_ofTokens options tokens
  obtain ⟨⟨run, hrun⟩, hraised, hlast⟩ := Parser.read_passes hend {}
  refine ⟨?_, ?_, ?_, ?_⟩
  · rw [Parser.run_fst, hstart]
    generalize p.read {} = out at hraised
    obtain ⟨result, last⟩ := out
    cases result with
    | ok score => exact .inl ⟨_, rfl⟩
    | error fault => exact .inr ⟨fault, rfl, raisedBy_ofTokens (hraised fault rfl)⟩
  · intro q score hturns
    rw [hstart] at hturns
    obtain ⟨passed, hpassed⟩ := hturns.passes hend
    refine ⟨(position_of_passes hpassed).1, fun hgo => ?_⟩
    obtain ⟨more, hne, hmore⟩ := Parser.turn_passes score hpassed.hasEnd hgo
    have hlength := List.length_pos_iff.2 hne
    refine ⟨?_, (position_of_passes (hpassed.trans hmore)).1⟩
    rw [hmore.position]
    omega
  · rintro front stop back back' rfl hstop
    rw [Parser.run_eq_parseTokens, Parser.run_eq_parseTokens]
    exact parseTokens_append_eof options front hstop back back'
  · intro r hr hroom
    obtain ⟨score, hscore, rfl⟩ := Parser.read_of_run hr
    rw [hstart] at hscore hroom
    rw [p.run_snd.2, hstart]
    rw [Parser.result, Parser.diagnostics_closeMeasure] at hroom
    have hatEnd := hlast score hscore hroom
    exact ⟨hatEnd, (position_of_passes hrun).2 hatEnd⟩

/-- A rest behind the end token is not read, and the note before it is given up. -/
theorem parser_progresses_at_end :
    let front := [⟨.note, "C", .nowhere⟩]
    let rest := [⟨.rest, "r", .nowhere⟩, ⟨.duration, "q", .nowhere⟩]
    (∃ t ∈ front ++ .endAt .nowhere :: rest, t.kind = .eof) ∧
    (Parser.ofTokens {} (front ++ [.endAt .nowhere])).run.1 =
      (Parser.ofTokens {} (front ++ .endAt .nowhere :: rest)).run.1 := by
  intro front rest
  have hend : ∃ t ∈ front ++ .endAt .nowhere :: rest, t.kind = .eof :=
    ⟨.endAt .nowhere, by simp, rfl⟩
  obtain ⟨-, -, hbehind, -⟩ := parser_progresses {} (.inr hend)
  exact ⟨hend, hbehind front (.endAt .nowhere) rest [] rfl rfl⟩

end ScoreText
