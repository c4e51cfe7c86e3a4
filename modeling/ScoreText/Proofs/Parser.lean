import ScoreText.Proofs.Measures
import ScoreText.Score.Parser

/-!
A run of the parser gives what parsing its tokens gives (`run_eq_parseTokens`). The parser's loop
and the list of events go through the same steps of the cursor. What the parser has gathered when
its loop is over is what it had at some turn, and then what the events from there on add to it
(`resultOf`), so the two agree turn by turn.
-/

namespace ScoreText

namespace Parser

/-! ## Turns -/

/-- What a turn can lead to. -/
inductive Leads (p : Parser) (score : Score) : Turn → Prop
  | item {i : Item} {c : Cursor} : p.cursor.step = .item i c → p.cursor.after.isEmpty = false →
      Leads p score (.goOn ((p.moveTo c).take i) (score.declare i))
  | waiting {i : Item} {c : Cursor} : p.cursor.step = .item i c → p.cursor.after.isEmpty = true →
      Leads p score (.broken .endless p)
  | stray {d : Diagnostic} {c : Cursor} : p.cursor.step = .stray d c →
      Leads p score (.goOn ((p.report d).moveTo c) score)
  | givenUp {d : Diagnostic} {c : Cursor} : p.cursor.step = .failed d c →
      p.options.canRecover = false → Leads p score (.stop ((p.report d).moveTo c) score)
  | stuck {d : Diagnostic} {c : Cursor} : p.cursor.step = .failed d c →
      p.options.canRecover = true → c.recover.isStuck = true →
      Leads p score (.broken .endless ((p.report d).moveTo c.recover))
  | recovered {d : Diagnostic} {c : Cursor} : p.cursor.step = .failed d c →
      p.options.canRecover = true → c.recover.isStuck = false →
      Leads p score (.goOn ((p.report d).moveTo c.recover) score)
  | broken {f : TokenFault} {c : Cursor} : p.cursor.step = .broken f c →
      Leads p score (.broken f (p.moveTo c))

theorem leads_turn (p : Parser) (score : Score) : Leads p score (p.turn score) := by
  unfold turn
  cases hs : p.cursor.step with
  | item i c =>
    dsimp only
    split
    · next hafter => exact .waiting hs hafter
    · next hafter => exact .item hs (Bool.eq_false_iff.2 hafter)
  | stray d c => exact .stray hs
  | failed d c =>
    dsimp only
    cases hr : p.options.canRecover with
    | false => exact .givenUp hs hr
    | true =>
      cases hstuck : c.recover.isStuck with
      | true => exact .stuck hs hr hstuck
      | false => exact .recovered hs hr hstuck
  | broken f c => exact .broken hs

theorem options_turn (p : Parser) (score : Score) :
    (p.turn score).parser.options = p.options := by
  have hleads := leads_turn p score
  generalize p.turn score = turn at hleads
  cases hleads with
  | item hs hafter => exact options_take _ _
  | waiting | stray | givenUp | stuck | recovered | broken => rfl

theorem isAtEnd_of_not_isDone {p : Parser} (h : p.isDone = false) : p.cursor.isAtEnd = false := by
  simp only [isDone, Bool.or_eq_false_iff] at h
  exact h.1

/-! ## The loop and the events -/

/-- What is returned when the parser, with what it has gathered, goes on through the events. -/
def resultOf (p : Parser) (score : Score) (events : List Event) : ParseResult :=
  let items := events.filterMap Event.item?
  let diagnostics := p.diagnostics ++ events.filterMap Event.diagnostic?
  let groups := Item.groups (p.pending.map .element ++ items)
  ⟨diagnostics.isEmpty, diagnostics, some {
    measures := p.measures ++
      Measure.numberFrom (p.measures.length + 1) (groups.filter (!·.isEmpty))
    clef := (items.filterMap Item.clef?).getLast?.or score.clef
    time := (items.filterMap Item.time?).getLast?.or score.time
    metadata := score.metadata }⟩

def outcome : Except TokenFault Score × Parser → Except TokenFault ParseResult
  | (.error fault, _) => .error fault
  | (.ok score, last) => .ok (last.closeMeasure.result score)

private theorem result_closeMeasure (p : Parser) (score : Score) :
    p.closeMeasure.result score = p.resultOf score [] := by
  unfold closeMeasure
  split
  · next hnone =>
    rw [List.isEmpty_iff] at hnone
    simp [resultOf, result, hnone, Item.groups, Measure.numberFrom]
  · next hsome => simp [resultOf, result, groups_map_element, hsome, Measure.numberFrom]

private theorem groups_pending_congr (pending : List Element) {xs ys : List Item}
    (h : Item.groups xs = Item.groups ys) :
    Item.groups (pending.map .element ++ xs) = Item.groups (pending.map .element ++ ys) := by
  have hbar : Item.bar ∉ pending.map Item.element := by simp
  obtain ⟨g, gs, hg, hgroups⟩ := groups_append_of_no_bar hbar xs
  obtain ⟨g', gs', hg', hgroups'⟩ := groups_append_of_no_bar hbar ys
  rw [hg, hg'] at h
  cases h
  rw [hgroups, hgroups']

private theorem getLast?_cons_or {α : Type} (x : α) (xs : List α) (y : Option α) :
    (x :: xs).getLast?.or y = xs.getLast?.or (some x) := by
  rw [List.getLast?_cons]
  cases xs.getLast? <;> rfl

/-- To take in an item and go on is to go on from the event of the item. -/
private theorem resultOf_take (p : Parser) (score : Score) (i : Item) (c : Cursor)
    (events : List Event) :
    ((p.moveTo c).take i).resultOf (score.declare i) events =
      p.resultOf score (.item i :: events) := by
  have hitem : (Event.item i :: events).filterMap Event.item? =
      i :: events.filterMap Event.item? := rfl
  have hdiagnostics : (Event.item i :: events).filterMap Event.diagnostic? =
      events.filterMap Event.diagnostic? := rfl
  unfold resultOf
  dsimp only
  rw [hitem, hdiagnostics]
  generalize events.filterMap Event.item? = items
  cases i with
  | clef clef =>
    have hgroups : Item.groups (p.pending.map .element ++ .clef clef :: items) =
        Item.groups (p.pending.map .element ++ items) := groups_pending_congr p.pending rfl
    have hclef := getLast?_cons_or clef (items.filterMap Item.clef?) score.clef
    simp [take, moveTo, Score.declare, Item.clef?, Item.time?, hgroups, hclef]
  | time time =>
    have hgroups : Item.groups (p.pending.map .element ++ .time time :: items) =
        Item.groups (p.pending.map .element ++ items) := groups_pending_congr p.pending rfl
    have htime := getLast?_cons_or time (items.filterMap Item.time?) score.time
    simp [take, moveTo, Score.declare, Item.clef?, Item.time?, hgroups, htime]
  | element e => simp [take, moveTo, Score.declare, Item.clef?, Item.time?]
  | bar =>
    have hgroups := groups_append_bar (p.pending.map .element) items
    rw [groups_map_element] at hgroups
    have hshow : ((p.moveTo c).take .bar) = (p.moveTo c).closeMeasure := rfl
    rw [hgroups, hshow]
    unfold closeMeasure
    split
    · next hnone =>
      have hnil : p.pending = [] := List.isEmpty_iff.1 hnone
      simp [moveTo, Score.declare, Item.clef?, Item.time?, hnil]
    · next hsome =>
      have hcons : p.pending.isEmpty = false := Bool.eq_false_iff.2 hsome
      simp [moveTo, Score.declare, Item.clef?, Item.time?, hcons, Measure.numberFrom]

private theorem resultOf_report (p : Parser) (score : Score) (d : Diagnostic) (c : Cursor)
    {e : Event} (he : e.diagnostic? = some d) (hi : e.item? = none) (events : List Event) :
    ((p.report d).moveTo c).resultOf score events = p.resultOf score (e :: events) := by
  simp [resultOf, moveTo, report, he, hi]

/-- What a run comes to when the parser goes on through the events. -/
private def outcomeOf (p : Parser) (score : Score) (events : List Event) :
    Except TokenFault ParseResult :=
  match events.findSome? Event.fault? with
  | some fault => .error fault
  | none => .ok (p.resultOf score events)

private theorem outcomeOf_cons {p q : Parser} {score score' : Score} {e : Event}
    {events : List Event} (he : e.fault? = none)
    (h : q.resultOf score' events = p.resultOf score (e :: events)) :
    q.outcomeOf score' events = p.outcomeOf score (e :: events) := by
  unfold outcomeOf
  rw [List.findSome?_cons, he, h]

private theorem readEvents_of_isDone {p : Parser} (h : p.isDone = true) :
    p.cursor.readEvents p.options.canRecover p.room = [] := by
  rw [Cursor.readEvents, if_pos]
  simp only [isDone, Bool.or_eq_true, decide_eq_true_iff] at h
  rcases h with hend | hfull
  · exact .inr hend
  · left
    unfold room
    omega

/-- While the loop is not over, the events go on as the next step says. -/
private theorem readEvents_of_not_isDone {p : Parser} (h : p.isDone = false) :
    p.cursor.readEvents p.options.canRecover p.room =
      match p.cursor.step with
      | .item i next =>
        if p.cursor.after.isEmpty then [.broken .endless]
        else .item i :: next.readEvents p.options.canRecover p.room
      | .stray d next => .stray d :: next.readEvents p.options.canRecover (p.room - 1)
      | .failed d next =>
        .failed d next.current.position ::
          if !p.options.canRecover then []
          else if next.recover.isStuck then [.broken .endless]
          else next.recover.readEvents p.options.canRecover (p.room - 1)
      | .broken f _ => [.broken f] := by
  have hroom := room_pos h
  have hend := isAtEnd_of_not_isDone h
  have hgo : ¬ (p.room = 0 ∨ p.cursor.isAtEnd = true) := by
    rintro (hzero | hatEnd)
    · omega
    · rw [hend] at hatEnd
      cases hatEnd
  rw [Cursor.readEvents, if_neg hgo]
  split
  · next hs => simp [hs]
  · next hs => simp [hs]
  · next hs => simp [hs]
  · next hs => simp [hs]

/-- The loop comes to what the events from the cursor on amount to. -/
private theorem outcome_read (p : Parser) (score : Score) :
    outcome (p.read score) =
      p.outcomeOf score (p.cursor.readEvents p.options.canRecover p.room) := by
  -- The induction follows the loop: a turn is one more event, or the last one.
  fun_induction read p score with
  | case1 p score hdone =>
    rw [readEvents_of_isDone hdone]
    exact congrArg Except.ok (result_closeMeasure p score)
  | case2 p score hdone next score' ht ih =>
    have hevents := readEvents_of_not_isDone (Bool.eq_false_iff.2 hdone)
    have hleads := leads_turn p score
    rw [ht] at hleads
    rw [ih]
    cases hleads with
    | @item i c hs hafter =>
      simp only [hs, hafter] at hevents
      rw [hevents, options_take, room_take, cursor_take]
      exact outcomeOf_cons rfl (resultOf_take p score i c _)
    | @stray d c hs =>
      simp only [hs] at hevents
      rw [hevents, room_moveTo, room_report]
      exact outcomeOf_cons rfl (resultOf_report p score d c rfl rfl _)
    | @recovered d c hs hr hstuck =>
      have hcons : p.cursor.readEvents p.options.canRecover p.room =
          .failed d c.current.position ::
            c.recover.readEvents p.options.canRecover (p.room - 1) := by
        rw [hevents, hs]
        simp [hr, hstuck]
      rw [hcons, room_moveTo, room_report]
      exact outcomeOf_cons rfl (resultOf_report p score d c.recover rfl rfl _)
  | case3 p score hdone last score' ht =>
    have hevents := readEvents_of_not_isDone (Bool.eq_false_iff.2 hdone)
    have hleads := leads_turn p score
    rw [ht] at hleads
    cases hleads with
    | @givenUp d c hs hr =>
      have hlast : p.cursor.readEvents p.options.canRecover p.room =
          [.failed d c.current.position] := by
        rw [hevents, hs]
        simp [hr]
      rw [hlast, ← outcomeOf_cons rfl (resultOf_report p score d c rfl rfl [])]
      exact congrArg Except.ok (result_closeMeasure _ score)
  | case4 p score hdone fault last ht =>
    have hevents := readEvents_of_not_isDone (Bool.eq_false_iff.2 hdone)
    have hleads := leads_turn p score
    rw [ht] at hleads
    cases hleads with
    | waiting hs hafter =>
      simp only [hs, hafter] at hevents
      rw [hevents]
      rfl
    | @stuck d c hs hr hstuck =>
      have hlast : p.cursor.readEvents p.options.canRecover p.room =
          [.failed d c.current.position, .broken .endless] := by
        rw [hevents, hs]
        simp [hr, hstuck]
      rw [hlast]
      rfl
    | broken hs =>
      simp only [hs] at hevents
      rw [hevents]
      rfl

theorem run_fst (p : Parser) : p.run.1 = outcome (p.restart.read {}) := by
  unfold run outcome
  split <;> simp [*]

/-- A result is returned when the loop is over. -/
theorem read_of_run {p : Parser} {r : ParseResult} (h : p.run.1 = .ok r) :
    ∃ score, (p.restart.read {}).1 = .ok score ∧
      r = (p.restart.read {}).2.closeMeasure.result score := by
  rw [run_fst] at h
  unfold outcome at h
  split at h
  · cases h
  · next score last hread =>
    cases h
    rw [hread]
    exact ⟨score, rfl, rfl⟩

/-- Closing the last measure leaves the options and the cursor of the loop. -/
theorem run_snd (p : Parser) :
    p.run.2.options = (p.restart.read {}).2.options ∧
      p.run.2.cursor = (p.restart.read {}).2.cursor := by
  unfold run
  split
  · next hread =>
    rw [hread]
    exact ⟨rfl, rfl⟩
  · next hread =>
    rw [hread]
    exact ⟨options_closeMeasure _, cursor_closeMeasure _⟩

theorem restart_ofTokens (options : ParserOptions) (tokens : List Token) :
    (ofTokens options tokens).restart = ofTokens options tokens := by
  unfold restart ofTokens Cursor.ofTokens
  split <;> rfl

/-- **A run gives what parsing the tokens gives.** -/
theorem run_eq_parseTokens (options : ParserOptions) (tokens : List Token) :
    (ofTokens options tokens).run.1 = parseTokens options tokens := by
  have hresult (events : List Event) :
      (ofTokens options tokens).resultOf {} events = .ofEvents events := by
    simp [resultOf, ofTokens, ParseResult.ofEvents, Score.ofItems]
  rw [run_fst, restart_ofTokens, outcome_read, outcomeOf]
  simp only [hresult]
  rfl

end Parser

end ScoreText
