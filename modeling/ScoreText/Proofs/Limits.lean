import ScoreText.Proofs.Acceptance

/-!
The limit on errors only cuts off. A run under a smaller limit is the beginning of the run under a
larger one, up to the problem that uses up the limit (`Cursor.events_truncated`). So a smaller limit
shows the first diagnostics of those that a larger one shows, never turns a failure into a success,
and gives the first measures of the score, the last of them perhaps cut short
(`parseText_truncates`).
-/

namespace ScoreText

/-! ## Runs under two limits -/

/-- How much of the limit on problems an event uses up. -/
def Event.cost (e : Event) : Nat := if e.diagnostic?.isSome then 1 else 0

namespace Cursor

/-- What a run does first, under any limit that is not used up: it goes on behind its first event,
which may have cost something, or ends with it. -/
theorem events_first {c : Cursor} (h : c.HasEnd) (hk : c.current.kind ≠ .eof) :
    ∃ e : Event, (∃ next : Cursor, next.HasEnd ∧ next.ahead.length < c.ahead.length ∧
        ∀ limit, c.events (limit + 1) = e :: next.events (limit + 1 - e.cost)) ∨
      (e.diagnostic? = none ∧ ∀ limit, c.events (limit + 1) = [e]) := by
  have hstep := step_cases h hk
  cases hs : c.step with
  | item i next =>
    rw [hs] at hstep
    cases hstep with
    | item ha _ =>
      refine ⟨.item i, .inl ⟨next, ha.hasEnd, ha.length_lt, fun limit => ?_⟩⟩
      rw [events_succ limit h hk, hs]
      rfl
  | stray d next =>
    rw [hs] at hstep
    cases hstep with
    | stray ha _ _ =>
      refine ⟨.stray d, .inl ⟨next, ha.hasEnd, ha.length_lt, fun limit => ?_⟩⟩
      rw [events_succ limit h hk, hs]
      rfl
  | failed d next =>
    rw [hs] at hstep
    cases hstep with
    | failed ha _ =>
      have hle := (suffix_recover next).length_le
      have hlt := ha.length_lt
      refine ⟨.failed d next.current.position,
        .inl ⟨next.recover, hasEnd_recover ha.hasEnd, by omega, fun limit => ?_⟩⟩
      rw [events_succ limit h hk, hs]
      rfl
  | broken f next =>
    refine ⟨.broken f, .inr ⟨rfl, fun limit => ?_⟩⟩
    rw [events_succ limit h hk, hs]

/-- A smaller limit ends the same run earlier, behind the problem that uses it up. -/
theorem events_truncated {m n : Nat} (hmn : m ≤ n) {c : Cursor} (h : c.HasEnd) :
    c.events m <+: c.events n ∧
      (c.events m).filterMap Event.diagnostic? =
        ((c.events n).filterMap Event.diagnostic?).take m := by
  induction hlen : c.ahead.length using Nat.strongRecOn generalizing c m n with
  | ind len ih =>
    cases m with
    | zero => simp [events_zero]
    | succ m =>
      obtain ⟨n, rfl⟩ : ∃ k, n = k + 1 := ⟨n - 1, by omega⟩
      by_cases hk : c.current.kind = .eof
      · simp [events_of_eof _ hk]
      · obtain ⟨e, ⟨next, hend, hlt, he⟩ | ⟨hnone, he⟩⟩ := events_first h hk
        · have hle : m + 1 - e.cost ≤ n + 1 - e.cost := by omega
          obtain ⟨hfirst, htake⟩ := ih _ (hlen ▸ hlt) hle hend rfl
          rw [he m, he n, List.filterMap_cons, List.filterMap_cons, htake]
          refine ⟨List.cons_prefix_cons.2 ⟨rfl, hfirst⟩, ?_⟩
          cases hd : e.diagnostic? with
          | none => simp [Event.cost, hd]
          | some d => simp [Event.cost, hd]
        · simp [he m, he n, hnone]

end Cursor

/-! ## Measures of the first items -/

/-- `s.Begins t`: the measures of `s` are the first measures of `t`, with the same numbers, except
that the last one may lack notes and rests at its end. -/
def Score.Begins (s t : Score) : Prop :=
  ∀ (i : Nat) (m : Measure), s.measures[i]? = some m →
    ∃ m', t.measures[i]? = some m' ∧ m.number = m'.number ∧ m.elements <+: m'.elements ∧
      (i + 1 < s.measures.length → m = m')

/-- More items go on with the last group and may open new ones. -/
theorem groups_append (xs ys : List Item) :
    ∃ full last more rest, Item.groups xs = full ++ [last] ∧
      Item.groups (xs ++ ys) = full ++ (last ++ more) :: rest := by
  induction xs with
  | nil =>
    obtain ⟨more, rest, hys⟩ := List.exists_cons_of_ne_nil (groups_ne_nil ys)
    exact ⟨[], [], more, rest, rfl, hys⟩
  | cons i xs ih =>
    obtain ⟨full, last, more, rest, hxs, hall⟩ := ih
    cases i with
    | bar =>
      refine ⟨[] :: full, last, more, rest, ?_, ?_⟩
      · simp [Item.groups, hxs]
      · simp [Item.groups, hall]
    | clef c => exact ⟨full, last, more, rest, hxs, hall⟩
    | time t => exact ⟨full, last, more, rest, hxs, hall⟩
    | element e =>
      cases full with
      | nil =>
        refine ⟨[], e :: last, more, rest, ?_, ?_⟩
        · simp [Item.groups, hxs]
        · simp [Item.groups, hall]
      | cons g full =>
        refine ⟨(e :: g) :: full, last, more, rest, ?_, ?_⟩
        · simp [Item.groups, hxs]
        · simp [Item.groups, hall]

theorem getElem?_numberFrom (n : Nat) (gs : List (List Element)) (i : Nat) :
    (Measure.numberFrom n gs)[i]? = gs[i]?.map fun g => ⟨n + i, g⟩ := by
  induction gs generalizing n i with
  | nil => rfl
  | cons g gs ih =>
    cases i with
    | zero => rfl
    | succ i =>
      rw [Measure.numberFrom, List.getElem?_cons_succ, List.getElem?_cons_succ, ih]
      congr 2
      funext g
      congr 1
      omega

/-- The score of the first items begins the score of all of them. -/
theorem begins_ofItems {xs ys : List Item} (h : xs <+: ys) :
    (Score.ofItems xs).Begins (Score.ofItems ys) := by
  obtain ⟨zs, rfl⟩ := h
  obtain ⟨full, last, more, rest, hxs, hall⟩ := groups_append xs zs
  intro i m hm
  simp only [Score.ofItems, hxs, hall, getElem?_numberFrom, length_numberFrom,
    List.filter_append, List.filter_cons, List.filter_nil] at hm ⊢
  obtain ⟨g, hg, rfl⟩ := Option.map_eq_some_iff.1 hm
  by_cases hi : i < (full.filter (!·.isEmpty)).length
  · -- A group that a bar line has closed stays as it is.
    rw [List.getElem?_append_left hi] at hg ⊢
    exact ⟨_, by rw [hg]; rfl, rfl, List.prefix_rfl, fun _ => rfl⟩
  · rw [List.getElem?_append_right (by omega)] at hg ⊢
    cases last with
    | nil => simp at hg
    | cons e es =>
      obtain ⟨hzero, rfl⟩ : i - (full.filter (!·.isEmpty)).length = 0 ∧ e :: es = g := by
        simpa [List.getElem?_singleton] using hg
      rw [hzero]
      refine ⟨⟨1 + i, e :: es ++ more⟩, rfl, rfl, List.prefix_append _ _, fun hlast => ?_⟩
      simp only [List.isEmpty_cons, Bool.not_false, List.length_append, List.length_singleton,
        if_true] at hlast
      omega

/-! ## Parsing under two limits -/

theorem take_append_take {α : Type} (xs ys : List α) (n : Nat) :
    (xs ++ ys.take n).take n = (xs ++ ys).take n := by
  rw [List.take_append, List.take_append, List.take_take, Nat.min_eq_left (Nat.sub_le _ _)]

/-- **The limit on errors only cuts off.** For every text, the result under a limit is that under a
larger limit with its list of diagnostics cut off. It is a success under both or under neither, has
a score under both or under neither, and the measures of the one score begin those of the other.
Limits below one count as one. -/
theorem parseText_truncates (strict keepGoing : Bool) {m n : Int} (hmn : m ≤ n) (text : String) :
    ∃ few many, parseText ⟨strict, keepGoing, m⟩ text = .ok few ∧
      parseText ⟨strict, keepGoing, n⟩ text = .ok many ∧
      few.diagnostics =
        many.diagnostics.take (min (max 1 m).toNat many.diagnostics.length) ∧
      few.success = many.success ∧ (few.score = none ↔ many.score = none) ∧
      ∀ s t, few.score = some s → many.score = some t → s.Begins t := by
  have hle : ParserOptions.limit ⟨strict, keepGoing, m⟩ ≤
      ParserOptions.limit ⟨strict, keepGoing, n⟩ := by
    simp only [ParserOptions.limit]
    omega
  have hpos : 0 < ParserOptions.limit ⟨strict, keepGoing, m⟩ := by
    simp only [ParserOptions.limit]
    omega
  obtain ⟨hfirst, htake⟩ := Cursor.events_truncated hle (hasEnd_textCursor text)
  refine ⟨_, _, parseText_eq _ text, parseText_eq _ text, ?_⟩
  have hlimit : (max 1 m).toNat = ParserOptions.limit ⟨strict, keepGoing, m⟩ := rfl
  rw [hlimit, ← List.take_eq_take_min]
  dsimp only
  split
  · exact ⟨by rw [List.take_take, Nat.min_eq_left hle], rfl, Iff.rfl, by simp⟩
  · simp only [ParseResult.ofEvents, htake]
    refine ⟨?_, ?_, by simp, ?_⟩
    · rw [take_append_take, List.take_take, Nat.min_eq_left hle]
    · -- The limit is at least one, so what is cut off never leaves an empty list behind.
      cases ((textCursor text).events _).filterMap Event.diagnostic? with
      | nil => rw [List.take_nil]
      | cons d ds =>
        obtain ⟨k, hk⟩ : ∃ k, ParserOptions.limit ⟨strict, keepGoing, m⟩ = k + 1 :=
          ⟨_, (Nat.succ_pred_eq_of_pos hpos).symm⟩
        rw [hk, List.take_succ_cons]
        rfl
    · rintro s t ⟨⟩ ⟨⟩
      exact begins_ofItems (hfirst.filterMap Event.item?)

/-- With two malformed notes in the text, a limit of none, which counts as one, shows the first of
the two diagnostics and the measure before the bar line, cut short. -/
theorem parseText_truncates_at_one :
    ∃ few many, parseText ⟨true, false, 0⟩ "C4 q H4 q D4 q | E4 q x4 q" = .ok few ∧
      parseText ⟨true, false, 10⟩ "C4 q H4 q D4 q | E4 q x4 q" = .ok many ∧
      many.diagnostics.length = 2 ∧ few.diagnostics = many.diagnostics.take 1 ∧
      few.success = many.success := by
  obtain ⟨few, many, hfew, hmany, hd, hs, -⟩ :=
    parseText_truncates true false (m := 0) (n := 10) (by decide) "C4 q H4 q D4 q | E4 q x4 q"
  have hcount : (parseText ⟨true, false, 10⟩ "C4 q H4 q D4 q | E4 q x4 q").toOption.map
      (·.diagnostics.length) = some 2 := by decide +kernel
  rw [hmany] at hcount
  have htwo : many.diagnostics.length = 2 := Option.some.inj hcount
  rw [htwo] at hd
  exact ⟨few, many, hfew, hmany, htwo, hd, hs⟩

end ScoreText
