import ScoreText.Proofs.Reading

/-!
Whole runs of reading. Whether a reading skips ahead after a malformed item can only be seen when
its limit allows for more than one problem, so the runs of the parser are those that always skip
ahead (`readEvents_eq_events`). With an end token ahead, such a run is made of the steps that
`Advance` lists, so a property of runs is proved case by case (`events_induction`). On tokens from a
lexer no run breaks off (`fault?_events`).
-/

namespace ScoreText

namespace Cursor

/-! ## Skipping ahead -/

private theorem hasEnd_resumeFrom (before : List Token) (t : Token) (after : List Token)
    (h : ∃ u ∈ t :: after, u.kind = .eof) : (resumeFrom before t after).HasEnd := by
  induction after generalizing before t with
  | nil => exact h
  | cons u rest ih =>
    have hrest : t.kind ≠ .eof → ∃ v ∈ u :: rest, v.kind = .eof := by
      intro hk
      obtain ⟨v, hv, he⟩ := h
      rcases List.mem_cons.1 hv with rfl | hv
      · exact absurd he hk
      · exact ⟨v, hv, he⟩
    unfold resumeFrom
    split
    · exact h
    · next hstop =>
      have hk : t.kind ≠ .eof := fun he => hstop (.inl he)
      split
      · exact hrest hk
      · exact ih _ _ (hrest hk)

theorem hasEnd_recover {c : Cursor} (h : c.HasEnd) : c.recover.HasEnd :=
  hasEnd_resumeFrom _ _ _ h

theorem isStuck_of_hasEnd {c : Cursor} (h : c.HasEnd) : c.isStuck = false := by
  obtain ⟨before, current, after⟩ := c
  cases after with
  | cons t rest => rfl
  | nil =>
    obtain ⟨t, ht, he⟩ := h
    obtain rfl : t = current := List.mem_singleton.1 ht
    simp [isStuck, isAtEnd, he]

private theorem suffix_resumeFrom (before : List Token) (t : Token) (after : List Token) :
    (resumeFrom before t after).ahead <:+ t :: after := by
  induction after generalizing before t with
  | nil => exact List.suffix_refl _
  | cons u rest ih =>
    unfold resumeFrom
    split
    · exact List.suffix_refl _
    · split
      · exact List.suffix_cons _ _
      · exact (ih _ _).trans (List.suffix_cons _ _)

/-- Skipping ahead only drops tokens. -/
theorem suffix_recover (c : Cursor) : c.recover.ahead <:+ c.ahead := suffix_resumeFrom _ _ _

/-! ## Runs -/

/-- The events of a reading that skips ahead after every malformed item. -/
def events (limit : Nat) (c : Cursor) : List Event := c.readEvents true limit

theorem readEvents_zero (recovers : Bool) (c : Cursor) : c.readEvents recovers 0 = [] := by
  unfold readEvents
  simp

theorem readEvents_of_eof {c : Cursor} (recovers : Bool) (limit : Nat)
    (h : c.current.kind = .eof) : c.readEvents recovers limit = [] := by
  unfold readEvents
  simp [isAtEnd, h]

theorem events_zero (c : Cursor) : c.events 0 = [] := readEvents_zero true c

theorem events_of_eof {c : Cursor} (limit : Nat) (h : c.current.kind = .eof) :
    c.events limit = [] :=
  readEvents_of_eof true limit h

theorem after_ne_nil {c : Cursor} (h : c.HasEnd) (hk : c.current.kind ≠ .eof) :
    c.after ≠ [] := by
  have ha := (Along.first h hk).ahead
  have hc : c.after = c.advance.ahead := (List.cons.inj ha).2
  simp [hc, Cursor.ahead]

private theorem readEvents_succ {c : Cursor} (recovers : Bool) (limit : Nat) (h : c.HasEnd)
    (hk : c.current.kind ≠ .eof) :
    c.readEvents recovers (limit + 1) =
      match c.step with
      | .item i next => .item i :: next.readEvents recovers (limit + 1)
      | .stray d next => .stray d :: next.readEvents recovers limit
      | .failed d next =>
        .failed d next.current.position ::
          if recovers then next.recover.readEvents recovers limit else []
      | .broken f _ => [.broken f] := by
  have hafter := after_ne_nil h hk
  have hstep := step_cases h hk
  rw [readEvents]
  have hgo : ¬ (limit + 1 = 0 ∨ c.isAtEnd = true) := by simp [isAtEnd, hk]
  rw [if_neg hgo]
  split
  · next hs => simp [hs, hafter]
  · next hs => simp [hs]
  · next hs =>
    rw [hs] at hstep
    cases hstep with
    | failed ha _ => cases recovers <;> simp [hs, isStuck_of_hasEnd (hasEnd_recover ha.hasEnd)]
  · next hs => simp [hs]

/-- A run with a problem to spare begins with the step from the cursor. -/
theorem events_succ {c : Cursor} (limit : Nat) (h : c.HasEnd)
    (hk : c.current.kind ≠ .eof) :
    c.events (limit + 1) =
      match c.step with
      | .item i next => .item i :: next.events (limit + 1)
      | .stray d next => .stray d :: next.events limit
      | .failed d next => .failed d next.current.position :: next.recover.events limit
      | .broken f _ => [.broken f] :=
  readEvents_succ true limit h hk

/-- Where one problem is the limit, the first malformed item ends the reading, whether it would
skip ahead or not. -/
theorem readEvents_one (recovers : Bool) {c : Cursor} (h : c.HasEnd) :
    c.readEvents recovers 1 = c.events 1 := by
  induction hn : c.remaining using Nat.strongRecOn generalizing c with
  | ind n ih =>
    by_cases hk : c.current.kind = .eof
    · rw [readEvents_of_eof recovers 1 hk, events_of_eof 1 hk]
    · have hstep := step_cases h hk
      rw [readEvents_succ recovers 0 h hk, events_succ 0 h hk]
      cases hs : c.step with
      | item i next =>
        rw [hs] at hstep
        cases hstep with
        | item ha _ =>
          have hpos := List.length_pos_iff.2 (after_ne_nil h hk)
          have hle : next.remaining ≤ c.remaining - 1 := within_of_step_eq hs
          have hlt : next.remaining < n := by
            unfold remaining at *
            omega
          exact congrArg (Event.item i :: ·) (ih _ hlt ha.hasEnd rfl)
      | stray d next => simp [readEvents_zero, events_zero]
      | failed d next => simp [readEvents_zero, events_zero]
      | broken f next => rfl

/-- A parser that does not recover records one problem only. -/
theorem limit_of_not_canRecover {options : ParserOptions} (h : options.canRecover = false) :
    options.limit = 1 := by
  simp only [ParserOptions.canRecover, Bool.or_eq_false_iff, decide_eq_false_iff_not] at h
  have hpos : 1 ≤ options.limit := by
    unfold ParserOptions.limit
    omega
  omega

/-- Whether the options let the parser recover makes no difference to the events. -/
theorem readEvents_eq_events (options : ParserOptions) {c : Cursor} (h : c.HasEnd) :
    c.readEvents options.canRecover options.limit = c.events options.limit := by
  cases hr : options.canRecover with
  | true => rfl
  | false =>
    rw [limit_of_not_canRecover hr]
    exact readEvents_one false h

theorem events_of_step_eq_item {c next : Cursor} {i : Item} (limit : Nat) (h : c.HasEnd)
    (hk : c.current.kind ≠ .eof) (hs : c.step = .item i next) :
    c.events (limit + 1) = .item i :: next.events (limit + 1) := by
  rw [events_succ limit h hk, hs]

/-- What holds of every run, step by step. The limit goes down with each problem. -/
theorem events_induction {motive : Nat → (c : Cursor) → c.HasEnd → Prop}
    (stop : ∀ c h, motive 0 c h)
    (atEnd : ∀ limit c h, c.current.kind = .eof → motive limit c h)
    (item : ∀ limit c h run i next, (ha : Along c run next) →
      ((∀ t ∈ run, t.Lexical) → Phrase run i) → c.step = .item i next →
      c.events (limit + 1) = .item i :: next.events (limit + 1) →
      motive (limit + 1) next ha.hasEnd → motive (limit + 1) c h)
    (stray : ∀ limit c h d next, (ha : Along c [c.current] next) →
      c.current.opensItem = false → c.current.kind ≠ .pipe → c.step = .stray d next →
      c.events (limit + 1) = .stray d :: next.events limit →
      motive limit next ha.hasEnd → motive (limit + 1) c h)
    (failed : ∀ limit c h run d next, (ha : Along c run next) →
      c.current.opensItem = true → c.step = .failed d next →
      c.events (limit + 1) = .failed d next.current.position :: next.recover.events limit →
      motive limit next.recover (hasEnd_recover ha.hasEnd) → motive (limit + 1) c h)
    (broken : ∀ limit c h f t {next}, t ∈ c.ahead → ¬ t.Lexical → c.step = .broken f next →
      c.events (limit + 1) = [.broken f] → motive (limit + 1) c h)
    (limit : Nat) (c : Cursor) (h : c.HasEnd) : motive limit c h := by
  induction hn : c.ahead.length using Nat.strongRecOn generalizing limit c with
  | ind n ih =>
    subst hn
    cases limit with
    | zero => exact stop c h
    | succ limit =>
      by_cases hk : c.current.kind = .eof
      · exact atEnd _ c h hk
      · have he := events_succ limit h hk
        have hstep := step_cases h hk
        cases hs : c.step with
        | item i next =>
          rw [hs] at hstep he
          cases hstep with
          | item ha hp => exact item _ _ _ _ _ _ ha hp hs he (ih _ ha.length_lt _ next _ rfl)
        | stray d next =>
          rw [hs] at hstep he
          cases hstep with
          | stray ha ho hpipe =>
            exact stray _ _ _ _ _ ha ho hpipe hs he (ih _ ha.length_lt _ next _ rfl)
        | failed d next =>
          rw [hs] at hstep he
          cases hstep with
          | failed ha ho =>
            have hle := (suffix_recover next).length_le
            have hlt := ha.length_lt
            exact failed _ _ _ _ _ _ ha ho hs he (ih _ (by omega) _ next.recover _ rfl)
        | broken f next =>
          rw [hs] at hstep he
          cases hstep with
          | broken _ ht hlex => exact broken _ _ _ _ _ ht hlex hs he

theorem kind_ne_eof_of_events {c : Cursor} {limit : Nat} {e : Event} {es : List Event}
    (h : c.events limit = e :: es) : c.current.kind ≠ .eof := by
  intro hk
  rw [events_of_eof limit hk] at h
  cases h

theorem Along.lexical {s c : Cursor} {run : List Token} (h : Along s run c)
    (hlex : ∀ t ∈ s.ahead, t.Lexical) :
    (∀ t ∈ run, t.Lexical) ∧ ∀ t ∈ c.ahead, t.Lexical := by
  rw [h.ahead] at hlex
  exact ⟨fun t ht => hlex t (List.mem_append_left _ ht),
    fun t ht => hlex t (List.mem_append_right _ ht)⟩

/-- A run over tokens from a lexer never breaks off. -/
theorem fault?_events {c : Cursor} (limit : Nat) (h : c.HasEnd)
    (hlex : ∀ t ∈ c.ahead, t.Lexical) : (c.events limit).findSome? Event.fault? = none := by
  induction limit, c, h using events_induction with
  | stop c h => simp [events_zero]
  | atEnd limit c h hk => simp [events_of_eof limit hk]
  | item limit c h run i next ha hp hs he ih =>
    rw [he]
    exact ih (ha.lexical hlex).2
  | stray limit c h d next ha ho hpipe hs he ih =>
    rw [he]
    exact ih (ha.lexical hlex).2
  | failed limit c h run d next ha ho hs he ih =>
    rw [he]
    exact ih fun t ht => (ha.lexical hlex).2 t ((suffix_recover next).subset ht)
  | broken limit c h f t ht hnot hs he => exact absurd (hlex t ht) hnot

end Cursor

/-! ## The run over a text -/

theorem limit_pos (options : ParserOptions) : ∃ n, options.limit = n + 1 := by
  refine ⟨options.limit - 1, ?_⟩
  unfold ParserOptions.limit
  omega

/-- A cursor has all tokens ahead that are not white space. -/
theorem Cursor.ahead_ofTokens {tokens : List Token} (h : tokens.filter (!·.kind.isTrivia) ≠ []) :
    (Cursor.ofTokens tokens).ahead = tokens.filter (!·.kind.isTrivia) := by
  unfold ofTokens
  split
  · next hnil => exact absurd hnil h
  · next t rest heq =>
    rw [heq]
    rfl

theorem hasEnd_ofTokens {tokens : List Token} (h : ∃ t ∈ tokens, t.kind = .eof) :
    (Cursor.ofTokens tokens).HasEnd := by
  obtain ⟨t, ht, hk⟩ := h
  have hkept : t ∈ tokens.filter (!·.kind.isTrivia) := by simp [ht, hk, Kind.isTrivia]
  refine ⟨t, ?_, hk⟩
  rw [Cursor.ahead_ofTokens (List.ne_nil_of_mem hkept)]
  exact hkept

def textCursor (text : String) : Cursor := .ofTokens (significantTokens text)

theorem ahead_textCursor (text : String) : (textCursor text).ahead = significantTokens text := by
  have hfilter : (significantTokens text).filter (!·.kind.isTrivia) = significantTokens text :=
    List.filter_eq_self.2 fun t ht => by simp [isTrivia_of_mem_significantTokens ht]
  have hne : significantTokens text ≠ [] := by
    rw [significantTokens_eq]
    simp
  rw [textCursor, Cursor.ahead_ofTokens (by rwa [hfilter]), hfilter]

theorem hasEnd_textCursor (text : String) : (textCursor text).HasEnd := by
  refine ⟨.endAt (Position.start.after text.toList), ?_, rfl⟩
  rw [ahead_textCursor, significantTokens_eq]
  simp

theorem lexical_textCursor (text : String) : ∀ t ∈ (textCursor text).ahead, t.Lexical := by
  intro t ht
  rw [ahead_textCursor] at ht
  exact lexical_of_mem_significantTokens ht

/-- Tokens with an end among them, all with texts of their kinds, are parsed to the result that the
events of reading them amount to. -/
theorem parseTokens_eq_ofEvents (options : ParserOptions) {tokens : List Token}
    (hend : ∃ t ∈ tokens, t.kind = .eof)
    (hlex : ∀ t ∈ (Cursor.ofTokens tokens).ahead, t.Lexical) :
    parseTokens options tokens =
      .ok (.ofEvents ((Cursor.ofTokens tokens).events options.limit)) := by
  have hfault := Cursor.fault?_events options.limit (hasEnd_ofTokens hend) hlex
  have hevents : tokenEvents options tokens = (Cursor.ofTokens tokens).events options.limit :=
    Cursor.readEvents_eq_events options (hasEnd_ofTokens hend)
  simp only [parseTokens]
  rw [hevents, hfault]

/-- Parsing the tokens of a text always gives a result. -/
theorem parseTokens_significantTokens (options : ParserOptions) (text : String) :
    parseTokens options (significantTokens text) =
      .ok (.ofEvents ((textCursor text).events options.limit)) := by
  refine parseTokens_eq_ofEvents options ?_ (lexical_textCursor text)
  rw [← ahead_textCursor]
  exact hasEnd_textCursor text

end ScoreText
