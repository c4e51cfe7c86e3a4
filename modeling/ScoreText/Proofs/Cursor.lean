import ScoreText.Token.Cursor

/-!
A cursor is an index into the tokens it holds. The view of a cursor is the pair of its tokens and
its position: the first never changes, the second is in range, and every call is described by what
it does to the second and by the token it shows (`cursor_in_range`). What one call keeps, a sequence
of calls keeps.
-/

namespace ScoreText

namespace Cursor

/-! ## Tokens and position -/

section View

variable (c : Cursor)

theorem tokens_ne_nil : c.tokens ≠ [] := by
  simp [tokens]

theorem length_tokens : c.tokens.length = c.position + 1 + c.after.length := by
  rw [tokens, position, List.length_append, List.length_reverse, List.length_cons]
  omega

theorem position_lt : c.position < c.tokens.length := by
  rw [length_tokens]
  omega

theorem current_mem_tokens : c.current ∈ c.tokens := by
  simp [tokens]

/-- The tokens from the cursor on. -/
theorem getElem?_tokens_add (n : Nat) :
    c.tokens[c.position + n]? = (c.current :: c.after)[n]? := by
  rw [tokens, List.getElem?_append_right (by simp [position])]
  simp [position]

/-- The tokens before the cursor, the nearest one first. -/
theorem getElem?_tokens_sub {n : Nat} (h : n < c.before.length) :
    c.tokens[c.position - 1 - n]? = c.before[n]? := by
  rw [tokens, position, List.getElem?_append_left (by simp; omega),
    List.getElem?_reverse (by omega)]
  congr 1
  omega

/-- The cursor stands on the token at its position. -/
theorem getElem?_position : c.tokens[c.position]? = some c.current :=
  c.getElem?_tokens_add 0

end View

/-- Reading beyond the end of a list shows its last member. -/
private theorem getElem?_min {α : Type} {l : List α} (h : l ≠ []) (n : Nat) (a : α) :
    l[min n (l.length - 1)]? = some (l.getD n (l.getLastD a)) := by
  have hpos := List.length_pos_iff.2 h
  rcases Nat.lt_or_ge n l.length with hn | hn
  · rw [Nat.min_eq_left (by omega), List.getD_eq_getElem?_getD, List.getElem?_eq_getElem hn]
    rfl
  · rw [Nat.min_eq_right (by omega), List.getD_eq_getElem?_getD, List.getElem?_eq_none hn,
      List.getElem?_eq_getElem (by omega), List.getLastD_eq_getLast?,
      List.getLast?_eq_getElem?, List.getElem?_eq_getElem (by omega)]
    rfl

/-- Looking ahead and back: the place that is meant is moved into the range of the tokens. -/
theorem getElem?_peek (c : Cursor) (n : Int) :
    c.tokens[(min (max (c.position + n) 0) (c.tokens.length - 1)).toNat]? = some (c.peek n) := by
  have hlength := c.length_tokens
  cases n with
  | ofNat n =>
    have hplace : (min (max (c.position + Int.ofNat n) 0) (c.tokens.length - 1)).toNat =
        c.position + min n ((c.current :: c.after).length - 1) := by
      rw [List.length_cons, Int.ofNat_eq_natCast]
      omega
    rw [hplace, getElem?_tokens_add]
    exact getElem?_min (List.cons_ne_nil _ _) n c.current
  | negSucc n =>
    cases hbefore : c.before with
    | nil =>
      have hstart : c.position = 0 := by rw [position, hbefore, List.length_nil]
      have hplace : (min (max (c.position + Int.negSucc n) 0) (c.tokens.length - 1)).toNat =
          c.position := by omega
      rw [hplace, getElem?_position, peek, hbefore]
      rfl
    | cons t rest =>
      -- the tokens before the cursor are held in reverse, so looking back reads them forwards
      have hposition : c.position = c.before.length := rfl
      have hpos : 0 < c.before.length := by rw [hbefore]; exact Nat.succ_pos _
      have hplace : (min (max (c.position + Int.negSucc n) 0) (c.tokens.length - 1)).toNat =
          c.position - 1 - min n (c.before.length - 1) := by omega
      rw [hplace, getElem?_tokens_sub c (by omega)]
      exact getElem?_min (List.ne_nil_of_length_pos hpos) n c.current

/-! ## Moves -/

theorem tokens_advance (c : Cursor) : c.advance.tokens = c.tokens := by
  unfold advance
  split
  · rfl
  · next t rest hafter => simp [tokens, hafter]

theorem position_advance (c : Cursor) :
    c.advance.position = min (c.position + 1) (c.tokens.length - 1) := by
  rw [length_tokens]
  unfold advance
  split
  · next hafter =>
    rw [hafter, List.length_nil]
    omega
  · next t rest hafter =>
    rw [hafter, List.length_cons]
    simp only [position, List.length_cons]
    omega

theorem tokens_reset (c : Cursor) : c.reset.tokens = c.tokens := by
  unfold reset
  split
  · rfl
  · next t rest htokens =>
    rw [htokens]
    rfl

theorem position_reset (c : Cursor) : c.reset.position = 0 := by
  unfold reset
  split
  · next hnil => exact absurd hnil c.tokens_ne_nil
  · rfl

theorem reset_congr {c d : Cursor} (h : c.tokens = d.tokens) : c.reset = d.reset := by
  unfold reset
  rw [h]
  split
  · next hnil => exact absurd hnil d.tokens_ne_nil
  · rfl

/-! ## Calls -/

section Calls

variable {c : Cursor} {kind : Kind} (message : String)

theorem handle_consume_of_eq (h : c.current.kind = kind) :
    c.handle (.consume kind message) = c.handle .advance := by
  simp [handle, consume, h]

theorem handle_consume_of_ne (h : c.current.kind ≠ kind) :
    c.handle (.consume kind message) = (c, .refused
      (if message = "" then .unexpected kind c.current.kind else .reported message)) := by
  by_cases hmessage : message = ""
  · simp only [handle, consume, if_neg h, if_pos hmessage]
  · simp only [handle, consume, if_neg h, if_neg hmessage]

/-- The calls that may move a cursor. -/
theorem handle_cases (c : Cursor) (call : CursorCall) :
    (c.handle call).1 = c ∨ call = .advance ∨ call = .reset ∨
      ∃ message, call = .consume c.current.kind message := by
  cases call with
  | advance => exact .inr (.inl rfl)
  | reset => exact .inr (.inr (.inl rfl))
  | consume kind message =>
    by_cases hkind : c.current.kind = kind
    · exact .inr (.inr (.inr ⟨message, hkind ▸ rfl⟩))
    · rw [handle_consume_of_ne message hkind]
      exact .inl rfl
  | current => exact .inl rfl
  | peek offset => exact .inl rfl
  | isAny kinds => exact .inl rfl
  | isAtEnd => exact .inl rfl
  | size => exact .inl rfl

end Calls

/-- No call changes the tokens. -/
theorem tokens_handle (c : Cursor) (call : CursorCall) : (c.handle call).1.tokens = c.tokens := by
  obtain hstays | rfl | rfl | ⟨message, rfl⟩ := c.handle_cases call
  · rw [hstays]
  · exact c.tokens_advance
  · exact c.tokens_reset
  · rw [handle_consume_of_eq message rfl]
    exact c.tokens_advance

/-- `c.Indexes held`: the cursor is a place in the list of the tokens it holds, and only some calls
lead to another place. -/
structure Indexes (c : Cursor) (held : List Token) : Prop where
  tokens : c.tokens = held
  inRange : c.position < held.length
  current : held[c.position]? = some c.current
  /-- A place beyond either end stands for that end. -/
  peek (n : Int) : ∃ t, held[(min (max (c.position + n) 0) (held.length - 1)).toNat]? = some t ∧
    c.handle (.peek n) = (c, .token t)
  moved {call : CursorCall} : (c.handle call).1 ≠ c → call = .advance ∨ call = .reset ∨
    ∃ kind message t, call = .consume kind message ∧ (c.handle call).2 = .token t
  advance : (c.handle .advance).2 = .token c.current ∧
    (c.handle .advance).1.position = min (c.position + 1) (held.length - 1)
  consume {kind : Kind} (message : String) : c.current.kind = kind →
    c.handle (.consume kind message) = c.handle .advance
  refused_iff (kind : Kind) (message : String) :
    (∃ fault, (c.handle (.consume kind message)).2 = .refused fault) ↔ c.current.kind ≠ kind
  refused {call : CursorCall} {fault : CursorFault} : (c.handle call).2 = .refused fault →
    (c.handle call).1 = c
  reset : (c.handle .reset).1.position = 0

theorem indexes (c : Cursor) : c.Indexes c.tokens where
  tokens := rfl
  inRange := c.position_lt
  current := c.getElem?_position
  peek n := ⟨_, c.getElem?_peek n, rfl⟩
  moved {call} hmoved := by
    obtain hstays | rfl | rfl | ⟨message, rfl⟩ := c.handle_cases call
    · exact absurd hstays hmoved
    · exact .inl rfl
    · exact .inr (.inl rfl)
    · exact .inr (.inr ⟨_, message, _, rfl, by rw [handle_consume_of_eq message rfl]; rfl⟩)
  advance := ⟨rfl, c.position_advance⟩
  consume message hkind := handle_consume_of_eq message hkind
  refused_iff kind message := by
    constructor
    · rintro ⟨fault, hfault⟩ hkind
      rw [handle_consume_of_eq message hkind] at hfault
      cases hfault
    · intro hkind
      exact ⟨_, by rw [handle_consume_of_ne message hkind]⟩
  refused {call fault} hfault := by
    obtain hstays | rfl | rfl | ⟨message, rfl⟩ := c.handle_cases call
    · exact hstays
    · cases hfault
    · cases hfault
    · rw [handle_consume_of_eq message rfl] at hfault
      cases hfault
  reset := c.position_reset

/-! ## Sequences of calls -/

def afterCalls (c : Cursor) (calls : List CursorCall) : Cursor :=
  calls.foldl (fun c call => (c.handle call).1) c

theorem afterCalls_append (c : Cursor) (calls calls' : List CursorCall) :
    c.afterCalls (calls ++ calls') = (c.afterCalls calls).afterCalls calls' :=
  List.foldl_append

theorem tokens_afterCalls (c : Cursor) (calls : List CursorCall) :
    (c.afterCalls calls).tokens = c.tokens := by
  induction calls generalizing c with
  | nil => rfl
  | cons call calls ih => exact (ih (c.handle call).1).trans (c.tokens_handle call)

/-- Advancing again and again from the start leads on token by token, up to the last one. -/
theorem position_advances (c : Cursor) (i : Nat) :
    (c.reset.afterCalls (.replicate i .advance)).position = min i (c.tokens.length - 1) := by
  induction i with
  | zero => rw [Nat.zero_min]; exact c.position_reset
  | succ i ih =>
    rw [List.replicate_succ', afterCalls_append]
    show (advance _).position = _
    rw [position_advance, ih, tokens_afterCalls, tokens_reset]
    omega

end Cursor

/-- The tokens of a list without white space and line ends, or an end token at no place if there are
no others. -/
def heldTokens (tokens : List Token) : List Token :=
  match tokens.filter fun t => t.kind ≠ .whitespace ∧ t.kind ≠ .newline with
  | [] => [.endAt .nowhere]
  | held => held

theorem tokens_ofTokens (tokens : List Token) :
    (Cursor.ofTokens tokens).tokens = heldTokens tokens := by
  have hkept : tokens.filter (!·.kind.isTrivia) =
      tokens.filter fun t => t.kind ≠ .whitespace ∧ t.kind ≠ .newline := by
    refine List.filter_congr fun t _ => ?_
    cases t.kind <;> rfl
  unfold Cursor.ofTokens heldTokens
  rw [hkept]
  split
  · next hnil => rw [hnil]; rfl
  · next t rest hcons => rw [hcons]; rfl

/-- **The cursor is always in range and only moves as it should.** Whatever calls have been made,
the cursor holds the tokens it was made of, it is a place in the list of these tokens, and no call
but advancing, a consumption that succeeds and a reset leads to another place (`Cursor.Indexes`).
After a reset, advancing shows the tokens one by one, and then the last one for ever. -/
theorem cursor_in_range (tokens : List Token) (calls : List CursorCall) :
    let held := heldTokens tokens
    ((Cursor.ofTokens tokens).afterCalls calls).Indexes held ∧
    ∀ i, let c := (Cursor.ofTokens tokens).afterCalls (calls ++ .reset :: .replicate i .advance)
      (∃ t, held[min i (held.length - 1)]? = some t ∧ (c.handle .advance).2 = .token t) ∧
      (c.handle .advance).1.position = min (i + 1) (held.length - 1) := by
  intro held
  have hindexes (cs : List CursorCall) : ((Cursor.ofTokens tokens).afterCalls cs).Indexes held := by
    have hheld : ((Cursor.ofTokens tokens).afterCalls cs).tokens = held :=
      (Cursor.tokens_afterCalls _ cs).trans (tokens_ofTokens tokens)
    exact hheld ▸ Cursor.indexes _
  refine ⟨hindexes calls, fun i => ?_⟩
  intro c
  have hc : c.Indexes held := hindexes _
  have hplace : c.position = min i (held.length - 1) := by
    have hadvances := ((Cursor.ofTokens tokens).afterCalls calls).position_advances i
    rw [(hindexes calls).tokens] at hadvances
    show ((Cursor.ofTokens tokens).afterCalls _).position = _
    rw [Cursor.afterCalls_append]
    exact hadvances
  refine ⟨⟨c.current, hplace ▸ hc.current, hc.advance.1⟩, ?_⟩
  rw [hc.advance.2, hplace]
  omega

end ScoreText
