import ScoreText.Proofs.Measures
import ScoreText.Proofs.Run

/-!
Reading in spite of malformed items. As long as the limit on problems is not reached, a reading
finds what a scan finds that looks at one token after the other and remembers only whether it is
inside a malformed item (`items_events`). So the notes, rests and declarations of the score are
those that start anywhere in the token list, each place looked at by itself
(`parseTokens_recovers`).
-/

namespace ScoreText

/-! ## The scan -/

/-- The items in a token list, with the tokens they start at. Once a malformed item has begun,
`lost` is set until the next item, bar line or word, and a bar line is then passed over. -/
def itemsFrom (lost : Bool) : List Token → List (Token × Item)
  | [] => []
  | t :: rest =>
    match itemAt? (t :: rest) with
    | some .bar => if lost then itemsFrom false rest else (t, .bar) :: itemsFrom false rest
    | some i => (t, i) :: itemsFrom false rest
    | none => itemsFrom (t.opensItem || (lost && !t.kind.startsElement)) rest

/-- The items that start somewhere in a token list, each place looked at by itself. -/
def itemsAnywhere (tokens : List Token) : List Item :=
  (List.range tokens.length).filterMap fun n => itemAt? (tokens.drop n)

theorem itemsAnywhere_cons (t : Token) (rest : List Token) :
    itemsAnywhere (t :: rest) = (itemAt? (t :: rest)).toList ++ itemsAnywhere rest := by
  unfold itemsAnywhere
  rw [List.length_cons, List.range_succ_eq_map, List.filterMap_cons, List.filterMap_map,
    List.drop_zero]
  cases itemAt? (t :: rest) with
  | none => rfl
  | some i => rfl

/-- The scan passes over nothing but bar lines. -/
theorem filterMap_itemsFrom {α : Type} (f : Item → Option α) (hf : f .bar = none) (lost : Bool)
    (tokens : List Token) :
    ((itemsFrom lost tokens).map Prod.snd).filterMap f = (itemsAnywhere tokens).filterMap f := by
  induction tokens generalizing lost with
  | nil => rfl
  | cons t rest ih =>
    rw [itemsAnywhere_cons, List.filterMap_append, itemsFrom]
    split
    · next h => cases lost <;> simp [h, hf, ih]
    · next i _ h => cases hi : f i <;> simp [h, hi, ih]
    · next h => simp [h, ih]

theorem itemAt?_of_pipe {t : Token} (h : t.kind = .pipe) (rest : List Token) :
    itemAt? (t :: rest) = some .bar :=
  itemAt?_of_phrase (.bar h) rest

/-- What stands at the start of a phrase. -/
theorem opensItem_of_itemAt? {t : Token} {rest : List Token} {i : Item}
    (h : itemAt? (t :: rest) = some i) : t.opensItem = true ∨ t.kind = .pipe := by
  obtain ⟨run, after, he, hphrase⟩ := phrase_of_itemAt? h
  obtain ⟨u, us, rfl, hu, -⟩ := hphrase.eq_cons
  rwa [(List.cons.inj he).1]

theorem kind_of_itemAt?_eq_bar {t : Token} {rest : List Token}
    (h : itemAt? (t :: rest) = some .bar) : t.kind = .pipe := by
  obtain ⟨run, after, he, hp⟩ := phrase_of_itemAt? h
  cases hp with
  | bar hb => rwa [(List.cons.inj he).1]

theorem itemAt?_eq_none {t : Token} (ho : t.opensItem = false) (hp : t.kind ≠ .pipe)
    (rest : List Token) : itemAt? (t :: rest) = none := by
  rw [Option.eq_none_iff_forall_ne_some]
  intro i h
  rcases opensItem_of_itemAt? h with hu | hu
  · rw [ho] at hu
    cases hu
  · exact hp hu

theorem startsElement_of_isInner {t : Token} (h : t.kind.isInner = true) :
    t.kind.startsElement = false ∧ t.kind ≠ .pipe := by
  cases hk : t.kind <;> simp [hk, Kind.isInner, Kind.startsElement] at h ⊢

theorem startsElement_of_opensItem {t : Token} (h : t.opensItem = true) :
    t.kind.startsElement = true := by
  unfold Token.opensItem Token.isKeyword at h
  cases hk : t.kind <;> simp [hk, Kind.startsElement] at h ⊢

/-- Where an item may start, it does not matter what went before. -/
theorem itemsFrom_of_startsElement {t : Token} (h : t.kind.startsElement = true) (lost : Bool)
    (rest : List Token) : itemsFrom lost (t :: rest) = itemsFrom false (t :: rest) := by
  rw [itemsFrom.eq_2, itemsFrom.eq_2]
  split
  · next hbar =>
    rw [kind_of_itemAt?_eq_bar hbar] at h
    cases h
  · rfl
  · simp [h]

theorem itemsFrom_of_pipe {t : Token} (h : t.kind = .pipe) (rest : List Token) :
    itemsFrom true (t :: rest) = itemsFrom false rest := by
  rw [itemsFrom, itemAt?_of_pipe h]
  rfl

theorem itemsFrom_of_skipped {t : Token} (hs : t.kind.startsElement = false)
    (hp : t.kind ≠ .pipe) (lost : Bool) (rest : List Token) :
    itemsFrom lost (t :: rest) = itemsFrom lost rest := by
  have ho : t.opensItem = false := by
    rw [Bool.eq_false_iff]
    intro ho
    rw [startsElement_of_opensItem ho] at hs
    cases hs
  rw [itemsFrom, itemAt?_eq_none ho hp]
  simp [ho, hs]

/-- Tokens from inside items change nothing in a scan. -/
theorem itemsFrom_inner_append (lost : Bool) {inner : List Token} (rest : List Token)
    (h : ∀ t ∈ inner, t.kind.isInner = true) :
    itemsFrom lost (inner ++ rest) = itemsFrom lost rest := by
  induction inner with
  | nil => rfl
  | cons t inner ih =>
    obtain ⟨hs, hp⟩ := startsElement_of_isInner (h t (by simp))
    rw [List.cons_append, itemsFrom_of_skipped hs hp]
    exact ih fun u hu => h u (by simp [hu])

theorem itemsFrom_of_phrase {run : List Token} {i : Item} (h : Phrase run i)
    (rest : List Token) :
    ∃ t ts, run = t :: ts ∧ itemsFrom false (run ++ rest) = (t, i) :: itemsFrom false rest := by
  obtain ⟨t, ts, rfl, -, hts⟩ := h.eq_cons
  have hitem : itemAt? (t :: (ts ++ rest)) = some i := itemAt?_of_phrase h rest
  refine ⟨t, ts, rfl, ?_⟩
  rw [List.cons_append, itemsFrom, hitem]
  cases i <;> simp [itemsFrom_inner_append false rest hts]

/-! ## Readings and scans -/

/-- Only the last token may be an end token. -/
def EndsOnce (tokens : List Token) : Prop := tokens.Pairwise fun t _ => t.kind ≠ .eof

theorem endsOnce_significantTokens (text : String) : EndsOnce (significantTokens text) := by
  unfold EndsOnce
  rw [significantTokens_eq, List.pairwise_append]
  have hbody : ∀ t ∈ bodyTokens text, ∀ _ : Token, t.kind ≠ .eof :=
    fun t ht _ => kind_of_mem_bodyTokens ht
  exact ⟨List.pairwise_of_forall_mem_list fun t ht u _ => hbody t ht u, by simp,
    fun t ht u _ => hbody t ht u⟩

namespace Cursor

theorem ahead_of_eof {c : Cursor} (hc : EndsOnce c.ahead) (hk : c.current.kind = .eof) :
    c.ahead = [c.current] := by
  have hne := (List.pairwise_cons.1 hc).1
  have hafter : c.after = [] := by
    rw [List.eq_nil_iff_forall_not_mem]
    exact fun t ht => hne t ht hk
  rw [Cursor.ahead, hafter]

private theorem itemsFrom_of_eof {c : Cursor} (hc : EndsOnce c.ahead)
    (hk : c.current.kind = .eof) (lost : Bool) : itemsFrom lost c.ahead = [] := by
  have hnone : itemAt? [c.current] = none :=
    itemAt?_eq_none (by simp [Token.opensItem, Token.isKeyword, hk]) (by simp [hk]) []
  rw [ahead_of_eof hc hk, itemsFrom, hnone]
  rfl

/-- A scan that is lost finds its way where reading goes on. -/
private theorem itemsFrom_resumeFrom (before : List Token) (t : Token) (after : List Token)
    (hend : ∃ u ∈ t :: after, u.kind = .eof) (honce : EndsOnce (t :: after)) :
    itemsFrom true (t :: after) = itemsFrom false (resumeFrom before t after).ahead := by
  induction after generalizing before t with
  | nil =>
    obtain ⟨u, hu, hk⟩ := hend
    obtain rfl := List.mem_singleton.1 hu
    have heof := itemsFrom_of_eof (c := ⟨before, u, []⟩) honce hk
    exact (heof true).trans (heof false).symm
  | cons u rest ih =>
    obtain ⟨hne, honce'⟩ := List.pairwise_cons.1 honce
    have hk : t.kind ≠ .eof := hne u (by simp)
    unfold resumeFrom
    split
    · next hstop => exact itemsFrom_of_startsElement (hstop.resolve_left hk) true _
    · next hgo =>
      have hs : t.kind.startsElement = false := by simpa [hk] using hgo
      split
      · next hpipe => exact itemsFrom_of_pipe hpipe _
      · next hpipe =>
        rw [itemsFrom_of_skipped hs hpipe]
        refine ih _ _ ?_ honce'
        obtain ⟨v, hv, he⟩ := hend
        rcases List.mem_cons.1 hv with rfl | hv
        · exact absurd he hk
        · exact ⟨v, hv, he⟩

theorem itemsFrom_recover {c : Cursor} (h : c.HasEnd) (honce : EndsOnce c.ahead) :
    itemsFrom true c.ahead = itemsFrom false c.recover.ahead :=
  itemsFrom_resumeFrom _ _ _ h honce

/-- Where a step fails there is no phrase. -/
theorem itemAt?_of_failed {c next : Cursor} {d : Diagnostic} (h : c.HasEnd)
    (hs : c.step = .failed d next) : itemAt? c.ahead = none := by
  rw [Option.eq_none_iff_forall_ne_some]
  intro i hi
  obtain ⟨run, rest, hc, hp⟩ := phrase_of_itemAt? hi
  have hrest : rest ≠ [] := by
    rintro rfl
    obtain ⟨e, he, hk⟩ := h
    rw [hc, List.append_nil] at he
    obtain ⟨t, ts, rfl, ht, hts⟩ := hp.eq_cons
    rcases List.mem_cons.1 he with rfl | he
    · simp [Token.opensItem, Token.isKeyword, hk] at ht
    · have := hts e he
      rw [hk] at this
      cases this
  obtain ⟨next', hstep, -⟩ := step_of_phrase hp hc hrest
  rw [hs] at hstep
  cases hstep

theorem endsOnce_of_along {c next : Cursor} {run : List Token} (ha : Along c run next)
    (h : EndsOnce c.ahead) : EndsOnce next.ahead := by
  rw [ha.ahead] at h
  exact (List.pairwise_append.1 h).2.1

/-- **Recovery lemma.** A run that does not use up its limit on problems finds exactly the items
that the scan finds. -/
theorem items_events {c : Cursor} {limit : Nat} (h : c.HasEnd)
    (hlex : ∀ t ∈ c.ahead, t.Lexical) (honce : EndsOnce c.ahead)
    (hfew : ((c.events limit).filterMap Event.diagnostic?).length < limit) :
    (c.events limit).filterMap Event.item? = (itemsFrom false c.ahead).map Prod.snd := by
  induction limit, c, h using events_induction with
  | stop c h => exact absurd hfew (Nat.not_lt_zero _)
  | atEnd limit c h hk =>
    rw [events_of_eof limit hk, itemsFrom_of_eof honce hk]
    rfl
  | item limit c h run i next ha hp hs he ih =>
    obtain ⟨t, ts, -, hscan⟩ := itemsFrom_of_phrase (hp (ha.lexical hlex).1) next.ahead
    rw [he] at hfew ⊢
    rw [ha.ahead, hscan]
    exact congrArg (i :: ·) (ih (ha.lexical hlex).2 (endsOnce_of_along ha honce) hfew)
  | stray limit c h d next ha ho hpipe hs he ih =>
    rw [he] at hfew ⊢
    have hscan : itemsFrom false c.ahead = itemsFrom false next.ahead := by
      rw [ha.ahead, List.singleton_append, itemsFrom, itemAt?_eq_none ho hpipe, ho]
      rfl
    rw [hscan]
    exact ih (ha.lexical hlex).2 (endsOnce_of_along ha honce) (Nat.lt_of_succ_lt_succ hfew)
  | failed limit c h run d next ha ho hs he ih =>
    rw [he] at hfew ⊢
    -- The first token leaves the scan lost; what the attempt has read does not change that.
    have hscan : itemsFrom false c.ahead = itemsFrom true next.ahead := by
      have hnone := itemAt?_of_failed h hs
      rw [ha.ahead, ha.eq_cons, List.cons_append] at hnone ⊢
      rw [itemsFrom, hnone, ho]
      exact itemsFrom_inner_append true next.ahead ha.inner
    have hnext := endsOnce_of_along ha honce
    have hsuffix := suffix_recover next
    rw [hscan, itemsFrom_recover ha.hasEnd hnext]
    exact ih (fun t ht => (ha.lexical hlex).2 t (hsuffix.subset ht))
      (List.Pairwise.sublist hsuffix.sublist hnext) (Nat.lt_of_succ_lt_succ hfew)
  | broken limit c h f t ht hnot hs he => exact absurd (hlex t ht) hnot

end Cursor

/-! ## The score of a text with malformed items -/

/-- What the tokens of a text are parsed to, as long as the limit is not reached. -/
theorem parseTokens_eq_ofItems (options : ParserOptions) (text : String) :
    ∃ r s, parseTokens options (significantTokens text) = .ok r ∧ r.score = some s ∧
      (r.diagnostics.length < options.limit →
        s = .ofItems ((itemsFrom false (significantTokens text)).map Prod.snd)) := by
  refine ⟨_, _, parseTokens_significantTokens options text, rfl, fun hfew => ?_⟩
  have hitems := Cursor.items_events (hasEnd_textCursor text) (lexical_textCursor text)
    (by rw [ahead_textCursor]; exact endsOnce_significantTokens text) hfew
  rw [hitems, ahead_textCursor]

/-- **Recovery loses and invents nothing.** For every text and all options the parser gives a
score. When it stays below its limit on problems, the notes and rests of the score are those that
start anywhere in the token list, in order, and the clef and the time signature are the last ones
that start anywhere. -/
theorem parseTokens_recovers (options : ParserOptions) (text : String) :
    ∃ r s, parseTokens options (significantTokens text) = .ok r ∧ r.score = some s ∧
      (r.diagnostics.length < options.limit →
        s.elements = (itemsAnywhere (significantTokens text)).filterMap Item.element? ∧
        s.clef = ((itemsAnywhere (significantTokens text)).filterMap Item.clef?).getLast? ∧
        s.time = ((itemsAnywhere (significantTokens text)).filterMap Item.time?).getLast?) := by
  obtain ⟨r, s, hr, hs, hscore⟩ := parseTokens_eq_ofItems options text
  refine ⟨r, s, hr, hs, fun hfew => ?_⟩
  have hscan {α : Type} (f : Item → Option α) (hf : f .bar = none) :=
    filterMap_itemsFrom f hf false (significantTokens text)
  rw [hscore hfew, elements_ofItems, hscan _ rfl]
  refine ⟨rfl, ?_, ?_⟩
  · rw [← hscan _ rfl]
    rfl
  · rw [← hscan _ rfl]
    rfl

/-- An unknown note letter between two notes costs neither of them. -/
theorem parseTokens_recovers_at_unknown_letter :
    ∃ r s, parseTokens {} (significantTokens "C4 q H4 q D4 q") = .ok r ∧ r.score = some s ∧
      r.diagnostics.length = 1 ∧
      s.elements = [.note ⟨.c, 4, none⟩ .quarter ⟨1, 1, 0⟩,
        .note ⟨.d, 4, none⟩ .quarter ⟨1, 11, 10⟩] := by
  obtain ⟨r, s, hr, hs, hrec⟩ := parseTokens_recovers {} "C4 q H4 q D4 q"
  have hcount : (parseTokens {} (significantTokens "C4 q H4 q D4 q")).toOption.map
      (·.diagnostics.length) = some 1 := by decide +kernel
  rw [hr] at hcount
  have hone : r.diagnostics.length = 1 := Option.some.inj hcount
  refine ⟨r, s, hr, hs, hone, ?_⟩
  rw [(hrec (by rw [hone]; decide)).1]
  decide +kernel

end ScoreText
