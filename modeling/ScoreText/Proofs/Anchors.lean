import ScoreText.Proofs.LexerOptions
import ScoreText.Proofs.Problems
import ScoreText.Proofs.Provenance
import ScoreText.Proofs.Recovery
import ScoreText.Proofs.Relocation

/-!
Which tokens show the problems of a reading. A problem is shown by a token that the attempt has
read, and then reading goes on behind that token; or something was expected and is missing, and
the token in its place shows that (`Cursor.Anchored`). Only in the second case can reading go on
at that very token, and it does where the token starts an element. So the problems come in the
order of the text, and a token shows two of them only if it is in the place of what an element
lacks and starts an element that is malformed itself (`Trail`).
-/

namespace ScoreText

def Problem.IsExpectation (p : Problem) : Prop := "Expected ".toList <+: p.message.toList

instance (p : Problem) : Decidable p.IsExpectation :=
  inferInstanceAs (Decidable (_ <+: _))

/-- The token shows the problem, at its own place. -/
structure Diagnostic.ShownAt (d : Diagnostic) (t : Token) : Prop where
  token : d.token = some t
  position : d.position = t.position

theorem Diagnostic.shownAt_atToken (p : Problem) (t : Token) : (atToken p t).ShownAt t := ⟨rfl, rfl⟩

theorem Diagnostic.ShownAt.eq_of_token {d : Diagnostic} {t u : Token} (h : d.ShownAt t)
    (hu : d.token = some u) : t = u :=
  Option.some.inj (h.token.symm.trans hu)

namespace Cursor

/-! ## Attempts and steps -/

/-- The problem with which an attempt ends at `next` is shown by one of the tokens of `run`, which
the attempt has read, or something was expected in place of the token under the cursor. -/
inductive Anchored (run : List Token) (next : Cursor) (d : Diagnostic) : Prop
  | read {t : Token} : d.ShownAt t → t ∈ run → Anchored run next d
  | inPlace : d.ShownAt next.current → d.problem.IsExpectation → Anchored run next d

theorem anchored_refuse {missing : Problem} (h : missing.IsExpectation) (run : List Token)
    (c : Cursor) : Anchored run c (.atToken missing c.current) :=
  .inPlace (Diagnostic.shownAt_atToken _ _) h

/-- If an attempt that started at `s` ends with a problem, then the problem is anchored. -/
def Anchors {α : Type} (s : Cursor) : Except Halt α → Prop
  | .error (.problem d next) => ∃ run, Along s run next ∧ Anchored run next d
  | _ => True

section Rules

variable {α : Type} {s c : Cursor} {run : List Token}

/-- A problem with a token that was read. -/
theorem anchors_read {problem : Problem} (h : Along s (run ++ [c.current]) c.advance) :
    Anchors s (.error (.problem (.atToken problem c.current) c.advance) : Except Halt α) :=
  ⟨_, h, .read (Diagnostic.shownAt_atToken _ _) (by simp)⟩

theorem anchors_pass {kind : Kind} {missing : Problem} {f : Cursor → Except Halt α}
    (h : Along s run c) (hk : kind.isInner = true) (hmissing : missing.IsExpectation)
    (next : Along s (run ++ [c.current]) c.advance → Anchors s (f c.advance)) :
    Anchors s (c.pass kind missing >>= f) := by
  unfold pass
  split
  · next he => exact next (h.advance (by rw [he]; exact hk))
  · exact ⟨run, h, anchored_refuse hmissing run c⟩

theorem anchors_readDuration {missing : Problem} {f : Duration × Cursor → Except Halt α}
    (h : Along s run c) (hmissing : missing.IsExpectation)
    (next : ∀ d, Anchors s (f (d, c.advance))) :
    Anchors s (c.readDuration missing >>= f) := by
  unfold readDuration
  dsimp only
  split
  · next hk =>
    have hadv := h.advance (by rw [hk]; rfl)
    split
    · next d _ => exact next d
    · exact anchors_read hadv
  · exact ⟨run, h, anchored_refuse hmissing run c⟩

theorem anchors_readAccidental {f : Option Accidental × Cursor → Except Halt α}
    (h : Along s run c)
    (next : ∀ {run' c'} a, Along s run' c' → Anchors s (f (a, c'))) :
    Anchors s (c.readAccidental >>= f) := by
  unfold readAccidental
  dsimp only
  split
  · next hk =>
    have hadv := h.advance (by rw [hk]; rfl)
    split
    · next a _ => exact next (some a) hadv
    · trivial
  · exact next none h

theorem anchors_readOctave {afterAccidental : Bool} {f : Nat × Cursor → Except Halt α}
    (h : Along s run c)
    (next : ∀ n, Along s (run ++ [c.current]) c.advance → Anchors s (f (n, c.advance))) :
    Anchors s (c.readOctave afterAccidental >>= f) := by
  unfold readOctave
  dsimp only
  split
  · next hk =>
    have hadv := h.advance (by rw [hk]; rfl)
    split
    · exact anchors_read hadv
    · split
      · trivial
      · next n _ =>
        split
        · exact anchors_read hadv
        · exact next n.toNat hadv
  · exact ⟨run, h, anchored_refuse (by cases afterAccidental <;> decide) run c⟩

end Rules

variable {c : Cursor}

theorem anchors_readNote (h : c.HasEnd) (hk : c.current.kind = .note) : Anchors c c.readNote := by
  have hfirst := Along.first h (by rw [hk]; simp)
  unfold readNote
  dsimp only
  split
  · exact ⟨_, hfirst, .read (Diagnostic.shownAt_atToken _ _) (by simp)⟩
  · refine anchors_readAccidental hfirst fun a hsign => ?_
    refine anchors_readOctave hsign fun o hoctave => ?_
    exact anchors_readDuration hoctave (by decide) fun d => trivial

theorem anchors_readRest (h : c.HasEnd) (hk : c.current.kind = .rest) : Anchors c c.readRest := by
  have hfirst := Along.first h (by rw [hk]; simp)
  unfold readRest
  exact anchors_readDuration hfirst (by decide) fun d => trivial

theorem anchors_readClef (h : c.HasEnd) (hk : c.current.kind = .identifier) :
    Anchors c c.readClef := by
  have hfirst := Along.first h (by rw [hk]; simp)
  unfold readClef
  refine anchors_pass hfirst rfl (by decide) fun hname => ?_
  dsimp only
  split
  · next hkind =>
    split
    · trivial
    · exact anchors_read (hname.advance (by rw [hkind]; rfl))
  · exact ⟨_, hname, anchored_refuse (by decide) _ _⟩

theorem anchors_readTime (h : c.HasEnd) (hk : c.current.kind = .identifier) :
    Anchors c c.readTime := by
  have hfirst := Along.first h (by rw [hk]; simp)
  unfold readTime
  dsimp only
  refine anchors_pass hfirst rfl (by decide) fun habove => ?_
  refine anchors_pass habove rfl (by decide) fun hslash => ?_
  refine anchors_pass hslash rfl (by decide) fun hbelow => ?_
  refine anchors_pass hbelow rfl (by decide) fun hnext => ?_
  split
  · trivial
  · exact ⟨_, hnext, .read (Diagnostic.shownAt_atToken _ _) (by simp)⟩

/-- A token that is passed over shows that itself, and the problem of a failed step is anchored. -/
def AnchorsStep (c : Cursor) : Step → Prop
  | .stray d _ => d.ShownAt c.current
  | .failed d next => ∃ run, Along c run next ∧ Anchored run next d
  | _ => True

private theorem Anchors.step {α : Type} {x : Except Halt (α × Cursor)} (h : Anchors c x)
    (toItem : α → Item) : AnchorsStep c (.ofAttempt toItem x) := by
  unfold Step.ofAttempt
  split
  · trivial
  · exact h
  · trivial

theorem anchors_step (h : c.HasEnd) : AnchorsStep c c.step := by
  unfold step
  split
  · next hk =>
    unfold stepIdentifier
    dsimp only
    split
    · exact (anchors_readClef h hk).step _
    · split
      · exact (anchors_readTime h hk).step _
      · exact Diagnostic.shownAt_atToken _ _
  · next hk => exact (anchors_readNote h hk).step _
  · next hk => exact (anchors_readRest h hk).step _
  · trivial
  · exact Diagnostic.shownAt_atToken _ _

/-- Skipping ahead leaves a token behind that starts no element. -/
theorem suffix_recover_of_not_starts (h : c.HasEnd) (hend : c.current.kind ≠ .eof)
    (hstart : c.current.kind.startsElement = false) : c.recover.ahead <:+ c.after := by
  have hafter : c.after = c.advance.ahead := (List.cons.inj (Along.first h hend).ahead).2
  rw [hafter]
  by_cases hpipe : c.current.kind = .pipe
  · exact ⟨[], by rw [recover_of_pipe hpipe, List.nil_append]⟩
  · rw [recover_of_skipped hend hstart hpipe]
    exact suffix_recover _

end Cursor

/-! ## Trails -/

/-- `Trail tokens ds`: the problems are met one after the other on a way over the tokens. Each is a
complaint about the tokens from some place on, shown by one of these, and the way goes on behind
that token; or else, if something was expected in place of a token that starts an element, at that
token. -/
inductive Trail : List Token → List Diagnostic → Prop
  | done {tokens : List Token} : Trail tokens []
  | behind {tokens begun rest : List Token} {t : Token} {d : Diagnostic} {ds : List Diagnostic} :
      begun ++ t :: rest <:+ tokens → Complaint (begun ++ t :: rest) d → d.ShownAt t →
      Trail rest ds → Trail tokens (d :: ds)
  | again {tokens begun rest : List Token} {t : Token} {d : Diagnostic} {ds : List Diagnostic} :
      begun ++ t :: rest <:+ tokens → Complaint (begun ++ t :: rest) d → d.ShownAt t →
      begun ≠ [] → d.problem.IsExpectation → t.kind.startsElement = true →
      Trail (t :: rest) ds → Trail tokens (d :: ds)

theorem Trail.of_suffix {tokens rest : List Token} {ds : List Diagnostic} (h : Trail rest ds)
    (hsuffix : rest <:+ tokens) : Trail tokens ds := by
  cases h with
  | done => exact .done
  | behind hpart hc hd hrest => exact .behind (hpart.trans hsuffix) hc hd hrest
  | again hpart hc hd hbegun he hstart hrest =>
    exact .again (hpart.trans hsuffix) hc hd hbegun he hstart hrest

/-- **The problems of a run make a trail.** -/
theorem Cursor.trail_events {limit : Nat} {c : Cursor} (h : c.HasEnd)
    (htokens : ∀ t ∈ c.ahead, t.Lexical ∧ t.kind.isTrivia = false) :
    Trail c.ahead ((c.events limit).filterMap Event.diagnostic?) := by
  induction limit, c, h using events_induction with
  | stop c h =>
    rw [events_zero]
    exact .done
  | atEnd limit c h hk =>
    rw [events_of_eof limit hk]
    exact .done
  | item limit c h run i next ha hp hs he ih =>
    rw [he]
    exact (ih fun t ht => htokens t (ha.suffix.subset ht)).of_suffix ha.suffix
  | stray limit c h d next ha ho hpipe hs he ih =>
    have hblame := blames_step h (kind_ne_eof_of_events he) htokens
    have hanchor := anchors_step h
    have hrest := ih fun t ht => htokens t (ha.suffix.subset ht)
    rw [hs] at hblame hanchor
    rw [he]
    have hpart : [] ++ c.current :: next.ahead <:+ c.ahead := ⟨[], ha.ahead.symm⟩
    exact .behind hpart (ha.ahead ▸ hblame) hanchor hrest
  | failed limit c h run d next ha ho hs he ih =>
    have hblame := blames_step h (kind_ne_eof_of_events he) htokens
    have hanchor := anchors_step h
    have hrest := ih fun t ht => htokens t (ha.suffix.subset ((suffix_recover next).subset ht))
    rw [hs] at hblame hanchor
    rw [he]
    obtain ⟨run', ha', hanchor⟩ := hanchor
    obtain rfl : run' = run := List.append_cancel_right (ha'.ahead.symm.trans ha.ahead)
    rw [ha.ahead] at hblame ⊢
    cases hanchor with
    | @read t hd ht =>
      -- Reading goes on somewhere behind the attempt.
      obtain ⟨begun, between, rfl⟩ := List.append_of_mem ht
      rw [List.append_assoc, List.cons_append] at hblame ⊢
      have hsuffix := (suffix_recover next).trans (List.suffix_append between next.ahead)
      exact .behind List.suffix_rfl hblame hd (hrest.of_suffix hsuffix)
    | inPlace hd hexpected =>
      by_cases hend : next.current.kind = .eof
      · rw [recover_of_stop (.inl hend), events_of_eof limit hend]
        exact .behind List.suffix_rfl hblame hd .done
      · cases hstart : next.current.kind.startsElement with
        | true =>
          rw [recover_of_stop (.inr hstart)] at hrest ⊢
          exact .again List.suffix_rfl hblame hd ha.nonempty hexpected hstart hrest
        | false =>
          have hsuffix := suffix_recover_of_not_starts ha.hasEnd hend hstart
          exact .behind List.suffix_rfl hblame hd (hrest.of_suffix hsuffix)
  | broken limit c h f t ht hnot hs he => exact absurd (htokens t ht).1 hnot

/-! ## Order and sharing -/

private theorem suffix_of_append_suffix_cons {α : Type} {xs ys zs : List α} {z : α}
    (h : xs ++ ys <:+ z :: zs) (hxs : xs ≠ []) : ys <:+ zs := by
  have hlength := h.length_le
  have hpos := List.length_pos_iff.2 hxs
  rw [List.length_append, List.length_cons] at hlength
  exact List.suffix_of_suffix_length_le ((List.suffix_append xs ys).trans h)
    (List.suffix_cons z zs) (by omega)

def InOrder (tokens : List Token) : Prop :=
  tokens.Pairwise fun t u => t.position.offset < u.position.offset

theorem InOrder.of_suffix {tokens rest : List Token} (h : InOrder tokens)
    (hrest : rest <:+ tokens) : InOrder rest :=
  h.sublist hrest.sublist

theorem InOrder.of_part {tokens begun rest : List Token} (h : InOrder tokens)
    (hpart : begun ++ rest <:+ tokens) : InOrder rest :=
  h.of_suffix ((List.suffix_append begun rest).trans hpart)

theorem InOrder.not_mem {t : Token} {rest : List Token} (h : InOrder (t :: rest)) : t ∉ rest :=
  fun ht => absurd ((List.pairwise_cons.1 h).1 t ht) (Int.lt_irrefl _)

namespace Trail

variable {tokens : List Token} {d : Diagnostic} {ds : List Diagnostic}

/-- The first problem is a complaint, and the way goes on from the token that shows it. -/
theorem of_cons (h : Trail tokens (d :: ds)) :
    ∃ begun t rest, begun ++ t :: rest <:+ tokens ∧ Complaint (begun ++ t :: rest) d ∧
      d.ShownAt t ∧ Trail (t :: rest) ds := by
  cases h with
  | behind hpart hc hd hrest =>
    exact ⟨_, _, _, hpart, hc, hd, hrest.of_suffix (List.suffix_cons _ _)⟩
  | again hpart hc hd _ _ _ hrest => exact ⟨_, _, _, hpart, hc, hd, hrest⟩

/-- The rest of a trail is a trail over the rest of the tokens. -/
theorem of_append {xs : List Diagnostic} (h : Trail tokens (xs ++ ds)) :
    ∃ rest, rest <:+ tokens ∧ Trail rest ds := by
  induction xs generalizing tokens with
  | nil => exact ⟨tokens, List.suffix_rfl, h⟩
  | cons x xs ih =>
    obtain ⟨begun, t, rest, hpart, -, -, htrail⟩ := of_cons h
    obtain ⟨last, hlast, hds⟩ := ih htrail
    exact ⟨last, hlast.trans ((List.suffix_append _ _).trans hpart), hds⟩

/-- Every problem is shown by one of the tokens. -/
theorem exists_shownAt (h : Trail tokens ds) (hd : d ∈ ds) : ∃ t ∈ tokens, d.ShownAt t := by
  obtain ⟨xs, ys, rfl⟩ := List.append_of_mem hd
  obtain ⟨last, hlast, hds⟩ := h.of_append
  obtain ⟨begun, t, rest, hpart, -, hshown, -⟩ := hds.of_cons
  exact ⟨t, hlast.subset (hpart.subset (by simp)), hshown⟩

theorem shownAt_of_token {t : Token} (h : Trail tokens ds) (hd : d ∈ ds)
    (ht : d.token = some t) : t ∈ tokens ∧ d.ShownAt t := by
  obtain ⟨u, hu, hshown⟩ := h.exists_shownAt hd
  obtain rfl := hshown.eq_of_token ht
  exact ⟨hu, hshown⟩

/-- The problems come in the order of the text. -/
theorem pairwise_offset (h : Trail tokens ds) (horder : InOrder tokens) :
    ds.Pairwise fun d e => d.position.offset ≤ e.position.offset := by
  induction ds generalizing tokens with
  | nil => exact .nil
  | cons d ds ih =>
    obtain ⟨begun, t, rest, hpart, -, hd, htrail⟩ := h.of_cons
    have hrest := horder.of_part hpart
    refine .cons (fun e he => ?_) (ih htrail hrest)
    obtain ⟨u, hu, hshown⟩ := htrail.exists_shownAt he
    rw [hd.position, hshown.position]
    rcases List.mem_cons.1 hu with rfl | hu
    · exact Int.le_refl _
    · exact Int.le_of_lt ((List.pairwise_cons.1 hrest).1 u hu)

/-- Only the first problem can be shown by the first token. -/
theorem token_ne_first {t : Token} {rest : List Token} {e : Diagnostic}
    (h : Trail (t :: rest) (d :: ds)) (horder : InOrder (t :: rest)) (he : e ∈ ds) :
    e.token ≠ some t := by
  intro ht
  have hfurther {further : List Token} (htrail : Trail further ds) (hf : further <:+ rest) :
      False :=
    horder.not_mem (hf.subset (htrail.shownAt_of_token he ht).1)
  cases h with
  | @behind _ begun after u _ _ hpart _ _ hrest =>
    have hpart' : (begun ++ [u]) ++ after <:+ t :: rest := by simpa using hpart
    exact hfurther hrest (suffix_of_append_suffix_cons hpart' (by simp))
  | again hpart _ _ hbegun _ _ hrest =>
    exact hfurther hrest (suffix_of_append_suffix_cons hpart hbegun)

/-- A problem shown by the first token is a complaint about the tokens from there on. -/
theorem complaint_first {t : Token} {rest : List Token} (h : Trail (t :: rest) (d :: ds))
    (horder : InOrder (t :: rest)) (ht : d.token = some t) : Complaint (t :: rest) d := by
  obtain ⟨begun, u, after, hpart, hc, hd, -⟩ := h.of_cons
  obtain rfl := hd.eq_of_token ht
  cases begun with
  | nil =>
    rcases List.suffix_cons_iff.1 hpart with heq | hsuffix
    · rwa [← heq]
    · exact absurd (hsuffix.subset List.mem_cons_self) horder.not_mem
  | cons b begun =>
    have hsuffix := suffix_of_append_suffix_cons hpart (List.cons_ne_nil b begun)
    exact absurd (hsuffix.subset List.mem_cons_self) horder.not_mem

/-- No token shows more than two problems. -/
theorem countP_le_two (h : Trail tokens ds) (horder : InOrder tokens) (t : Token) :
    ds.countP (·.token = some t) ≤ 2 := by
  induction ds generalizing tokens with
  | nil => simp
  | cons d ds ih =>
    obtain ⟨begun, u, rest, hpart, -, hd, htrail⟩ := h.of_cons
    have hrest := horder.of_part hpart
    by_cases htu : u = t
    · subst htu
      cases ds with
      | nil => exact Nat.le_trans List.countP_le_length (by simp)
      | cons e es =>
        have hnone : es.countP (·.token = some u) = 0 := by
          simpa using fun e he => htrail.token_ne_first hrest he
        simp only [List.countP_cons, hnone]
        split <;> split <;> omega
    · have hd' : d.token ≠ some t := by rw [hd.token]; simpa using htu
      simpa [List.countP_cons, hd'] using ih htrail hrest

/-- **Problems that share a token.** They are next to each other; the first one says what was
expected in place of the token, and the second one is about what starts at it. -/
theorem of_shared {ys zs : List Diagnostic} {e : Diagnostic}
    (h : Trail tokens (d :: (ys ++ e :: zs))) (horder : InOrder tokens)
    (hshared : d.token = e.token) :
    ys = [] ∧ ∃ begun t rest, begun ++ t :: rest <:+ tokens ∧ begun ≠ [] ∧ d.token = some t ∧
      d.problem.IsExpectation ∧ Complaint (begun ++ t :: rest) d ∧
      t.kind.startsElement = true ∧ Complaint (t :: rest) e := by
  cases h with
  | @behind _ begun rest t _ _ hpart hc hd hrest =>
    have hmem : e ∈ ys ++ e :: zs := by simp
    have he := (hrest.shownAt_of_token hmem (hshared.symm.trans hd.token)).1
    exact absurd he (horder.of_part hpart).not_mem
  | @again _ begun rest t _ _ hpart hc hd hbegun hexpected hstart hrest =>
    have he : e.token = some t := hshared.symm.trans hd.token
    have hrest_order := horder.of_part hpart
    cases ys with
    | nil =>
      exact ⟨rfl, begun, t, rest, hpart, hbegun, hd.token, hexpected, hc, hstart,
        complaint_first hrest hrest_order he⟩
    | cons y ys => exact absurd he (token_ne_first hrest hrest_order (by simp))

/-- A problem shown by an end token is the last one. -/
theorem eq_nil_of_eof {t : Token} (h : Trail tokens (d :: ds)) (honce : EndsOnce tokens)
    (hd : d.token = some t) (hk : t.kind = .eof) : ds = [] := by
  cases h with
  | @behind _ begun rest u _ _ hpart _ hshown hrest =>
    obtain rfl := hshown.eq_of_token hd
    have hlast : EndsOnce (u :: rest) :=
      honce.sublist ((List.suffix_append begun _).trans hpart).sublist
    have hnil : rest = [] := by
      rw [List.eq_nil_iff_forall_not_mem]
      exact fun v hv => (List.pairwise_cons.1 hlast).1 v hv hk
    subst hnil
    rw [List.eq_nil_iff_forall_not_mem]
    intro e he
    obtain ⟨v, hv, -⟩ := hrest.exists_shownAt he
    cases hv
  | @again _ begun rest u _ _ hpart _ hshown _ _ hstart _ =>
    obtain rfl := hshown.eq_of_token hd
    rw [hk] at hstart
    cases hstart

end Trail

/-- The problems of a text make a trail over its tokens. -/
theorem exists_trail (options : ParserOptions) (text : String) :
    ∃ r, (Parser.ofTokens options (tokenize text).tokens).run.1 = .ok r ∧
      Trail (significantTokens text) r.diagnostics := by
  refine ⟨.ofEvents ((textCursor text).events options.limit), ?_, ?_⟩
  · rw [Parser.ofTokens, ← Cursor.ofTokens_filter, tokenize_eq_lex]
    exact (Parser.run_eq_parseTokens options _).trans (parseTokens_significantTokens options text)
  · rw [← ahead_textCursor]
    refine Cursor.trail_events (hasEnd_textCursor text) fun t ht => ?_
    rw [ahead_textCursor] at ht
    exact ⟨lexical_of_mem_significantTokens ht, isTrivia_of_mem_significantTokens ht⟩

/-- **The diagnostics of a text.** For every text and all options the parser returns a result, and
each of its diagnostics is shown by a token of the text that is not white space, at the place of
that token. They come in the order of the text, and no token shows more than two. Two that share a
token are next to each other: the first says what the element before the token lacks in its place,
the second is about the element that starts at the token. What the end token shows comes last. -/
theorem diagnostics_anchored (options : ParserOptions) (text : String) :
    ∃ r, (Parser.ofTokens options (tokenize text).tokens).run.1 = .ok r ∧
      (∀ d ∈ r.diagnostics, d.ShownBy (significantTokens text)) ∧
      (r.diagnostics.Pairwise fun d e => d.position.offset ≤ e.position.offset) ∧
      (∀ t, r.diagnostics.countP (·.token = some t) ≤ 2) ∧
      (∀ xs d ys e zs, r.diagnostics = xs ++ d :: (ys ++ e :: zs) → d.token = e.token →
        ys = [] ∧ ∃ before element t rest,
          significantTokens text = before ++ (element ++ t :: rest) ∧ element ≠ [] ∧
          d.token = some t ∧ "Expected ".toList <+: d.message.toList ∧
          Complaint (element ++ t :: rest) d ∧
          t.kind.startsElement = true ∧ Complaint (t :: rest) e) ∧
      ∀ xs d ys t, r.diagnostics = xs ++ d :: ys → d.token = some t → t.kind = .eof → ys = [] := by
  obtain ⟨r, hrun, htrail⟩ := exists_trail options text
  have horder : InOrder (significantTokens text) := pairwise_significantTokens text
  refine ⟨r, hrun, fun d hd => ?_, htrail.pairwise_offset horder, htrail.countP_le_two horder,
    fun xs d ys e zs hds hshared => ?_, fun xs d ys t hds ht hk => ?_⟩
  · obtain ⟨t, ht, hshown⟩ := htrail.exists_shownAt hd
    exact ⟨t, ht, hshown.token, hshown.position⟩
  · rw [hds] at htrail
    obtain ⟨last, hlast, hlast_trail⟩ := htrail.of_append
    obtain ⟨hys, element, t, rest, hpart, hshared⟩ :=
      hlast_trail.of_shared (horder.of_suffix hlast) hshared
    obtain ⟨before, hbefore⟩ := hpart.trans hlast
    exact ⟨hys, before, element, t, rest, hbefore.symm, hshared⟩
  · rw [hds] at htrail
    obtain ⟨last, hlast, hlast_trail⟩ := htrail.of_append
    have honce := (endsOnce_significantTokens text).sublist hlast.sublist
    exact hlast_trail.eq_nil_of_eof honce ht hk

/-- A word in place of an octave shows that the octave is missing, and then that it is unknown. -/
theorem diagnostics_anchored_at_word :
    ∃ r d e, (Parser.ofTokens {} (tokenize "D foo").tokens).run.1 = .ok r ∧
      r.diagnostics = [d, e] ∧ d.message = "Expected octave number after note" ∧
      e.message = "Unknown identifier: foo" ∧ d.token = e.token ∧
      ∃ before element t rest,
        significantTokens "D foo" = before ++ (element ++ t :: rest) ∧ element ≠ [] ∧
        d.token = some t ∧ "Expected ".toList <+: d.message.toList ∧
        Complaint (element ++ t :: rest) d ∧
        t.kind.startsElement = true ∧ Complaint (t :: rest) e := by
  obtain ⟨r, hrun, -, -, -, hshared, -⟩ := diagnostics_anchored {} "D foo"
  have hds : (Parser.ofTokens {} (tokenize "D foo").tokens).run.1.toOption.map (·.diagnostics) =
      some [.atToken (.missingOctave false) ⟨.identifier, "foo", ⟨1, 3, 2⟩⟩,
        .atToken (.unknownIdentifier "foo") ⟨.identifier, "foo", ⟨1, 3, 2⟩⟩] := by
    decide +kernel
  rw [hrun] at hds
  have hdiagnostics := Option.some.inj hds
  exact ⟨r, _, _, hrun, hdiagnostics, rfl, rfl, rfl, (hshared [] _ [] _ [] hdiagnostics rfl).2⟩

end ScoreText
