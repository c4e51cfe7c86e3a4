import ScoreText.Proofs.Measures
import ScoreText.Proofs.Run

/-!
The parser accepts exactly the grammar. A text is accepted, whatever the options, when all its
characters belong to the notation and its tokens are a sentence, and then the score is what the
sentence says (`parseText_success_iff`).
-/

namespace ScoreText

namespace Cursor

/-- A sentence is read item by item, with no problem. -/
theorem events_of_sentence {body : List Token} {items : List Item} (h : Sentence body items)
    {c : Cursor} {e : Token} (hc : c.ahead = body ++ [e]) (he : e.kind = .eof) (limit : Nat) :
    c.events (limit + 1) = items.map .item := by
  induction h generalizing c with
  | nil =>
    have hcur : c.current = e := current_of_ahead hc
    exact events_of_eof _ (by rw [hcur]; exact he)
  | @cons run tokens item items hp _ ih =>
    rw [List.append_assoc] at hc
    obtain ⟨next, hs, hnext⟩ := step_of_phrase hp hc (by simp)
    have hend : c.HasEnd := ⟨e, by rw [hc]; simp, he⟩
    have hk : c.current.kind ≠ .eof := by
      obtain ⟨t, ts, rfl, ho, _⟩ := hp.eq_cons
      rw [current_of_ahead hc]
      rintro heof
      simp [Token.opensItem, Token.isKeyword, heof] at ho
    rw [events_of_step_eq_item limit hend hk hs, ih hnext]
    rfl

private theorem split_last {run xs body : List Token} {e : Token} (h : run ++ xs = body ++ [e])
    (hne : xs ≠ []) : ∃ ys, xs = ys ++ [e] ∧ body = run ++ ys := by
  rw [← List.dropLast_concat_getLast hne, ← List.append_assoc] at h
  obtain ⟨hbody, hlast⟩ := List.append_inj' h rfl
  refine ⟨xs.dropLast, ?_, hbody.symm⟩
  rw [← hlast, List.dropLast_concat_getLast hne]

/-- A run without problems has read a sentence. -/
theorem sentence_of_events {c : Cursor} {limit : Nat} (h : c.HasEnd)
    (hlex : ∀ t ∈ c.ahead, t.Lexical) {body : List Token} {e : Token}
    (hc : c.ahead = body ++ [e]) (hbody : ∀ t ∈ body, t.kind ≠ .eof) (hlimit : 0 < limit)
    (hd : (c.events limit).filterMap Event.diagnostic? = []) :
    ∃ items, Sentence body items := by
  induction limit, c, h using events_induction generalizing body with
  | stop c h => exact absurd hlimit (Nat.lt_irrefl 0)
  | atEnd limit c h hk =>
    cases body with
    | nil => exact ⟨[], .nil⟩
    | cons t body =>
      rw [current_of_ahead hc] at hk
      exact absurd hk (hbody t (by simp))
  | item limit c h run i next ha hp hs he ih =>
    obtain ⟨ys, hnext, rfl⟩ := split_last (ha.ahead.symm.trans hc) (by simp [Cursor.ahead])
    rw [he] at hd
    obtain ⟨items, hs⟩ := ih (ha.lexical hlex).2 hnext (fun t ht => hbody t (by simp [ht]))
      hlimit hd
    exact ⟨i :: items, .cons (hp (ha.lexical hlex).1) hs⟩
  | stray limit c h d next ha ho hpipe hs he ih =>
    rw [he] at hd
    cases hd
  | failed limit c h run d next ha ho hs he ih =>
    rw [he] at hd
    cases hd
  | broken limit c h f t ht hnot hs he => exact absurd (hlex t ht) hnot

end Cursor

private theorem events_textCursor_of_sentence {text : String} {items : List Item}
    (h : Sentence (bodyTokens text) items) (options : ParserOptions) :
    (textCursor text).events options.limit = items.map .item := by
  obtain ⟨n, hn⟩ := limit_pos options
  rw [hn]
  refine Cursor.events_of_sentence h ?_ (e := .endAt (Position.start.after text.toList)) rfl n
  rw [ahead_textCursor, significantTokens_eq]

theorem sentence_of_diagnostics {options : ParserOptions} {text : String}
    (h : ((textCursor text).events options.limit).filterMap Event.diagnostic? = []) :
    ∃ items, Sentence (bodyTokens text) items := by
  obtain ⟨n, hn⟩ := limit_pos options
  refine Cursor.sentence_of_events (e := .endAt (Position.start.after text.toList))
    (hasEnd_textCursor text) (lexical_textCursor text) ?_
    (fun t ht => kind_of_mem_bodyTokens ht) (by omega) h
  rw [ahead_textCursor, significantTokens_eq]

/-- What parsing a text gives, in terms of its lexical errors and of the run over its tokens. -/
theorem parseText_eq (options : ParserOptions) (text : String) :
    parseText options text = .ok (
      let events := (textCursor text).events options.limit
      let result := ParseResult.ofEvents events
      if options.strict && !(lex text).diagnostics.isEmpty then
        ⟨false, (lex text).diagnostics.take options.limit, none⟩
      else ⟨result.success && (lex text).diagnostics.isEmpty,
        ((lex text).diagnostics ++ result.diagnostics).take options.limit, result.score⟩) := by
  unfold parseText
  dsimp only
  rw [lexForParse_diagnostics, lexForParse_tokens, parseTokens_significantTokens]
  split <;> rfl

/-- A sentence without foreign characters is parsed to what it says, whatever the options. -/
theorem parseText_of_sentence {text : String} {items : List Item}
    (hchars : ∀ c ∈ text.toList, isNotationChar c = true)
    (h : Sentence (bodyTokens text) items) (options : ParserOptions) :
    parseText options text = .ok ⟨true, [], some (.ofItems items)⟩ := by
  have hlex := (lex_diagnostics_eq_nil_iff text).2 hchars
  have hitems : (items.map Event.item).filterMap Event.item? = items := by
    rw [List.filterMap_map]
    exact List.filterMap_some
  have hnone : (items.map Event.item).filterMap Event.diagnostic? = [] := by
    rw [List.filterMap_map]
    exact List.filterMap_eq_nil_iff.2 fun _ _ => rfl
  rw [parseText_eq, events_textCursor_of_sentence h options]
  simp [ParseResult.ofEvents, hlex, hitems, hnone]

/-- An accepted text has only characters of the notation, its tokens are a sentence, and the result
is what the sentence says. -/
theorem sentence_of_success {options : ParserOptions} {text : String} {r : ParseResult}
    (h : parseText options text = .ok r) (hsuccess : r.success = true) :
    (∀ c ∈ text.toList, isNotationChar c = true) ∧
      ∃ items, Sentence (bodyTokens text) items ∧ r = ⟨true, [], some (.ofItems items)⟩ := by
  obtain ⟨hlex, hrun⟩ : (lex text).diagnostics = [] ∧
      ((textCursor text).events options.limit).filterMap Event.diagnostic? = [] := by
    have heq := Except.ok.inj (h.symm.trans (parseText_eq options text))
    dsimp only at heq
    split at heq
    · rw [heq] at hsuccess
      cases hsuccess
    · rw [heq] at hsuccess
      simp only [ParseResult.ofEvents, Bool.and_eq_true, List.isEmpty_iff] at hsuccess
      exact ⟨hsuccess.2, hsuccess.1⟩
  have hchars := (lex_diagnostics_eq_nil_iff text).1 hlex
  obtain ⟨items, hsentence⟩ := sentence_of_diagnostics hrun
  exact ⟨hchars, items, hsentence,
    Except.ok.inj (h.symm.trans (parseText_of_sentence hchars hsentence options))⟩

/-- **The parser accepts exactly the grammar.** For every text and all options there is a result.
It is a success exactly when every character belongs to the notation and the tokens before the end
are a sentence; and then the score denotes the items of the sentence. -/
theorem parseText_success_iff (options : ParserOptions) (text : String) :
    ∃ r, parseText options text = .ok r ∧
      (r.success = true ↔
        (∀ c ∈ text.toList, isNotationChar c = true) ∧
          ∃ items, Sentence (bodyTokens text) items) ∧
      ∀ items, r.success = true → Sentence (bodyTokens text) items →
        ∃ score, r.score = some score ∧ score.Denotes items := by
  obtain ⟨r, hr, hsuccess⟩ : ∃ r, parseText options text = .ok r ∧
      (r.success = true → (∀ c ∈ text.toList, isNotationChar c = true) ∧
        ∃ items, Sentence (bodyTokens text) items) := by
    refine ⟨_, parseText_eq options text, ?_⟩
    rw [← lex_diagnostics_eq_nil_iff]
    dsimp only
    split
    · intro h
      cases h
    · simp only [ParseResult.ofEvents, Bool.and_eq_true, List.isEmpty_iff]
      rintro ⟨hrun, hlex⟩
      exact ⟨hlex, sentence_of_diagnostics hrun⟩
  have hparse {items : List Item} (hchars : ∀ c ∈ text.toList, isNotationChar c = true)
      (h : Sentence (bodyTokens text) items) : r = ⟨true, [], some (.ofItems items)⟩ :=
    Except.ok.inj (hr.symm.trans (parseText_of_sentence hchars h options))
  refine ⟨r, hr, ⟨hsuccess, ?_⟩, ?_⟩
  · rintro ⟨hchars, items, h⟩
    rw [hparse hchars h]
  · intro items hs h
    refine ⟨.ofItems items, ?_, denotes_ofItems items⟩
    rw [hparse (hsuccess hs).1 h]

end ScoreText
