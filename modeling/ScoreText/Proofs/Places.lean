import Mathlib.Data.List.Induction
import ScoreText.Proofs.Composition
import ScoreText.Proofs.Scanner
import ScoreText.Proofs.Tiling

/-!
The places that the lexer gives are exact. Line and column are counted along with the offset, by
one rule for line feeds and another one for all other characters. What they amount to can be read
off the text: the line from the number of line feeds before the offset, the column from the last
one of them (`Position.ExactIn`). The place behind any run of characters is exact
(`exactIn_after`), and every token and every lexical error stands at such a place
(`tokenize_places`).
-/

namespace ScoreText

/-- `k` is the index of the last line feed before the offset, or `-1` when there is none. -/
def IsLastBreak (cs : List Char) (offset : Nat) (k : Int) : Prop :=
  (k = -1 ∧ ∀ i < offset, cs[i]? ≠ some '\n') ∨
    ∃ n : Nat, k = n ∧ n < offset ∧ cs[n]? = some '\n' ∧
      ∀ i, n < i → i < offset → cs[i]? ≠ some '\n'

/-- Line and column are those of the offset. Only line feeds end lines; every other character,
whatever it is, takes one column. -/
def Position.ExactIn (cs : List Char) (p : Position) : Prop :=
  ∃ offset : Nat, p.offset = offset ∧ offset ≤ cs.length ∧
    p.line = 1 + (cs.take offset).count '\n' ∧
    ∃ k, IsLastBreak cs offset k ∧ p.column = offset - k

/-! ## The last line feed -/

namespace IsLastBreak

variable {cs : List Char} {offset : Nat} {k : Int}

theorem zero (cs : List Char) : IsLastBreak cs 0 (-1) := .inl ⟨rfl, fun i hi => by omega⟩

theorem succ (h : IsLastBreak cs offset k) (hc : cs[offset]? ≠ some '\n') :
    IsLastBreak cs (offset + 1) k := by
  have hlast (i : Nat) (hi : i < offset + 1) (hbefore : i < offset → cs[i]? ≠ some '\n') :
      cs[i]? ≠ some '\n' := by
    by_cases he : i = offset
    · rw [he]
      exact hc
    · exact hbefore (by omega)
  rcases h with ⟨hk, hnone⟩ | ⟨n, hk, hn, hbreak, hnone⟩
  · exact .inl ⟨hk, fun i hi => hlast i hi (hnone i)⟩
  · exact .inr ⟨n, hk, by omega, hbreak, fun i hni hi => hlast i hi (hnone i hni)⟩

theorem at_newline (hc : cs[offset]? = some '\n') : IsLastBreak cs (offset + 1) offset :=
  .inr ⟨offset, rfl, by omega, hc, fun i hni hi => by omega⟩

end IsLastBreak

/-- The column behind a run of characters counts from its last line feed. -/
theorem column_after (cs rest : List Char) :
    ∃ k, IsLastBreak (cs ++ rest) cs.length k ∧
      (Position.start.after cs).column = cs.length - k := by
  -- The run grows at its end, as the lexer moves over one character after the other.
  induction cs using List.reverseRecOn generalizing rest with
  | nil => exact ⟨-1, .zero _, rfl⟩
  | append_singleton cs c ih =>
    have hstep : Position.start.after (cs ++ [c]) = (Position.start.after cs).step c := by
      rw [after_append]
      rfl
    have hc : (cs ++ c :: rest)[cs.length]? = some c := by simp
    rw [hstep, List.append_assoc, List.singleton_append, List.length_append, List.length_singleton]
    by_cases hline : c = '\n'
    · subst hline
      refine ⟨cs.length, .at_newline hc, ?_⟩
      rw [Position.step, if_pos rfl]
      dsimp only
      omega
    · obtain ⟨k, hlast, hcolumn⟩ := ih (c :: rest)
      refine ⟨k, hlast.succ (by rw [hc]; simpa using hline), ?_⟩
      rw [Position.step, if_neg hline, hcolumn]
      dsimp only
      omega

/-! ## Exact places -/

/-- The place behind a run of characters is exact, whatever follows. -/
theorem exactIn_after (cs rest : List Char) : (Position.start.after cs).ExactIn (cs ++ rest) := by
  have hline := Position.line_after .start cs
  refine ⟨cs.length, ?_, by simp, ?_, column_after cs rest⟩
  · rw [offset_after]
    simp [Position.start]
  · rw [hline, List.take_left]
    rfl

theorem exactIn_of_mem_placedLexemes {text : String} {a : Position × Lexeme}
    (h : a ∈ placedLexemes text) : a.1.ExactIn text.toList := by
  obtain ⟨p, x⟩ := a
  obtain ⟨ys, zs, hsplit, rfl⟩ := exists_split_of_mem_placeFrom h
  have htext : text.toList =
      ys.flatMap Lexeme.source ++ (x.source ++ zs.flatMap Lexeme.source) := by
    rw [← flatMap_source_lexemes text.toList, hsplit, List.flatMap_append, List.flatMap_cons]
  rw [htext]
  exact exactIn_after _ _

theorem exactIn_of_mem_allTokens {text : String} {t : Token} (h : t ∈ allTokens text) :
    t.position.ExactIn text.toList := by
  rcases List.mem_append.1 h with h | h
  · obtain ⟨⟨p, x⟩, hx, ht⟩ := List.mem_filterMap.1 h
    have hexact := exactIn_of_mem_placedLexemes hx
    cases x with
    | token kind source cs =>
      cases ht
      exact hexact
    | stray c => cases ht
    | carriage => cases ht
  · rw [List.mem_singleton.1 h]
    have hend := exactIn_after text.toList []
    rwa [List.append_nil] at hend

/-- Lexical errors have exact places, whatever the options are. -/
theorem exactIn_of_mem_diagnostics {text : String} {options : LexerOptions} {d : Diagnostic}
    (h : d ∈ (lex text options).diagnostics) : d.position.ExactIn text.toList := by
  obtain ⟨⟨p, x⟩, hx, hd⟩ := List.mem_filterMap.1 h
  have hexact := exactIn_of_mem_placedLexemes hx
  cases x with
  | token kind source cs => cases hd
  | stray c =>
    cases hd
    exact hexact
  | carriage => cases hd

/-- **Places are exact.** When the options ask for places, every token and every lexical error of a
text has the line and the column of its offset. The last token is the end, behind the last
character. -/
theorem tokenize_places (text : String) {options : LexerOptions}
    (h : options.includePosition = true) :
    (∀ t ∈ (tokenize text options).tokens, t.position.ExactIn text.toList) ∧
    (∀ d ∈ (tokenize text options).diagnostics, d.position.ExactIn text.toList) ∧
    ∃ (body : List Token) (stop : Token), (tokenize text options).tokens = body ++ [stop] ∧
      stop.kind = .eof ∧ stop.position.offset = text.length := by
  rw [tokenize_eq_lex]
  have hstamp : options.stamp = id := by
    funext t
    simp [LexerOptions.stamp, h]
  have htokens : (lex text options).tokens = (allTokens text).filter (options.keeps ·.kind) := by
    simp [lex, hstamp]
  refine ⟨fun t ht => ?_, fun d hd => exactIn_of_mem_diagnostics hd, ?_⟩
  · rw [htokens] at ht
    exact exactIn_of_mem_allTokens (List.mem_filter.1 ht).1
  · have hend : options.keeps (Token.endAt (Position.start.after text.toList)).kind = true := by
      simp [LexerOptions.keeps, Token.endAt, Kind.isTrivia]
    refine ⟨((placedLexemes text).filterMap tokenOf?).filter (options.keeps ·.kind),
      .endAt (Position.start.after text.toList), ?_, rfl, ?_⟩
    · rw [htokens, allTokens, List.filter_append, List.filter_cons, if_pos hend, List.filter_nil]
    · show (Position.start.after text.toList).offset = text.length
      simp [offset_after, Position.start, String.length_toList]

/-- A lone return, a tab and a line separator take a column each; the line feed ends the line. -/
theorem tokenize_places_behind_separators :
    let lexed := tokenize "C4\r\tq\u2028r\r\né D" { ignoreWhitespace := true }
    lexed.tokens.map Token.position =
      [⟨1, 1, 0⟩, ⟨1, 2, 1⟩, ⟨1, 5, 4⟩, ⟨1, 7, 6⟩, ⟨2, 3, 11⟩, ⟨2, 4, 12⟩] ∧
    lexed.diagnostics.map Diagnostic.position = [⟨1, 6, 5⟩, ⟨2, 1, 9⟩] ∧
    ∀ t ∈ lexed.tokens, t.position.ExactIn "C4\r\tq\u2028r\r\né D".toList := by
  refine ⟨by decide +kernel, by decide +kernel, ?_⟩
  exact (tokenize_places _ rfl).1

end ScoreText
