import ScoreText.Proofs.Parser
import ScoreText.Proofs.Places
import ScoreText.Proofs.Run

/-!
What the options of the lexer do. They leave tokens of white space out and take the places off the
rest, and nothing else; lexical errors stay as they are, with their places. A parser does not see
whether white space was left out, as it leaves it out itself (`Cursor.ofTokens_filter`), and it
reads tokens without places like any others (`parseTokens_of_lexical`).
-/

namespace ScoreText

namespace LexerOptions

variable (o : LexerOptions) (t : Token)

@[simp] theorem kind_stamp : (o.stamp t).kind = t.kind := by
  unfold stamp
  split <;> rfl

@[simp] theorem text_stamp : (o.stamp t).text = t.text := by
  unfold stamp
  split <;> rfl

theorem lexical_stamp {t : Token} (h : t.Lexical) : (o.stamp t).Lexical := by
  rwa [Token.Lexical, kind_stamp, text_stamp]

end LexerOptions

/-- Tokens of white space make no difference to a cursor. -/
theorem Cursor.ofTokens_filter (tokens : List Token) :
    Cursor.ofTokens (tokens.filter (!·.kind.isTrivia)) = Cursor.ofTokens tokens := by
  unfold ofTokens
  simp [List.filter_filter]

/-- Tokens with an end among them, all with texts of their kinds, are parsed to a result. -/
theorem parseTokens_of_lexical (options : ParserOptions) {tokens : List Token}
    (hend : ∃ t ∈ tokens, t.kind = .eof)
    (hlex : ∀ t ∈ tokens, t.kind.isTrivia = false → t.Lexical) :
    ∃ r, parseTokens options tokens = .ok r := by
  have hahead : ∀ t ∈ (Cursor.ofTokens tokens).ahead, t.Lexical := by
    obtain ⟨e, he, hk⟩ := hend
    have hne : tokens.filter (!·.kind.isTrivia) ≠ [] :=
      List.ne_nil_of_mem (List.mem_filter.2 ⟨he, by simp [hk, Kind.isTrivia]⟩)
    intro t ht
    rw [Cursor.ahead_ofTokens hne] at ht
    obtain ⟨hmem, htrivia⟩ := List.mem_filter.1 ht
    exact hlex t hmem (by simpa using htrivia)
  exact ⟨_, parseTokens_eq_ofEvents options hend hahead⟩

/-! ## The tokens under all options -/

theorem lexical_of_mem_lex {text : String} {options : LexerOptions} {t : Token}
    (h : t ∈ (lex text options).tokens) (ht : t.kind.isTrivia = false) : t.Lexical := by
  obtain ⟨u, hu, rfl⟩ := List.mem_map.1 h
  rw [LexerOptions.kind_stamp] at ht
  have hmem : u ∈ significantTokens text := by
    rw [significantTokens, lex_tokens]
    exact List.mem_filter.2 ⟨(List.mem_filter.1 hu).1, by simp [ht]⟩
  exact options.lexical_stamp (lexical_of_mem_significantTokens hmem)

theorem eof_mem_lex (text : String) (options : LexerOptions) :
    ∃ t ∈ (lex text options).tokens, t.kind = .eof := by
  refine ⟨options.stamp (.endAt (Position.start.after text.toList)), ?_, ?_⟩
  · refine List.mem_map.2 ⟨_, List.mem_filter.2 ⟨?_, ?_⟩, rfl⟩
    · simp [allTokens]
    · simp [LexerOptions.keeps, Token.endAt, Kind.isTrivia]
  · rw [LexerOptions.kind_stamp]
    rfl

/-- Leaving white space out before or after the places are taken off is the same. -/
theorem lex_ignoreWhitespace (text : String) (places : Bool) :
    (lex text ⟨true, places⟩).tokens =
      (lex text ⟨false, places⟩).tokens.filter (!·.kind.isTrivia) := by
  have hstamp : LexerOptions.stamp ⟨true, places⟩ = LexerOptions.stamp ⟨false, places⟩ := rfl
  simp only [lex]
  rw [List.filter_map, List.filter_filter, hstamp]
  congr 1
  refine List.filter_congr fun t _ => ?_
  simp [LexerOptions.keeps]

/-- **Options of the lexer only leave out and blank, and a parser does not see white space.** For
every text and all options, the tokens are those found under the default options, less the white
space if it is to be ignored, and at no place if places are not wanted. The lexical errors are
always the same, at their exact places. And a parser over the tokens with white space and one over
the tokens without it return the same result. -/
theorem tokenize_options (text : String) (o : LexerOptions) :
    (tokenize text o).tokens =
      (if o.ignoreWhitespace then
        (tokenize text).tokens.filter fun t => t.kind ≠ .whitespace ∧ t.kind ≠ .newline
      else (tokenize text).tokens).map
        (fun t => if o.includePosition then t else { t with position := .nowhere }) ∧
    (tokenize text o).diagnostics = (tokenize text).diagnostics ∧
    (∀ d ∈ (tokenize text o).diagnostics, d.position.ExactIn text.toList) ∧
    ∀ (options : ParserOptions) (places : Bool), ∃ r,
      (Parser.ofTokens options (tokenize text ⟨true, places⟩).tokens).run.1 = .ok r ∧
      (Parser.ofTokens options (tokenize text ⟨false, places⟩).tokens).run.1 = .ok r := by
  simp only [tokenize_eq_lex]
  refine ⟨?_, rfl, fun d hd => exactIn_of_mem_diagnostics hd, fun options places => ?_⟩
  · have htrivia (k : Kind) : k.isTrivia = false ↔ k ≠ .whitespace ∧ k ≠ .newline := by
      cases k <;> simp [Kind.isTrivia]
    rw [lex_tokens]
    unfold lex
    dsimp only
    congr 1
    cases ho : o.ignoreWhitespace with
    | false => simp [LexerOptions.keeps, ho]
    | true => simp [LexerOptions.keeps, ho, ← htrivia]
  · obtain ⟨r, hr⟩ := parseTokens_of_lexical options (eof_mem_lex text ⟨false, places⟩)
      fun t ht => lexical_of_mem_lex ht
    have hcursor := Cursor.ofTokens_filter (lex text ⟨false, places⟩).tokens
    refine ⟨r, ?_, ?_⟩
    · rw [lex_ignoreWhitespace, Parser.ofTokens, hcursor]
      exact (Parser.run_eq_parseTokens options _).trans hr
    · rw [Parser.run_eq_parseTokens, hr]

end ScoreText
