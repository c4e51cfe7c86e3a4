import ScoreText.Proofs.Composition
import ScoreText.Proofs.Scanner

/-!
Lexing is local to lines. Nothing in front of a line end looks beyond it, and nothing behind it
looks back. So a text and another one on the lines below it are lexed one after the other: the
tokens and the lexical errors of the second one are found as if it stood alone, only further down
(`tokenize_lines`). A carriage return at the end of the first text makes no difference: it is part
of the line end then, and alone it means nothing.
-/

namespace ScoreText

def belowLines (a : String) : Position → Position := .down (a.toList.count '\n' + 1) (a.length + 1)

/-! ## What the lexer tells of the marks of a text -/

theorem bodyTokens_eq_marks (text : String) :
    bodyTokens text = (marksFrom .start text.toList).filterMap tokenOf? := by
  rw [bodyTokens_eq_tokensFrom, tokensFrom_eq_marks]

/-- White space is no lexical error. -/
theorem diagnostics_eq_marks (text : String) (options : LexerOptions) :
    (lex text options).diagnostics = (marksFrom .start text.toList).filterMap strayOf? := by
  show (placeFrom .start (lexemes text.toList)).filterMap strayOf? = _
  rw [marksFrom, List.filterMap_filter]
  congr 1
  funext placed
  obtain ⟨p, x⟩ := placed
  cases x with
  | stray c => rfl
  | carriage => rfl
  | token kind source text => exact (ite_self none).symm

theorem filter_lexForParse (text : String) :
    (lexForParse text).tokens.filter (·.kind ≠ .eof) = bodyTokens text := by
  have hbody : (bodyTokens text).filter (·.kind ≠ .eof) = bodyTokens text :=
    List.filter_eq_self.2 fun t ht => decide_eq_true (kind_of_mem_bodyTokens ht)
  rw [lexForParse_tokens, significantTokens_eq, List.filter_append, hbody]
  exact List.append_nil _

/-! ## Texts below other texts -/

/-- The marks of a text and of the lines below it. -/
theorem marksFrom_lines (a b : String) :
    marksFrom .start (a ++ "\n" ++ b).toList = marksFrom .start a.toList ++
      (marksFrom .start b.toList).map fun (q, x) => (belowLines a q, x) := by
  have htext : (a ++ "\n" ++ b).toList = a.toList ++ '\n' :: b.toList := by simp
  rw [htext, marksFrom_append _ _ (by decide), Position.start_after_newline, String.length_toList,
    List.append_right_inj, marksFrom, placeFrom_down, List.filter_map]
  rfl

/-- What is told of the marks of a text is told of them on the lines below, and only moved. -/
theorem filterMap_marksFrom_lines {α : Type} {f : Position × Lexeme → Option α} {g : α → α}
    (a b : String) (hmove : ∀ q x, f (belowLines a q, x) = (f (q, x)).map g) :
    (marksFrom .start (a ++ "\n" ++ b).toList).filterMap f =
      (marksFrom .start a.toList).filterMap f ++
        ((marksFrom .start b.toList).filterMap f).map g := by
  rw [marksFrom_lines, List.filterMap_append, List.filterMap_map, List.map_filterMap]
  congr 2
  funext (q, x)
  exact hmove q x

/-- The end of a text and the lines below it. -/
theorem after_lines (a b : String) :
    Position.start.after (a ++ "\n" ++ b).toList =
      belowLines a (Position.start.after b.toList) := by
  have hline := Position.start_after_newline a.toList
  rw [String.length_toList] at hline
  rw [String.toList_append, String.toList_append, after_append, belowLines, ← Position.down_after]
  exact congrArg (·.after b.toList) hline

/-- **Lexing is local to lines.** White space left out, the tokens of a text, a line end and another
text are those of the first without its end, and then those of the second with its end. These are
moved by the lines and characters of the first and the line end, and stay in their columns. So it is
with the lexical errors. -/
theorem tokenize_lines (a b : String) :
    let options : LexerOptions := { ignoreWhitespace := true }
    let below (p : Position) : Position :=
      ⟨p.line + (1 + a.toList.count '\n'), p.column, p.offset + (a.length + 1)⟩
    (tokenize (a ++ "\n" ++ b) options).tokens =
      (tokenize a options).tokens.filter (·.kind ≠ .eof) ++
        (tokenize b options).tokens.map (Token.relocate below) ∧
    (tokenize (a ++ "\n" ++ b) options).diagnostics =
      (tokenize a options).diagnostics ++
        (tokenize b options).diagnostics.map (Diagnostic.relocate below) := by
  intro options below
  have hbelow : below = belowLines a := by
    funext p
    simp only [below, belowLines, Position.down, Position.mk.injEq, true_and]
    omega
  have hlex (text : String) : tokenize text options = lexForParse text := tokenize_eq_lex text _
  have htoken (q : Position) (x : Lexeme) :
      tokenOf? (belowLines a q, x) = (tokenOf? (q, x)).map (Token.relocate (belowLines a)) := by
    cases x <;> rfl
  have hstray (q : Position) (x : Lexeme) :
      strayOf? (belowLines a q, x) =
        (strayOf? (q, x)).map (Diagnostic.relocate (belowLines a)) := by
    cases x <;> rfl
  rw [hbelow, hlex, hlex, hlex]
  constructor
  · rw [filter_lexForParse, lexForParse_tokens, lexForParse_tokens, significantTokens_eq,
      significantTokens_eq, after_lines, bodyTokens_eq_marks, bodyTokens_eq_marks,
      bodyTokens_eq_marks, filterMap_marksFrom_lines a b htoken,
      List.map_append, List.append_assoc]
    rfl
  · rw [lexForParse, lexForParse, lexForParse, diagnostics_eq_marks, diagnostics_eq_marks,
      diagnostics_eq_marks, filterMap_marksFrom_lines a b hstray]

end ScoreText
