import ScoreText.Proofs.Chunks
import ScoreText.Proofs.Tokens
import ScoreText.Token.Scanner

/-!
A run of the lexer finds what cutting its text into pieces finds (`tokenize_eq_lex`). Every branch
of the scan takes in the pieces that start at the character it looks at (`scanFrom_eq`): it leaves
the same characters ahead, counts the places as `Position.step` does, and adds the tokens of the
pieces as the options ask for. So the whole scan takes in all pieces (`scanAll_eq`).
-/

namespace ScoreText

namespace Lexer

def moveOver (l : Lexer) (cs rest : List Char) : Lexer :=
  { l with ahead := rest, here := l.here.after cs }

/-- The lexer after it has taken in some pieces of its text, with the given characters ahead. -/
def takeIn (l : Lexer) (xs : List Lexeme) (rest : List Char) : Lexer :=
  let placed := placeFrom l.here xs
  { l with
    ahead := rest
    here := l.here.after (xs.flatMap Lexeme.source)
    tokens := l.tokens ++
      ((placed.filterMap tokenOf?).filter (l.options.keeps ·.kind)).map l.options.stamp
    diagnostics := l.diagnostics ++ placed.filterMap strayOf? }

variable {l : Lexer} {c : Char} {rest : List Char}

/-! ## Moving on -/

theorem advance_eq (h : l.ahead = c :: rest) (hc : c ≠ '\n') :
    l.advance = l.moveOver [c] rest := by
  simp [advance, moveOver, h, Position.after, Position.step, hc]

theorem advanceLine_eq (h : l.ahead = '\n' :: rest) : l.advanceLine = l.moveOver ['\n'] rest := by
  simp [advanceLine, moveOver, h, Position.after, Position.step]

theorem moveOver_nil (h : l.ahead = rest) : l.moveOver [] rest = l := by
  subst h
  rfl

theorem moveOver_moveOver (l : Lexer) (cs ds mid rest : List Char) :
    (l.moveOver cs mid).moveOver ds rest = l.moveOver (cs ++ ds) rest := by
  simp [moveOver, after_append]

/-- Moving on over a class of characters that has no line feed. -/
theorem advanceWhile_eq {p : Char → Bool} (hp : p '\n' = false) (l : Lexer) :
    l.advanceWhile p = l.moveOver (l.ahead.takeWhile p) (l.ahead.dropWhile p) := by
  fun_induction advanceWhile p l with
  | case1 l h ih =>
    cases ha : l.ahead with
    | nil => simp [char?, ha] at h
    | cons c rest =>
      have hc : p c = true := by simpa [char?, ha] using h
      have hne : c ≠ '\n' := by
        rintro rfl
        rw [hp] at hc
        cases hc
      rw [ih, advance_eq ha hne, List.takeWhile_cons_of_pos hc, List.dropWhile_cons_of_pos hc]
      exact moveOver_moveOver l [c] _ rest _
  | case2 l h =>
    cases ha : l.ahead with
    | nil => exact (moveOver_nil ha).symm
    | cons c rest =>
      have hc : ¬ p c = true := by simpa [char?, ha] using h
      rw [List.takeWhile_cons_of_neg hc, List.dropWhile_cons_of_neg hc, moveOver_nil ha]

theorem upTo_moveOver (l : Lexer) (cs rest : List Char) :
    l.upTo (l.moveOver cs rest) = l.ahead.take cs.length := by
  have hoffset : (l.here.after cs).offset - l.here.offset = cs.length := by
    rw [offset_after]
    omega
  rw [upTo, moveOver, hoffset, Int.toNat_natCast]

/-- The characters that were moved over are the run that was looked for. -/
theorem upTo_advanceWhile {p : Char → Bool} (hp : p '\n' = false) (l : Lexer) :
    l.upTo (l.advanceWhile p) = l.ahead.takeWhile p := by
  rw [advanceWhile_eq hp, upTo_moveOver]
  exact (List.prefix_iff_eq_take.1 (List.takeWhile_prefix p)).symm

/-! ## Taking in pieces -/

theorem takeIn_nil (h : l.ahead = rest) : l.takeIn [] rest = l := by
  subst h
  simp [takeIn, placeFrom, Position.after]

theorem takeIn_append (l : Lexer) (xs ys : List Lexeme) (mid rest : List Char) :
    l.takeIn (xs ++ ys) rest = (l.takeIn xs mid).takeIn ys rest := by
  simp [takeIn, placeFrom_append, after_append]

theorem takeIn_token (l : Lexer) {kind : Kind} (h : kind.isTrivia = false)
    (source text rest : List Char) :
    l.takeIn [.token kind source text] rest =
      (l.moveOver source rest).addToken kind text l.here := by
  cases ho : l.options.includePosition <;>
    simp [takeIn, moveOver, addToken, placeFrom, tokenOf?, strayOf?, Lexeme.source,
      LexerOptions.keeps, LexerOptions.stamp, h, ho]

theorem takeIn_trivia (l : Lexer) {kind : Kind} (h : kind.isTrivia = true)
    (source text rest : List Char) :
    l.takeIn [.token kind source text] rest =
      (l.moveOver source rest).addTrivia kind text l.here := by
  cases hw : l.options.ignoreWhitespace <;> cases ho : l.options.includePosition <;>
    simp [takeIn, moveOver, addTrivia, addToken, placeFrom, tokenOf?, strayOf?, Lexeme.source,
      LexerOptions.keeps, LexerOptions.stamp, h, hw, ho]

theorem takeIn_stray (l : Lexer) (c : Char) (rest : List Char) :
    l.takeIn [.stray c] rest = (l.report c l.here).moveOver [c] rest := by
  simp [takeIn, moveOver, report, placeFrom, tokenOf?, strayOf?, Lexeme.source]

theorem takeIn_carriage (l : Lexer) (rest : List Char) :
    l.takeIn [.carriage] rest = l.moveOver ['\r'] rest := by
  simp [takeIn, moveOver, placeFrom, tokenOf?, strayOf?, Lexeme.source]

/-! ## The branches of the scan -/

private theorem ne_newline_of_isAlpha (h : c.isAlpha = true) : c ≠ '\n' := by
  rintro rfl
  exact absurd h (by decide)

private theorem classifyWord_not_trivia (word : List Char) :
    (classifyWord word).isTrivia = false := by
  unfold classifyWord
  dsimp only
  repeat' split
  all_goals rfl

private theorem scanLetters_eq (h : l.ahead = c :: rest) (hc : c.isAlpha = true) :
    (l.advanceWhile Char.isAlpha).addToken
        (classifyWord (l.upTo (l.advanceWhile Char.isAlpha)))
        (l.upTo (l.advanceWhile Char.isAlpha)) l.here =
      l.takeIn (scanLetters c rest).1 (scanLetters c rest).2 := by
  have hp : Char.isAlpha '\n' = false := by decide
  rw [upTo_advanceWhile hp, advanceWhile_eq hp, h, List.takeWhile_cons_of_pos hc,
    List.dropWhile_cons_of_pos hc]
  exact (takeIn_token l (classifyWord_not_trivia _) _ _ _).symm

private theorem scanNumber_eq (h : l.ahead = c :: rest) (hc : c.isDigit = true) :
    l.scanNumber = l.takeIn [.plain .number (c :: rest.takeWhile Char.isDigit)]
      (rest.dropWhile Char.isDigit) := by
  have hp : Char.isDigit '\n' = false := by decide
  unfold scanNumber
  dsimp only
  rw [upTo_advanceWhile hp, advanceWhile_eq hp, h, List.takeWhile_cons_of_pos hc,
    List.dropWhile_cons_of_pos hc]
  exact (takeIn_token l rfl _ _ _).symm

/-- A character that makes a token by itself. -/
private theorem oneChar_eq (h : l.ahead = c :: rest) (hc : c ≠ '\n') {kind : Kind}
    (hk : kind.isTrivia = false) (text : List Char) :
    l.advance.addToken kind text l.here = l.takeIn [.token kind [c] text] rest := by
  rw [advance_eq h hc]
  exact (takeIn_token l hk _ _ _).symm

private theorem ne_newline_of_isAccidentalSign (h : isAccidentalSign c = true) : c ≠ '\n' := by
  rintro rfl
  exact absurd h (by decide)

theorem scanWord_eq (h : l.ahead = c :: rest) (hc : c.isAlpha = true) :
    l.scanWord c = l.takeIn (ScoreText.scanWord c rest).1 (ScoreText.scanWord c rest).2 := by
  have hletters := scanLetters_eq h hc
  have hnote : l.advance.addToken .note [c.toUpper] l.here = l.takeIn [.noteLetter c] rest :=
    oneChar_eq h (ne_newline_of_isAlpha hc) rfl _
  have hduration : l.advance.addToken .duration [c] l.here = l.takeIn [.plain .duration [c]] rest :=
    oneChar_eq h (ne_newline_of_isAlpha hc) rfl _
  unfold scanWord ScoreText.scanWord
  cases rest with
  | nil =>
    have hsecond : l.char? 1 = none := by simp [char?, h]
    dsimp only
    rw [hsecond]
    simp only [Option.any_none, Bool.or_self, Bool.not_false, Bool.and_true, Bool.false_and,
      Bool.false_eq_true, if_false, Bool.true_and]
    split
    · exact hduration
    · split
      · exact hnote
      · exact hletters
  | cons second after =>
    have hsecond : l.char? 1 = some second := by simp [char?, h]
    have hthird : l.char? 2 = after.head? := by simp [char?, h, List.head?_eq_getElem?]
    dsimp only
    rw [hsecond, hthird]
    simp only [Option.any_some, Option.toList_some]
    split
    · exact hduration
    · split
      · next hsign =>
        have haccidental : isAccidentalSign second = true := by
          rw [Bool.and_eq_true] at hsign
          exact hsign.1
        -- The sign is scanned by the lexer that has taken in the letter.
        rw [hnote, oneChar_eq rfl (ne_newline_of_isAccidentalSign haccidental) rfl]
        exact (takeIn_append l [.noteLetter c] [.plain .accidental [second]] _ after).symm
      · split
        · exact hnote
        · next hdigit =>
          simp only [Bool.eq_false_iff.2 hdigit, Bool.or_false]
          split
          · exact hnote
          · exact hletters

private theorem single_eq (h : l.ahead = c :: rest) {kind : Kind} (hk : singleKind? c = some kind) :
    l.advance.addToken kind [c] l.here = l.takeIn [.plain kind [c]] rest ∧
      signKind? c = some kind := by
  have hne : c ≠ '\n' := by
    rintro rfl
    cases hk
  have hsign : signKind? c = some kind ∧ kind.isTrivia = false := by
    unfold singleKind? at hk
    split at hk
    all_goals cases hk
    all_goals exact ⟨rfl, rfl⟩
  exact ⟨oneChar_eq h hne hsign.2 _, hsign.1⟩

private theorem space_eq (h : l.ahead = c :: rest) (hc : c = ' ' ∨ c = '\t') :
    l.advance.addTrivia .whitespace [c] l.here = l.takeIn [.plain .whitespace [c]] rest := by
  have hne : c ≠ '\n' := by rcases hc with rfl | rfl <;> decide
  rw [advance_eq h hne]
  exact (takeIn_trivia l rfl _ _ _).symm

private theorem lineFeed_eq (h : l.ahead = '\n' :: rest) :
    l.advanceLine.addTrivia .newline ['\n'] l.here = l.takeIn [.plain .newline ['\n']] rest := by
  rw [advanceLine_eq h]
  exact (takeIn_trivia l rfl _ _ _).symm

private theorem return_eq (h : l.ahead = '\r' :: rest) :
    (if l.advance.char? = some '\n' then
      l.advance.advanceLine.addTrivia .newline ['\r', '\n'] l.here else l.advance) =
      l.takeIn (scan '\r' rest).1 (scan '\r' rest).2 := by
  have hmoved := advance_eq h (by decide)
  have hchar : l.advance.char? = rest.head? := by
    simp [char?, h, List.head?_eq_getElem?]
  rw [hchar]
  cases rest with
  | nil =>
    rw [hmoved]
    exact (takeIn_carriage l []).symm
  | cons second after =>
    by_cases hsecond : second = '\n'
    · subst hsecond
      have hline : l.advance.ahead = '\n' :: after := by simp [h]
      rw [List.head?_cons, if_pos rfl, advanceLine_eq hline, hmoved, moveOver_moveOver]
      exact (takeIn_trivia l rfl ['\r', '\n'] _ after).symm
    · have hscan : scan '\r' (second :: after) = ([.carriage], second :: after) := by
        simp [scan, signKind?, hsecond]
      rw [List.head?_cons, if_neg (by simpa using hsecond), hscan, hmoved]
      exact (takeIn_carriage l _).symm

private theorem signKind?_eq_none (hspace : ¬ (c = ' ' ∨ c = '\t')) (hline : c ≠ '\n')
    (hsingle : singleKind? c = none) (hsign : ¬ isAccidentalSign c = true) :
    signKind? c = none := by
  unfold signKind?
  split
  · cases hsingle
  · cases hsingle
  · cases hsingle
  · exact absurd (by decide) hsign
  · exact absurd (.inl rfl) hspace
  · exact absurd (.inr rfl) hspace
  · exact absurd rfl hline
  · rfl

/-- **Every branch of the scan takes in the pieces that start at its character.** -/
theorem scanFrom_eq (h : l.ahead = c :: rest) :
    l.scanFrom c = l.takeIn (scan c rest).1 (scan c rest).2 := by
  unfold scanFrom
  dsimp only
  split
  · next hc =>
    rw [space_eq h hc]
    rcases hc with rfl | rfl <;> rfl
  · next hspace =>
    split
    · next hc =>
      subst hc
      exact lineFeed_eq h
    · next hline =>
      split
      · next hc =>
        subst hc
        exact return_eq h
      · next hreturn =>
        split
        · next kind hk =>
          obtain ⟨htaken, hsign⟩ := single_eq h hk
          simpa [scan, hsign] using htaken
        · next hsingle =>
          split
          · next hc =>
            rw [scan_of_isAlpha hc]
            exact scanWord_eq h hc
          · next halpha =>
            split
            · next hc =>
              obtain ⟨hsign, -⟩ := not_sign (.inr hc)
              simpa [scan, hsign, hreturn, halpha, hc] using scanNumber_eq h hc
            · next hdigit =>
              split
              · next hc =>
                obtain rfl : c = '#' := eq_sharp_of_isAccidentalSign hc halpha
                exact oneChar_eq h (by decide) rfl _
              · next hc =>
                have hsign := signKind?_eq_none hspace hline hsingle hc
                have hscan : scan c rest = ([.stray c], rest) := by
                  simp [scan, hsign, hreturn, halpha, hdigit]
                have hreport : (l.report c l.here).ahead = c :: rest := h
                rw [hscan, takeIn_stray, advance_eq hreport hline]

/-- The whole scan takes in all pieces of what is ahead. -/
theorem scanAll_eq (l : Lexer) : l.scanAll = l.takeIn (lexemes l.ahead) [] := by
  fun_induction scanAll l with
  | case1 l h =>
    rw [h, lexemes, takeIn_nil h]
  | case2 l c rest h ih =>
    have hscan := scanFrom_eq h
    have hahead : (l.scanFrom c).ahead = (scan c rest).2 := by
      rw [hscan]
      rfl
    rw [ih, hahead, hscan, h, lexemes_cons]
    exact (takeIn_append l _ _ _ _).symm

/-- **A run finds what cutting the text into pieces finds**, whatever has been found before. -/
theorem held_run (l : Lexer) : l.run.held = lex l.text l.options := by
  have hall : l.restart.scanAll = l.restart.takeIn (lexemes l.text.toList) [] :=
    scanAll_eq l.restart
  unfold run
  rw [hall]
  cases hp : l.options.includePosition <;>
    simp [takeIn, restart, held, addToken, lex, allTokens, placedLexemes, flatMap_source_lexemes,
      LexerOptions.keeps, LexerOptions.stamp, Kind.isTrivia, Token.endAt, hp]

end Lexer

theorem tokenize_eq_lex (text : String) (options : LexerOptions) :
    tokenize text options = lex text options :=
  Lexer.held_run _

end ScoreText
