import ScoreText.Proofs.Chunks
import ScoreText.Proofs.Limits
import ScoreText.Proofs.Tiling

/-!
Lenient parsing is parsing with the foreign characters blanked. No rule of the lexer can tell a
character that is foreign to the notation from a space: neither looks like a letter, a digit or a
sign, and both take up one column. So blanking the foreign characters turns the stray pieces of a
text into white space and leaves every other piece alone (`lexemes_map_blank`). The tokens stay
where they are, and all that is lost are the lexical errors (`parseText_lenient`).
-/

namespace ScoreText

def blank (c : Char) : Char := if isNotationChar c then c else ' '

def blanked (text : String) : String := text.map blank

/-! ## Blanked characters -/

theorem blank_of_isNotationChar {c : Char} (h : isNotationChar c = true) : blank c = c := by
  simp [blank, h]

theorem blank_of_foreign {c : Char} (h : isNotationChar c = false) : blank c = ' ' := by
  simp [blank, h]

theorem isNotationChar_blank (c : Char) : isNotationChar (blank c) = true := by
  unfold blank
  split
  · next h => exact h
  · decide

theorem isNotationChar_of_isAccidentalSign {c : Char} (h : isAccidentalSign c = true) :
    isNotationChar c = true := by
  obtain ⟨a, ha⟩ := Option.isSome_iff_exists.1 h
  rw [Accidental.ofChar?_eq_some_iff.1 ha]
  cases a <;> decide

/-- A test that only characters of the notation pass, and a space does not, cannot tell a character
from its blank. -/
private theorem blank_congr {p : Char → Bool} (hspace : p ' ' = false)
    (h : ∀ c, p c = true → isNotationChar c = true) (c : Char) : p (blank c) = p c := by
  cases hc : isNotationChar c with
  | true => rw [blank_of_isNotationChar hc]
  | false =>
    have hp : p c = false := by
      rw [Bool.eq_false_iff]
      intro hp
      rw [h c hp] at hc
      cases hc
    rw [blank_of_foreign hc, hspace, hp]

theorem isAlpha_blank (c : Char) : (blank c).isAlpha = c.isAlpha :=
  blank_congr (by decide) (fun _ => isNotationChar_of_isAlpha) c

theorem isDigit_blank (c : Char) : (blank c).isDigit = c.isDigit :=
  blank_congr (by decide) (fun _ => isNotationChar_of_isDigit) c

theorem isAccidentalSign_blank (c : Char) : isAccidentalSign (blank c) = isAccidentalSign c :=
  blank_congr (by decide) (fun _ => isNotationChar_of_isAccidentalSign) c

theorem blank_eq_newline_iff {c : Char} : blank c = '\n' ↔ c = '\n' := by
  constructor
  · intro h
    cases hc : isNotationChar c with
    | true => rwa [blank_of_isNotationChar hc] at h
    | false =>
      rw [blank_of_foreign hc] at h
      cases h
  · rintro rfl
    rfl

/-- Blanking changes nothing in a run of characters of the notation, nor where the run ends. -/
private theorem span_map_blank {p : Char → Bool} (hp : ∀ c, p (blank c) = p c)
    (h : ∀ c, p c = true → isNotationChar c = true) (cs : List Char) :
    (cs.map blank).takeWhile p = cs.takeWhile p ∧
      (cs.map blank).dropWhile p = (cs.dropWhile p).map blank := by
  have hcomp : p ∘ blank = p := funext hp
  rw [List.takeWhile_map, List.dropWhile_map, hcomp]
  refine ⟨?_, rfl⟩
  rw [List.map_congr_left (g := id), List.map_id]
  intro c hc
  exact blank_of_isNotationChar (h c (List.all_eq_true.1 List.all_takeWhile c hc))

/-! ## Blanked pieces -/

/-- White space in the place of a stray character. -/
def Lexeme.blanked : Lexeme → Lexeme
  | .stray _ => .plain .whitespace [' ']
  | x => x

private theorem scanLetters_map_blank (c : Char) (rest : List Char) :
    scanLetters c (rest.map blank) =
      ((scanLetters c rest).1.map Lexeme.blanked, (scanLetters c rest).2.map blank) := by
  obtain ⟨htake, hdrop⟩ := span_map_blank isAlpha_blank (fun _ => isNotationChar_of_isAlpha) rest
  simp [scanLetters, htake, hdrop, Lexeme.plain, Lexeme.blanked]

private theorem scanWord_map_blank (c : Char) (rest : List Char) :
    scanWord c (rest.map blank) =
      ((scanWord c rest).1.map Lexeme.blanked, (scanWord c rest).2.map blank) := by
  cases rest with
  | nil =>
    simp only [List.map_nil, scanWord]
    split
    · rfl
    · split
      · rfl
      · exact scanLetters_map_blank c []
  | cons second after =>
    have hthird : ((after.map blank).head?.any Char.isAlpha) = after.head?.any Char.isAlpha := by
      cases after with
      | nil => rfl
      | cons third _ => exact isAlpha_blank third
    simp only [List.map_cons, scanWord, isDigit_blank, isAccidentalSign_blank, isAlpha_blank,
      hthird]
    split
    · rfl
    · split
      · next hsign =>
        simp only [Bool.and_eq_true] at hsign
        rw [blank_of_isNotationChar (isNotationChar_of_isAccidentalSign hsign.1)]
        rfl
      · split
        · rfl
        · split
          · rfl
          · exact scanLetters_map_blank c (second :: after)

private theorem scan_of_foreign {c : Char} (h : isNotationChar c = false) (rest : List Char) :
    scan c rest = ([.stray c], rest) := by
  have hne {d : Char} (hd : isNotationChar d = true) : c ≠ d := by
    rintro rfl
    rw [h] at hd
    cases hd
  have hsign : signKind? c = none := by
    unfold signKind?
    split
    all_goals first | rfl | exact absurd rfl (hne (by decide))
  have hreturn : c ≠ '\r' := hne (by decide)
  have halpha : c.isAlpha = false := by
    rw [Bool.eq_false_iff]
    intro ha
    exact hne (isNotationChar_of_isAlpha ha) rfl
  have hdigit : c.isDigit = false := by
    rw [Bool.eq_false_iff]
    intro hd
    exact hne (isNotationChar_of_isDigit hd) rfl
  simp [scan, hsign, hreturn, halpha, hdigit]

/-- Scanning blanked characters gives the blanked pieces. -/
theorem scan_map_blank (c : Char) (rest : List Char) :
    scan (blank c) (rest.map blank) =
      ((scan c rest).1.map Lexeme.blanked, (scan c rest).2.map blank) := by
  cases hc : isNotationChar c with
  | false =>
    rw [blank_of_foreign hc, scan_of_foreign hc]
    rfl
  | true =>
    rw [blank_of_isNotationChar hc]
    unfold scan
    split
    · rfl
    · next hsign =>
      split
      · cases rest with
        | nil => rfl
        | cons d after =>
          by_cases hd : d = '\n'
          · subst hd
            rfl
          · have hblank : blank d ≠ '\n' := fun h => hd (blank_eq_newline_iff.1 h)
            simp [hd, hblank, Lexeme.blanked]
      · next hreturn =>
        split
        · exact scanWord_map_blank c rest
        · split
          · obtain ⟨htake, hdrop⟩ :=
              span_map_blank isDigit_blank (fun _ => isNotationChar_of_isDigit) rest
            simp [htake, hdrop, Lexeme.plain, Lexeme.blanked]
          · next halpha hdigit =>
            -- No character of the notation comes this far.
            rw [isNotationChar_eq_false hsign hreturn halpha hdigit] at hc
            cases hc

/-- Blanking the foreign characters of a text blanks its stray pieces. -/
theorem lexemes_map_blank (cs : List Char) :
    lexemes (cs.map blank) = (lexemes cs).map Lexeme.blanked := by
  fun_induction lexemes cs with
  | case1 => simp [lexemes]
  | case2 c rest ih => rw [List.map_cons, lexemes_cons, scan_map_blank, ih, List.map_append]

/-! ## Blanked texts -/

theorem after_map_blank (p : Position) (cs : List Char) : p.after (cs.map blank) = p.after cs := by
  have hstep (p : Position) (c : Char) : p.step (blank c) = p.step c := by
    simp only [Position.step, blank_eq_newline_iff]
  simp only [Position.after, List.foldl_map, hstep]

private theorem after_source_blanked (p : Position) {x : Lexeme} (h : x.Sound) :
    p.after x.blanked.source = p.after x.source := by
  cases x with
  | token kind source text => rfl
  | carriage => rfl
  | stray c =>
    have hc : isNotationChar c = false := h
    have hmap := after_map_blank p [c]
    rwa [List.map_singleton, blank_of_foreign hc] at hmap

/-- Blanked pieces have the same tokens at the same places, but for white space. -/
theorem meaningful_blanked (p : Position) {xs : List Lexeme} (h : ∀ x ∈ xs, x.Sound) :
    meaningful (placeFrom p (xs.map Lexeme.blanked)) = meaningful (placeFrom p xs) := by
  induction xs generalizing p with
  | nil => rfl
  | cons x xs ih =>
    obtain ⟨hx, hxs⟩ := List.forall_mem_cons.1 h
    rw [List.map_cons, placeFrom, placeFrom, after_source_blanked p hx]
    have hrest := ih (p.after x.source) hxs
    cases x with
    | token kind source text =>
      show meaningful ([(p, .token kind source text)] ++ _) =
        meaningful ([(p, .token kind source text)] ++ _)
      rw [meaningful_append, meaningful_append, hrest]
    | stray c => exact hrest
    | carriage => exact hrest

theorem significantTokens_blanked (text : String) :
    significantTokens (blanked text) = significantTokens text := by
  have hlist : (blanked text).toList = text.toList.map blank := String.toList_map
  rw [significantTokens_eq, significantTokens_eq, bodyTokens_eq_meaningful,
    bodyTokens_eq_meaningful, placedLexemes, placedLexemes, hlist, lexemes_map_blank,
    after_map_blank, meaningful_blanked _ fun x hx => sound_of_mem_lexemes hx]

theorem diagnostics_blanked (text : String) : (lex (blanked text)).diagnostics = [] := by
  rw [lex_diagnostics_eq_nil_iff]
  intro c hc
  rw [blanked, String.toList_map, List.mem_map] at hc
  obtain ⟨d, -, rfl⟩ := hc
  exact isNotationChar_blank d

/-- **Lenient parsing is parsing with the foreign characters blanked.** A blanked text has no
lexical errors, and the tokens that carry meaning are those of the text, at the same places. A
parser that is not strict gives both texts the same score. Its diagnostics of the text are the
lexical errors, one for each foreign character in the order of the offsets, and behind them those of
the blanked text, cut off at the limit. -/
theorem parseText_lenient (text : String) :
    (lex (blanked text)).diagnostics = [] ∧
    significantTokens (blanked text) = significantTokens text ∧
    (lex text).diagnostics.map (fun d => (d.message, d.position.offset)) =
      (text.toList.zipIdx.filter (!isNotationChar ·.1)).map (fun a =>
        ("Unexpected character: '" ++ String.singleton a.1 ++ "'", (a.2 : Int))) ∧
    ∀ (keepGoing : Bool) (n : Int),
      let options : ParserOptions := ⟨false, keepGoing, n⟩
      ∃ r r', parseText options text = .ok r ∧ parseText options (blanked text) = .ok r' ∧
        r.score = r'.score ∧
        r.diagnostics = ((lex text).diagnostics ++ r'.diagnostics).take options.limit := by
  refine ⟨diagnostics_blanked text, significantTokens_blanked text, map_diagnostics_lex text, ?_⟩
  intro keepGoing n options
  have hcursor : textCursor (blanked text) = textCursor text := by
    rw [textCursor, significantTokens_blanked, textCursor]
  refine ⟨_, _, parseText_eq options text, parseText_eq options (blanked text), ?_⟩
  rw [hcursor, diagnostics_blanked]
  exact ⟨rfl, (take_append_take _ _ _).symm⟩

end ScoreText
