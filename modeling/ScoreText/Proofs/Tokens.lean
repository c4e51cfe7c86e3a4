import ScoreText.Proofs.Lexeme
import ScoreText.Score.Parse

/-!
The token list of a text. The tokens that carry meaning are the tokens of the body, none of them
an end token, and one end token after them (`significantTokens_eq`). Each has a text of its kind,
and their offsets increase strictly (`pairwise_significantTokens`). There are no lexical errors
exactly when all characters belong to the notation (`lex_diagnostics_eq_nil_iff`).
-/

namespace ScoreText

def significantTokens (text : String) : List Token :=
  (lex text).tokens.filter (!·.kind.isTrivia)

/-- The tokens of a text that carry meaning, up to the end token. -/
def bodyTokens (text : String) : List Token :=
  (significantTokens text).takeWhile (·.kind ≠ .eof)

def Token.Lexical (t : Token) : Prop := t.kind.Admits t.text.toList

theorem lex_tokens (text : String) : (lex text).tokens = allTokens text := by
  have hk : (fun t : Token => LexerOptions.keeps {} t.kind) = fun _ => true := by
    funext t
    simp [LexerOptions.keeps]
  have hs : LexerOptions.stamp {} = id := by
    funext t
    simp [LexerOptions.stamp]
  simp [lex, hk, hs]

theorem lexForParse_tokens (text : String) :
    (lexForParse text).tokens = significantTokens text := by
  have hk : (fun t : Token => LexerOptions.keeps { ignoreWhitespace := true } t.kind) =
      fun t => !t.kind.isTrivia := by
    funext t
    simp [LexerOptions.keeps]
  have hs : LexerOptions.stamp { ignoreWhitespace := true } = id := by
    funext t
    simp [LexerOptions.stamp]
  rw [significantTokens, lex_tokens]
  simp [lexForParse, lex, hk, hs]

theorem lexForParse_diagnostics (text : String) :
    (lexForParse text).diagnostics = (lex text).diagnostics := rfl

/-! ## Places -/

theorem offset_after (p : Position) (cs : List Char) :
    (p.after cs).offset = p.offset + cs.length := by
  induction cs generalizing p with
  | nil => simp [Position.after]
  | cons c cs ih =>
    have hstep : (p.step c).offset = p.offset + 1 := by
      unfold Position.step
      split <;> rfl
    have hrest := ih (p.step c)
    simp only [Position.after, List.foldl_cons, List.length_cons] at hrest ⊢
    omega

theorem after_append (p : Position) (cs ds : List Char) :
    p.after (cs ++ ds) = (p.after cs).after ds := by
  simp [Position.after]

theorem placeFrom_append (p : Position) (xs ys : List Lexeme) :
    placeFrom p (xs ++ ys) =
      placeFrom p xs ++ placeFrom (p.after (xs.flatMap Lexeme.source)) ys := by
  induction xs generalizing p with
  | nil => simp [placeFrom, Position.after]
  | cons x xs ih => simp [placeFrom, ih, after_append]

theorem map_snd_placeFrom (p : Position) (xs : List Lexeme) :
    (placeFrom p xs).map Prod.snd = xs := by
  induction xs generalizing p with
  | nil => rfl
  | cons x xs ih => simp [placeFrom, ih]

theorem mem_lexemes_of_mem_placedLexemes {text : String} {p : Position} {x : Lexeme}
    (h : (p, x) ∈ placedLexemes text) : x ∈ lexemes text.toList := by
  rw [← map_snd_placeFrom .start (lexemes text.toList)]
  exact List.mem_map.2 ⟨_, h, rfl⟩

theorem offset_le_of_mem_placeFrom {p : Position} {xs : List Lexeme} {a : Position × Lexeme}
    (h : a ∈ placeFrom p xs) :
    p.offset ≤ a.1.offset ∧
      a.1.offset + a.2.source.length ≤ (p.after (xs.flatMap Lexeme.source)).offset := by
  induction xs generalizing p with
  | nil => simp [placeFrom] at h
  | cons x xs ih =>
    simp only [List.flatMap_cons, after_append]
    have hx := offset_after p x.source
    have hxs := offset_after (p.after x.source) (xs.flatMap Lexeme.source)
    rcases List.mem_cons.1 h with rfl | h
    · dsimp only
      omega
    · have := ih h
      omega

/-- The places of pieces that are not empty follow each other strictly. -/
theorem pairwise_placeFrom (p : Position) {xs : List Lexeme} (h : ∀ x ∈ xs, x.source ≠ []) :
    (placeFrom p xs).Pairwise fun a b => a.1.offset < b.1.offset := by
  induction xs generalizing p with
  | nil => simp [placeFrom]
  | cons x xs ih =>
    rw [placeFrom, List.pairwise_cons]
    refine ⟨fun a ha => ?_, ih _ fun y hy => h y (by simp [hy])⟩
    have hle := (offset_le_of_mem_placeFrom ha).1
    have hlen := List.length_pos_iff.2 (h x (by simp))
    rw [offset_after] at hle
    dsimp only
    omega

/-! ## The body and the end -/

/-- The tokens of the pieces, white space left out. -/
def meaningful (xs : List (Position × Lexeme)) : List Token :=
  (xs.filterMap tokenOf?).filter (!·.kind.isTrivia)

theorem meaningful_append (xs ys : List (Position × Lexeme)) :
    meaningful (xs ++ ys) = meaningful xs ++ meaningful ys := by
  simp [meaningful]

theorem mem_meaningful {xs : List (Position × Lexeme)} {t : Token} (h : t ∈ meaningful xs) :
    ∃ source text, (t.position, Lexeme.token t.kind source text) ∈ xs ∧
      t.text = String.ofList text ∧ t.kind.isTrivia = false := by
  simp only [meaningful, List.mem_filter, List.mem_filterMap, Bool.not_eq_true'] at h
  obtain ⟨⟨⟨p, x⟩, hx, ht⟩, htrivia⟩ := h
  cases x with
  | token kind source text =>
    cases ht
    exact ⟨source, text, hx, rfl, htrivia⟩
  | stray c => cases ht
  | carriage => cases ht

private theorem mem_meaningful_placed {text : String} {t : Token}
    (h : t ∈ meaningful (placedLexemes text)) : t.kind ≠ .eof ∧ t.Lexical := by
  obtain ⟨source, cs, hx, ht, -⟩ := mem_meaningful h
  obtain ⟨hk, ha, -, -⟩ := sound_of_mem_lexemes (mem_lexemes_of_mem_placedLexemes hx)
  refine ⟨hk, ?_⟩
  rw [Token.Lexical, ht, String.toList_ofList]
  exact ha

private theorem significantTokens_eq_meaningful (text : String) :
    significantTokens text =
      meaningful (placedLexemes text) ++ [.endAt (Position.start.after text.toList)] := by
  simp [significantTokens, lex_tokens, allTokens, meaningful, Token.endAt, Kind.isTrivia]

theorem bodyTokens_eq_meaningful (text : String) :
    bodyTokens text = meaningful (placedLexemes text) := by
  have hne : ∀ t ∈ meaningful (placedLexemes text), (decide (t.kind ≠ .eof)) = true :=
    fun t ht => by simpa using (mem_meaningful_placed ht).1
  rw [bodyTokens, significantTokens_eq_meaningful, List.takeWhile_append_of_pos hne]
  simp [Token.endAt]

/-- The tokens that carry meaning are those of the body and one end token. -/
theorem significantTokens_eq (text : String) :
    significantTokens text =
      bodyTokens text ++ [.endAt (Position.start.after text.toList)] := by
  rw [bodyTokens_eq_meaningful, significantTokens_eq_meaningful]

theorem kind_of_mem_bodyTokens {text : String} {t : Token} (h : t ∈ bodyTokens text) :
    t.kind ≠ .eof := by
  rw [bodyTokens_eq_meaningful] at h
  exact (mem_meaningful_placed h).1

theorem lexical_of_mem_significantTokens {text : String} {t : Token}
    (h : t ∈ significantTokens text) : t.Lexical := by
  rw [significantTokens_eq_meaningful] at h
  rcases List.mem_append.1 h with h | h
  · exact (mem_meaningful_placed h).2
  · rw [List.mem_singleton.1 h]
    rfl

theorem isTrivia_of_mem_significantTokens {text : String} {t : Token}
    (h : t ∈ significantTokens text) : t.kind.isTrivia = false := by
  simpa using (List.mem_filter.1 h).2

/-- The pieces of a text stand at increasing offsets. -/
theorem pairwise_placedLexemes (text : String) :
    (placedLexemes text).Pairwise fun a b => a.1.offset < b.1.offset :=
  pairwise_placeFrom _ fun _ hx => source_ne_nil (sound_of_mem_lexemes hx)

/-- The tokens of a text, white space and the end included, stand at increasing offsets. -/
theorem pairwise_tokens (text : String) :
    (lex text).tokens.Pairwise fun t u => t.position.offset < u.position.offset := by
  rw [lex_tokens, allTokens, List.pairwise_append]
  refine ⟨List.Pairwise.filterMap _ ?_ (pairwise_placedLexemes text), by simp, fun t ht u hu => ?_⟩
  · rintro ⟨p, x⟩ ⟨q, y⟩ hlt t ht u hu
    cases x <;> cases ht
    cases y <;> cases hu
    exact hlt
  · obtain ⟨⟨p, x⟩, hx, he⟩ := List.mem_filterMap.1 ht
    have hle := (offset_le_of_mem_placeFrom hx).2
    have hsound := sound_of_mem_lexemes (mem_lexemes_of_mem_placedLexemes hx)
    have hlen := List.length_pos_iff.2 (source_ne_nil hsound)
    rw [flatMap_source_lexemes] at hle
    rw [List.mem_singleton.1 hu]
    cases x <;> cases he
    dsimp only [Token.endAt] at hle ⊢
    omega

/-- The tokens that carry meaning stand at increasing offsets. -/
theorem pairwise_significantTokens (text : String) :
    (significantTokens text).Pairwise fun t u => t.position.offset < u.position.offset :=
  (pairwise_tokens text).filter _

/-! ## Lexical errors -/

/-- There are no lexical errors exactly when all characters belong to the notation. -/
theorem lex_diagnostics_eq_nil_iff (text : String) :
    (lex text).diagnostics = [] ↔ ∀ c ∈ text.toList, isNotationChar c = true := by
  rw [← noStray_iff]
  simp only [lex, List.filterMap_eq_nil_iff]
  constructor
  · intro h c hc
    rw [← map_snd_placeFrom .start (lexemes text.toList), List.mem_map] at hc
    obtain ⟨⟨p, x⟩, hx, rfl⟩ := hc
    cases h _ hx
  · rintro h ⟨p, x⟩ hx
    cases x with
    | token kind source text => rfl
    | carriage => rfl
    | stray c => exact absurd (mem_lexemes_of_mem_placedLexemes hx) (h c)

end ScoreText
