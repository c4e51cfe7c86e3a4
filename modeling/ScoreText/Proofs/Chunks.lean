import ScoreText.Proofs.Lexeme

/-!
How the lexer cuts the words and signs that notation is printed with. Each rule says which pieces
come first and leaves the characters behind them alone; most of them need to know what may follow.
-/

namespace ScoreText

/-- What may follow a printed word: a space, a line break or the end of the text. -/
def AtBreak (rest : List Char) : Prop := ∀ c ∈ rest.head?, c = ' ' ∨ c = '\n'

theorem atBreak_nil : AtBreak [] := by simp [AtBreak]

theorem atBreak_space (rest : List Char) : AtBreak (' ' :: rest) := by simp [AtBreak]

theorem atBreak_newline (rest : List Char) : AtBreak ('\n' :: rest) := by simp [AtBreak]

/-- What comes next cannot make a note letter of a duration code. -/
def NoSign (rest : List Char) : Prop :=
  ∀ c ∈ rest.head?, c.isDigit = false ∧ isAccidentalSign c = false

theorem AtBreak.noSign {rest : List Char} (h : AtBreak rest) : NoSign rest := by
  intro c hc
  rcases h c hc with rfl | rfl <;> decide

theorem lexemes_cons (c : Char) (rest : List Char) :
    lexemes (c :: rest) = (scan c rest).1 ++ lexemes (scan c rest).2 := by
  rw [lexemes]

theorem lexemes_sign {c : Char} (kind : Kind) (h : signKind? c = some kind) (rest : List Char) :
    lexemes (c :: rest) = .plain kind [c] :: lexemes rest := by
  simp [lexemes_cons, scan, h]

/-! ## Words and numbers -/

private theorem takeWhile_append_stop {p : Char → Bool} {cs rest : List Char}
    (hcs : ∀ c ∈ cs, p c = true) (hrest : ∀ c ∈ rest.head?, p c = false) :
    (cs ++ rest).takeWhile p = cs ∧ (cs ++ rest).dropWhile p = rest := by
  rw [List.takeWhile_append_of_pos hcs, List.dropWhile_append_of_pos hcs]
  cases rest with
  | nil => simp
  | cons c rest => simp [hrest c (by simp)]

private theorem isAlpha_head_of_atBreak {rest : List Char} (h : AtBreak rest) :
    ∀ c ∈ rest.head?, c.isAlpha = false := by
  intro c hc
  rcases h c hc with rfl | rfl <;> decide

theorem not_sign {c : Char} (h : c.isAlpha = true ∨ c.isDigit = true) :
    signKind? c = none ∧ c ≠ '\r' := by
  constructor
  · unfold signKind?
    split
    all_goals first | rfl | exact absurd h (by decide)
  · rintro rfl
    exact absurd h (by decide)

theorem scan_of_isAlpha {c : Char} (h : c.isAlpha = true) (rest : List Char) :
    scan c rest = scanWord c rest := by
  obtain ⟨hsign, hcr⟩ := not_sign (.inl h)
  simp [scan, hsign, hcr, h]

/-- A run of digits is one number. -/
theorem lexemes_digits {ds rest : List Char} (hne : ds ≠ []) (hds : ∀ c ∈ ds, c.isDigit = true)
    (hrest : ∀ c ∈ rest.head?, c.isDigit = false) :
    lexemes (ds ++ rest) = .plain .number ds :: lexemes rest := by
  cases ds with
  | nil => exact absurd rfl hne
  | cons d ds =>
    obtain ⟨hd, hds⟩ := List.forall_mem_cons.1 hds
    obtain ⟨hsign, hcr⟩ := not_sign (.inr hd)
    obtain ⟨htake, hdrop⟩ := takeWhile_append_stop hds hrest
    rw [List.cons_append, lexemes_cons]
    simp [scan, hsign, hcr, Text.isAlpha_of_isDigit hd, hd, htake, hdrop]

/-- A run of letters is one word, when its second letter cannot be a sign. -/
theorem lexemes_word {c d : Char} {ds rest : List Char} (hc : c.isAlpha = true)
    (hcode : isDurationCode c = false) (hsign : isAccidentalSign d = false)
    (hds : (d :: ds).all Char.isAlpha = true) (hrest : ∀ e ∈ rest.head?, e.isAlpha = false) :
    lexemes (c :: d :: ds ++ rest) =
      .plain (classifyWord (c :: d :: ds)) (c :: d :: ds) :: lexemes rest := by
  have hall := List.all_eq_true.1 hds
  have hd : d.isAlpha = true := hall d (by simp)
  have hdigit : d.isDigit = false := by
    rw [Bool.eq_false_iff]
    intro h
    rw [Text.isAlpha_of_isDigit h] at hd
    cases hd
  obtain ⟨htake, hdrop⟩ := takeWhile_append_stop hall hrest
  have hscan : scan c (d :: (ds ++ rest)) =
      ([.plain (classifyWord (c :: d :: ds)) (c :: d :: ds)], rest) := by
    rw [scan_of_isAlpha hc]
    rw [List.cons_append] at htake hdrop
    simp [scanWord, hcode, hsign, hdigit, hd, scanLetters, htake, hdrop]
  rw [List.cons_append, List.cons_append, lexemes_cons, hscan]
  rfl

/-! ## Notes and rests -/

private theorem isAlpha_noteLetter (l : NoteLetter) : l.char.isAlpha = true := by
  cases l <;> decide

private theorem isDurationCode_noteLetter (l : NoteLetter) : isDurationCode l.char = false := by
  cases l <;> decide

theorem isAccidentalSign_of_isDigit {c : Char} (h : c.isDigit = true) :
    isAccidentalSign c = false := by
  unfold isAccidentalSign Accidental.ofChar?
  split
  · exact absurd h (by decide)
  · exact absurd h (by decide)
  · rfl

/-- The letter of a note before its octave. -/
theorem lexemes_plainLetter (l : NoteLetter) {d : Char} (hd : d.isDigit = true)
    (rest : List Char) :
    lexemes (l.char :: d :: rest) = .noteLetter l.char :: lexemes (d :: rest) := by
  rw [lexemes_cons, scan_of_isAlpha (isAlpha_noteLetter l)]
  simp [scanWord, isDurationCode_noteLetter, isAccidentalSign_of_isDigit hd, hd]

/-- The letter of a note and its sign before the octave; a flat sign is a letter too. -/
theorem lexemes_alteredLetter (l : NoteLetter) (a : Accidental) {d : Char}
    (hd : d.isDigit = true) (rest : List Char) :
    lexemes (l.char :: a.char :: d :: rest) =
      .noteLetter l.char :: .plain .accidental [a.char] :: lexemes (d :: rest) := by
  have hsign : isAccidentalSign a.char = true := by cases a <;> rfl
  rw [lexemes_cons, scan_of_isAlpha (isAlpha_noteLetter l)]
  simp [scanWord, isDurationCode_noteLetter, hsign, Text.isAlpha_of_isDigit hd]

/-- A duration code, unless it could be a note letter before its octave or its sign. -/
theorem lexemes_duration (d : Duration) {rest : List Char} (h : NoSign rest) :
    lexemes (d.char :: rest) = .plain .duration [d.char] :: lexemes rest := by
  have halpha : d.char.isAlpha = true := by cases d <;> decide
  have hcode : isDurationCode d.char = true := by cases d <;> rfl
  rw [lexemes_cons, scan_of_isAlpha halpha]
  cases rest with
  | nil => simp [scanWord, hcode]
  | cons c rest =>
    obtain ⟨hdigit, hsign⟩ := h c (by simp)
    simp [scanWord, hcode, hdigit, hsign]

/-- The sign of a rest, when it is not the first letter of a word. -/
theorem lexemes_restSign {c : Char}
    (h : c.isAlpha = false ∧ c.isDigit = false ∧ isAccidentalSign c = false) (rest : List Char) :
    lexemes ('r' :: c :: rest) = .plain .rest ['r'] :: lexemes (c :: rest) := by
  obtain ⟨halpha, hdigit, hsign⟩ := h
  have hword : scanWord 'r' (c :: rest) = ([.plain .rest ['r']], c :: rest) := by
    have hletters : scanLetters 'r' (c :: rest) = ([.plain .rest ['r']], c :: rest) := by
      simp only [scanLetters, List.takeWhile_cons, halpha, List.dropWhile_cons]
      rfl
    simp [scanWord, halpha, hdigit, hsign, hletters, isDurationCode, Duration.ofChar?, isNoteLetter,
      NoteLetter.ofChar?]
  rw [lexemes_cons, scan_of_isAlpha (by decide), hword]
  rfl

/-! ## Declarations -/

/-- A word in any case, when its second letter cannot be a sign. -/
theorem lexemes_anyCase {c d : Char} {ds front rest : List Char} (hcode : isDurationCode c = false)
    (hsign : isAccidentalSign d = false) (halpha : (c :: d :: ds).all Char.isAlpha = true)
    (hfront : front.map Char.toLower = c :: d :: ds)
    (hrest : ∀ e ∈ rest.head?, e.isAlpha = false) :
    lexemes (front ++ rest) =
      .plain (if (ClefType.ofName? (String.ofList (c :: d :: ds))).isSome then .clef
        else .identifier) front :: lexemes rest := by
  have hkind : classifyWord front =
      if (ClefType.ofName? (String.ofList (c :: d :: ds))).isSome then .clef else .identifier := by
    rw [← hfront]
    obtain ⟨_, _, rfl, -, hmore⟩ := List.map_eq_cons_iff.1 hfront
    obtain ⟨_, _, rfl, -, -⟩ := List.map_eq_cons_iff.1 hmore
    rfl
  rw [← hkind]
  have hall : front.all Char.isAlpha = true :=
    List.all_eq_true.2 (Text.isAlpha_of_map_toLower hfront halpha)
  obtain ⟨c', more, rfl, rfl, hmore⟩ := List.map_eq_cons_iff.1 hfront
  obtain ⟨d', ds', rfl, rfl, -⟩ := List.map_eq_cons_iff.1 hmore
  simp only [List.all_cons, Bool.and_eq_true] at hall
  -- Codes and signs are their own small letters.
  have hcode' : isDurationCode c' = false := by
    rw [Bool.eq_false_iff] at hcode ⊢
    intro h
    obtain ⟨duration, hd⟩ := Option.isSome_iff_exists.1 h
    rw [Duration.ofChar?_eq_some_iff.1 hd] at hcode
    exact hcode (by cases duration <;> rfl)
  have hsign' : isAccidentalSign d' = false := by
    rw [Bool.eq_false_iff] at hsign ⊢
    intro h
    obtain ⟨accidental, ha⟩ := Option.isSome_iff_exists.1 h
    rw [Accidental.ofChar?_eq_some_iff.1 ha] at hsign
    exact hsign (by cases accidental <;> rfl)
  exact lexemes_word hall.1 hcode' hsign' (by simp [hall.2]) hrest

theorem lexemes_clefKeyword (rest : List Char) :
    lexemes ("clef".toList ++ ':' :: rest) =
      .plain .identifier "clef".toList :: lexemes (':' :: rest) :=
  lexemes_word (by decide) (by decide) (by decide) (by decide) (by simp)

theorem lexemes_timeKeyword (rest : List Char) :
    lexemes ("time".toList ++ ':' :: rest) =
      .plain .identifier "time".toList :: lexemes (':' :: rest) :=
  lexemes_word (by decide) (by decide) (by decide) (by decide) (by simp)

theorem lexemes_clefName (type : ClefType) {rest : List Char} (h : AtBreak rest) :
    lexemes (type.name.toList ++ rest) =
      .plain .clef type.name.toList :: lexemes rest := by
  have hrest := isAlpha_head_of_atBreak h
  cases type with
  | treble => exact lexemes_word (by decide) (by decide) (by decide) (by decide) hrest
  | bass => exact lexemes_word (by decide) (by decide) (by decide) (by decide) hrest
  | alto => exact lexemes_word (by decide) (by decide) (by decide) (by decide) hrest
  | tenor => exact lexemes_word (by decide) (by decide) (by decide) (by decide) hrest

end ScoreText
