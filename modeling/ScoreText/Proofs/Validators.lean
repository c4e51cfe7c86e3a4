import ScoreText.Proofs.Rows

/-!
The checks of fragments and the parser agree (`checksAgree`). A text that passes as a note, a rest
or a measure is a row of fragments. A text that passes as a declaration is the keyword, a colon and
the value, and is cut into just these tokens (`tokensFrom_declares`).
-/

namespace ScoreText

open Text

/-! ## Declarations -/

private theorem isAlpha_keyword {keyword : String} (hkeyword : keyword = "clef" ∨ keyword = "time")
    {front : List Char} (h : front.map Char.toLower = keyword.toList) :
    ∀ c ∈ front, c.isAlpha = true :=
  isAlpha_of_map_toLower h (by rcases hkeyword with rfl | rfl <;> decide)

private theorem isAlpha_clefName {type : ClefType} {name : List Char}
    (h : name.map Char.toLower = type.name.toList) : ∀ c ∈ name, c.isAlpha = true :=
  isAlpha_of_map_toLower h (by cases type <;> decide)

/-- The keyword and the colon of a declaration are tokens of their own. -/
theorem tokensFrom_declares {keyword : String} (hkeyword : keyword = "clef" ∨ keyword = "time")
    {cs value : List Char} (h : Declares keyword cs value) (rest : List Char) (p : Position) :
    ∃ word colon q, word.isKeyword keyword = true ∧ colon.kind = .colon ∧
      tokensFrom p (cs ++ rest) = word :: colon :: tokensFrom q (value ++ rest) := by
  obtain ⟨front, gap, hfront, hgap, rfl⟩ := h
  have hcolon : lexemes (':' :: (gap ++ (value ++ rest))) =
      .plain .colon [':'] :: lexemes (gap ++ (value ++ rest)) := lexemes_sign .colon rfl _
  have hword : lexemes (front ++ ':' :: (gap ++ (value ++ rest))) =
      [.plain .identifier front, .plain .colon [':']] ++ lexemes (gap ++ (value ++ rest)) := by
    refine Eq.trans ?_ (congrArg (_ :: ·) hcolon)
    rcases hkeyword with rfl | rfl
    · exact lexemes_anyCase (by decide) (by decide) (by decide) hfront (by simp)
    · exact lexemes_anyCase (by decide) (by decide) (by decide) hfront (by simp)
  have hlower : String.ofList (lower (String.ofList front).toList) = keyword := by
    rw [String.toList_ofList, lower_of_isAlpha (isAlpha_keyword hkeyword hfront), hfront,
      String.ofList_toList]
  rw [List.append_assoc, List.cons_append, List.append_assoc, tokensFrom_pieces hword,
    tokensFrom_gap hgap]
  exact ⟨⟨.identifier, String.ofList front, p⟩, ⟨.colon, String.ofList [':'], p.after front⟩, _,
    Token.isKeyword_iff.2 ⟨rfl, hlower⟩, rfl, rfl⟩

/-- A clef name in any case, with nothing but white space behind it. -/
private theorem tokensFrom_clefName {name : List Char} {type : ClefType}
    (h : name.map Char.toLower = type.name.toList) {trail : List Char} (htrail : IsGap trail)
    (p : Position) :
    ∃ token, token.clefType? = some type ∧ tokensFrom p (name ++ trail) = [token] := by
  have hstop : ∀ c ∈ trail.head?, c.isAlpha = false :=
    fun c hc => (class_of_isSeparator (htrail c (List.mem_of_mem_head? hc))).1
  have hname : lexemes (name ++ trail) = [.plain .clef name] ++ lexemes trail := by
    cases type with
    | treble => exact lexemes_anyCase (by decide) (by decide) (by decide) h hstop
    | bass => exact lexemes_anyCase (by decide) (by decide) (by decide) h hstop
    | alto => exact lexemes_anyCase (by decide) (by decide) (by decide) h hstop
    | tenor => exact lexemes_anyCase (by decide) (by decide) (by decide) h hstop
  have hlower : String.ofList (lower (String.ofList name).toList) = type.name := by
    rw [String.toList_ofList, lower_of_isAlpha (isAlpha_clefName h), h, String.ofList_toList]
  rw [tokensFrom_pieces hname, tokensFrom_isGap htrail]
  exact ⟨⟨.clef, String.ofList name, p⟩, Token.clefType?_eq_some_iff.2 ⟨rfl, hlower⟩, rfl⟩

/-- Two numbers with a slash between them, with nothing but white space behind them. -/
private theorem tokensFrom_ratio (above below : DigitRun) {trail : List Char}
    (htrail : IsGap trail) (p : Position) :
    ∃ n slash d, n.kind = .number ∧ n.text = String.ofList above.chars ∧ slash.kind = .slash ∧
      d.kind = .number ∧ d.text = String.ofList below.chars ∧
      tokensFrom p (above.chars ++ '/' :: (below.chars ++ trail)) = [n, slash, d] := by
  have hstop : ∀ c ∈ trail.head?, c.isDigit = false :=
    fun c hc => (class_of_isSeparator (htrail c (List.mem_of_mem_head? hc))).2.1
  have hsign : lexemes ('/' :: (below.chars ++ trail)) =
      [.plain .slash ['/']] ++ lexemes (below.chars ++ trail) := lexemes_sign .slash rfl _
  have hslash : ∀ c ∈ ('/' :: (below.chars ++ trail)).head?, c.isDigit = false := by simp
  obtain ⟨n, q, hnk, hnt, habove⟩ := tokensFrom_number above hslash p
  obtain ⟨d, q', hdk, hdt, hbelow⟩ := tokensFrom_number below hstop (q.after ['/'])
  refine ⟨n, ⟨.slash, String.ofList ['/'], q⟩, d, hnk, hnt, rfl, hdk, hdt, ?_⟩
  rw [tokensFrom_isGap htrail] at hbelow
  rw [habove, tokensFrom_pieces hsign]
  exact congrArg (_ :: _ :: ·) hbelow

/-- Whether a run of digits is a positive number with few enough digits. -/
def DigitRun.IsCount (r : DigitRun) : Prop := r.chars.length ≤ maxDigits ∧ 0 < decimal r.chars

instance (r : DigitRun) : Decidable r.IsCount :=
  inferInstanceAs (Decidable (r.chars.length ≤ maxDigits ∧ 0 < decimal r.chars))

private theorem count?_of_isCount {number : Token} {r : DigitRun} (hk : number.kind = .number)
    (ht : number.text = String.ofList r.chars) (hr : r.IsCount) :
    number.count? = some (decimal r.chars) := by
  rw [Token.count?_eq_some_iff, ht, String.toList_ofList]
  exact ⟨⟨hk, r.isDigit, hr⟩, rfl⟩

private theorem timeSignature?_eq_none {above below : DigitRun}
    (h : ¬ (above.IsCount ∧ below.IsCount)) (p : Position) :
    Cursor.timeSignature? (String.ofList above.chars) (String.ofList below.chars) p = none := by
  unfold Cursor.timeSignature?
  rw [integer?_of_digits above.nonempty above.isDigit,
    integer?_of_digits below.nonempty below.isDigit]
  by_cases ha : above.chars.length ≤ maxDigits
  · by_cases hb : below.chars.length ≤ maxDigits
    · have hzero : ¬ (0 < (decimal above.chars : Int) ∧ 0 < (decimal below.chars : Int)) := by
        rintro ⟨hn, hd⟩
        exact h ⟨⟨ha, by omega⟩, hb, by omega⟩
      rw [if_pos ha, if_pos hb]
      exact if_neg hzero
    · rw [if_pos ha, if_neg hb]
      rfl
  · rw [if_neg ha]
    rfl

/-- A malformed item just before the end is all that is read. -/
theorem Cursor.events_of_failed_last {c next : Cursor} {d : Diagnostic} (limit : Nat) (h : c.HasEnd)
    (hk : c.current.kind ≠ .eof) (hstep : c.step = .failed d next)
    (hend : next.current.kind = .eof) :
    c.events (limit + 1) = [.failed d next.current.position] := by
  rw [events_succ limit h hk, hstep]
  dsimp only
  rw [recover_of_stop (.inl hend), events_of_eof limit hend]

section Texts

variable {text : String} (options : ParserOptions)

/-- The text of a declaration has no foreign characters if its value has none, and its tokens are
the keyword, the colon and those of the value. -/
private theorem tokens_of_declares {keyword : String}
    (hkeyword : keyword = "clef" ∨ keyword = "time") (hplain : IsPlain text.toList)
    {value : List Char} (h : Declares keyword (trim text.toList) value)
    (hvalue : ∀ c ∈ value, isNotationChar c = true) :
    (∀ c ∈ text.toList, isNotationChar c = true) ∧
      ∃ word colon q trail, word.isKeyword keyword = true ∧ colon.kind = .colon ∧ IsGap trail ∧
        bodyTokens text = word :: colon :: tokensFrom q (value ++ trail) := by
  obtain ⟨-, lead, trail, hlead, htrail, htext⟩ := hplain.trim
  constructor
  · obtain ⟨front, gap, hfront, hgap, hcs⟩ := h
    have hword : ∀ c ∈ front, isNotationChar c = true :=
      fun c hc => isNotationChar_of_isAlpha (isAlpha_keyword hkeyword hfront c hc)
    rw [htext, hcs]
    simp only [List.forall_mem_append, List.forall_mem_cons]
    exact ⟨isNotationChar_of_isGap hlead, ⟨hword, rfl, isNotationChar_of_isGap hgap, hvalue⟩,
      isNotationChar_of_isGap htrail⟩
  · obtain ⟨word, colon, q, hword, hcolon, htokens⟩ :=
      tokensFrom_declares hkeyword h trail (Position.start.after lead)
    refine ⟨word, colon, q, trail, hword, hcolon, htrail, ?_⟩
    rw [bodyTokens_eq_tokensFrom, htext, tokensFrom_gap hlead, htokens]

/-- The text of a clef declaration is parsed to that clef. -/
theorem parseText_of_clef (hplain : IsPlain text.toList) {name : List Char} {type : ClefType}
    (hname : name.map Char.toLower = type.name.toList)
    (h : Declares "clef" (trim text.toList) name) :
    ∃ p, parseText options text = .ok ⟨true, [], some { clef := some ⟨type, p⟩ }⟩ := by
  have hvalue : ∀ c ∈ name, isNotationChar c = true :=
    fun c hc => isNotationChar_of_isAlpha (isAlpha_clefName hname c hc)
  obtain ⟨hchars, word, colon, q, trail, hword, hcolon, htrail, htokens⟩ :=
    tokens_of_declares (.inl rfl) hplain h hvalue
  obtain ⟨token, htoken, hlast⟩ := tokensFrom_clefName hname htrail q
  rw [hlast] at htokens
  have hsentence : Sentence (bodyTokens text) [.clef ⟨type, word.position⟩] := by
    rw [htokens]
    exact .single (.clef hword hcolon htoken)
  exact ⟨word.position, parseText_of_sentence hchars hsentence options⟩

/-- The text of a time signature is parsed to that, or it is the only problem. -/
theorem parseText_of_time (hplain : IsPlain text.toList) {above below : DigitRun}
    (h : Declares "time" (trim text.toList) (above.chars ++ '/' :: below.chars)) :
    if above.IsCount ∧ below.IsCount then
      ∃ p, parseText options text = .ok ⟨true, [],
        some { time := some ⟨decimal above.chars, decimal below.chars, p⟩ }⟩
    else
      ∃ r, parseText options text = .ok r ∧ r.success = false ∧
        r.messages = ["Invalid time signature: " ++ String.ofList above.chars ++ "/" ++
          String.ofList below.chars] := by
  have hvalue : ∀ c ∈ above.chars ++ '/' :: below.chars, isNotationChar c = true := by
    simp only [List.forall_mem_append, List.forall_mem_cons]
    exact ⟨fun c hc => isNotationChar_of_isDigit (above.isDigit c hc), rfl,
      fun c hc => isNotationChar_of_isDigit (below.isDigit c hc)⟩
  obtain ⟨hchars, word, colon, q, trail, hword, hcolon, htrail, htokens⟩ :=
    tokens_of_declares (.inr rfl) hplain h hvalue
  obtain ⟨n, slash, d, hnk, hnt, hslash, hdk, hdt, hratio⟩ := tokensFrom_ratio above below htrail q
  rw [List.append_assoc, List.cons_append, hratio] at htokens
  split
  · next hcount =>
    have hsentence : Sentence (bodyTokens text)
        [.time ⟨decimal above.chars, decimal below.chars, word.position⟩] := by
      rw [htokens]
      exact .single (.time hword hcolon (count?_of_isCount hnk hnt hcount.1) hslash
        (count?_of_isCount hdk hdt hcount.2))
    exact ⟨word.position, parseText_of_sentence hchars hsentence options⟩
  · next hcount =>
    have hahead : (textCursor text).ahead =
        word :: colon :: n :: slash :: d :: [.endAt (Position.start.after text.toList)] := by
      rw [ahead_textCursor, significantTokens_eq, htokens]
      rfl
    have hnone : Cursor.timeSignature? n.text d.text word.position = none := by
      rw [hnt, hdt]
      exact timeSignature?_eq_none hcount _
    obtain ⟨next, hstep, hnext⟩ :=
      Cursor.step_of_invalidTime hahead hword hcolon hnk hslash hdk hnone
    have hend : next.current.kind = .eof := by
      rw [Cursor.current_of_ahead (hnext (by simp))]
      rfl
    have hcurrent : (textCursor text).current.kind ≠ .eof := by
      rw [Cursor.current_of_ahead hahead, (Token.isKeyword_iff.1 hword).1]
      simp
    obtain ⟨k, hk⟩ := limit_pos options
    have hevents := Cursor.events_of_failed_last k (hasEnd_textCursor text) hcurrent hstep hend
    rw [← hk] at hevents
    refine ⟨_, parseText_of_events hchars (by rw [hevents, hk]; exact Nat.le_add_left 1 k), ?_, ?_⟩
    · rw [hevents]
      rfl
    · rw [hevents, ← hnt, ← hdt]
      rfl

end Texts

/-! ## The checks and the parser -/

/-- What a text that passes a check of fragments is parsed to. -/
structure ChecksAgree (options : ParserOptions) (text : String) : Prop where
  rest : isRestText text = true →
    ∃ gap duration, trim text.toList = (Fragment.rest gap duration).source ∧
      ∃ p, parseText options text =
        .ok ⟨true, [], some { measures := [⟨1, [.rest duration p]⟩] }⟩
  clef : isClefText text = true →
    ∃ name, ∃ type : ClefType, name.map Char.toLower = type.name.toList ∧
      Declares "clef" (trim text.toList) name ∧
      ∃ p, parseText options text = .ok ⟨true, [], some { clef := some ⟨type, p⟩ }⟩
  time : isTimeText text = true →
    ∃ above below : DigitRun,
      Declares "time" (trim text.toList) (above.chars ++ '/' :: below.chars) ∧
      if above.IsCount ∧ below.IsCount then
        ∃ p, parseText options text = .ok ⟨true, [],
          some { time := some ⟨decimal above.chars, decimal below.chars, p⟩ }⟩
      else
        ∃ r, parseText options text = .ok r ∧ r.success = false ∧
          r.messages = ["Invalid time signature: " ++ String.ofList above.chars ++ "/" ++
            String.ofList below.chars]
  note : isNoteText text = true →
    ∃ letter accidental octave gap duration,
      trim text.toList = (Fragment.note letter accidental octave gap duration).source ∧
      if octave.chars.length = 1 then
        ∃ p, parseText options text = .ok ⟨true, [], some { measures :=
          [⟨1, [.note ⟨letter, decimal octave.chars, accidental⟩ duration p]⟩] }⟩
      else
        ∃ r, parseText options text = .ok r ∧ r.success = false ∧
          r.messages = ["Invalid octave: " ++ String.ofList octave.chars]
  measure : isMeasureText text = true →
    (lex text).diagnostics = [] ∧
    ∃ fs : List Fragment, measurePieces (trim text.toList) = some (fs.map Fragment.source) ∧
      ∃ r score, parseText options text = .ok r ∧ r.score = some score ∧
        r.messages = (fs.filterMap Fragment.overlong?).map ("Invalid octave: " ++ ·) ∧
        score.elements.map Element.unplaced = fs.filterMap (Fragment.element? .nowhere)

/-- **The checks and the parser agree.** In a text of ASCII characters whose white space is made of
separators, parsed with a limit above its length: what passes as a rest or a clef is parsed to just
that. So is what passes as a time signature with positive numbers of few enough digits and as a note
with an octave of one digit; else that is the only problem. In what passes as a measure, the octaves
with several digits are the problems, and the other notes and rests are the elements, in order. -/
theorem checksAgree {text : String} (hplain : IsPlain text.toList) {options : ParserOptions}
    (hmax : (text.length : Int) < options.maxErrors) : ChecksAgree options text where
  rest h := by
    have hmatch : restFragment (trim text.toList) = some [] := beq_iff_eq.1 h
    obtain ⟨gap, duration, hsource⟩ := fragment_of_restFragment hplain.trim.1 hmatch
    rw [List.append_nil] at hsource
    obtain ⟨e, p, he, hparse⟩ :=
      parseText_of_fragment options (row_of_source hplain hsource) (by simp [Fragment.element?])
    cases he
    exact ⟨gap, duration, hsource, p, hparse⟩
  clef h := by
    have hmatch : clefFragment (trim text.toList) = some [] := beq_iff_eq.1 h
    obtain ⟨name, type, hname, hdeclares⟩ := shape_of_clefFragment hplain.trim.1 hmatch
    rw [List.append_nil] at hdeclares
    exact ⟨name, type, hname, hdeclares, parseText_of_clef options hplain hname hdeclares⟩
  time h := by
    have hmatch : timeFragment (trim text.toList) = some [] := beq_iff_eq.1 h
    obtain ⟨above, below, hdeclares⟩ := shape_of_timeFragment hplain.trim.1 hmatch
    rw [List.append_nil] at hdeclares
    exact ⟨above, below, hdeclares, parseText_of_time options hplain hdeclares⟩
  note h := by
    have hmatch : noteFragment (trim text.toList) = some [] := beq_iff_eq.1 h
    obtain ⟨letter, accidental, octave, gap, duration, hsource⟩ :=
      fragment_of_noteFragment hplain.trim.1 hmatch
    rw [List.append_nil] at hsource
    exact ⟨letter, accidental, octave, gap, duration, hsource,
      parseText_of_note (row_of_source hplain hsource) hmax⟩
  measure h := by
    obtain ⟨pieces, hpieces⟩ := Option.isSome_iff_exists.1 ((isMeasureRun_eq _).symm.trans h)
    obtain ⟨fs, rfl, hrow⟩ := row_of_measurePieces hplain.trim.1 hpieces
    have hwhole := row_of_trim hplain hrow
    obtain ⟨r, score, hr, hscore, -, hmessages, helements⟩ := parseText_of_row hwhole hmax
    exact ⟨(lex_diagnostics_eq_nil_iff text).2 hwhole.isNotationChar, fs, hpieces, r, score, hr,
      hscore, hmessages, helements⟩

/-- The fragments touch, and a bar line follows a note whose octave has two digits. -/
theorem checksAgree_at_touching_fragments :
    let text := "C4 qDb12 e|r hE7 w\r\n"
    let options : ParserOptions := { maxErrors := 30 }
    IsPlain text.toList ∧ (text.length : Int) < options.maxErrors ∧ isMeasureText text = true ∧
      measurePieces (trim text.toList) =
        some (["C4 q", "Db12 e", "|", "r h", "E7 w"].map String.toList) ∧
      ChecksAgree options text := by
  intro text options
  have hplain : IsPlain text.toList := by decide +kernel
  have hmax : (text.length : Int) < options.maxErrors := by decide +kernel
  exact ⟨hplain, hmax, by decide +kernel, by decide +kernel, checksAgree hplain hmax⟩

end ScoreText
