import ScoreText.Proofs.Json
import ScoreText.Proofs.Normalization

/-!
Detection misses nothing that a check accepts. A line that passes as a note, a clef declaration or
a time signature stands between blanks in its text (`exists_between_blanks`), so what passed is
found where it stands, whatever else the text holds (`detect_of_checked_line`).
-/

namespace ScoreText

open Text Text.Recognizer

/-! ## Lines between blanks -/

/-- A line ends where a line end stands or the text ends, and starts likewise. -/
private theorem exists_append_of_mem_lines {cs line : List Char} (h : line ∈ lines cs) :
    ∃ before behind, cs = before ++ (line ++ behind) ∧ (∀ c ∈ before.getLast?, c = '\n') ∧
      ∀ c ∈ behind.head?, c = '\n' := by
  have hjoin := unlines_lines cs
  obtain ⟨first, others, hlines⟩ := List.exists_cons_of_ne_nil (List.ne_nil_of_mem h)
  rw [hlines, unlines, Json.intercalate_cons] at hjoin
  have hnext (ls : List (List Char)) : ∀ c ∈ (ls.flatMap ('\n' :: ·)).head?, c = '\n' := by
    cases ls <;> simp
  rw [hlines] at h
  rcases List.mem_cons.1 h with rfl | h
  · exact ⟨[], others.flatMap ('\n' :: ·), by simp [hjoin], by simp, hnext others⟩
  · obtain ⟨ls, ls', rfl⟩ := List.append_of_mem h
    refine ⟨first ++ ls.flatMap ('\n' :: ·) ++ ['\n'], ls'.flatMap ('\n' :: ·), ?_, by simp,
      hnext ls'⟩
    rw [← hjoin]
    simp

/-- What a line is after trimming stands between blanks or at the ends of the text. -/
theorem exists_between_blanks {cs line : List Char} (h : line ∈ lines cs) :
    ∃ front back, cs = front ++ (trim line ++ back) ∧ (∀ c ∈ front.getLast?, isBlank c = true) ∧
      ∀ c ∈ back.head?, isBlank c = true := by
  obtain ⟨before, behind, hcs, hbefore, hbehind⟩ := exists_append_of_mem_lines h
  obtain ⟨lead, trail, hlead, htrail, hline⟩ := blanks_append_trim line
  refine ⟨before ++ lead, trail ++ behind, ?_, fun c hc => ?_, fun c hc => ?_⟩
  · rw [hcs]
    conv => lhs; rw [hline]
    simp only [List.append_assoc]
  · rw [List.getLast?_append, Option.mem_def, Option.or_eq_some_iff] at hc
    rcases hc with hc | ⟨-, hc⟩
    · exact hlead c (List.mem_of_getLast? hc)
    · rw [hbefore c hc]
      decide
  · rw [List.head?_append, Option.mem_def, Option.or_eq_some_iff] at hc
    rcases hc with hc | ⟨-, hc⟩
    · exact htrail c (List.mem_of_head? hc)
    · rw [hbehind c hc]
      decide

/-! ## Declarations -/

/-- A declaration with nothing between its keyword and its colon is matched up to its value. -/
private theorem declaration_append {keyword letters gap value : List Char}
    (hletters : letters.map foldCase = keyword) (hgap : ∀ c ∈ gap, isBlank c = true)
    (hvalue : ∀ c ∈ value.head?, isBlank c = false) (s : Recognizer) :
    ((word foldCase keyword).andThen <| (many isBlank).andThen <| (one (· == ':')).andThen <|
      (many isBlank).andThen s) (letters ++ ':' :: (gap ++ value)) = s value := by
  have hnone : many isBlank (':' :: (gap ++ value)) = some (':' :: (gap ++ value)) := rfl
  rw [andThen, word_append hletters, Option.bind_some, andThen, hnone, Option.bind_some, andThen,
    one_cons (by rfl), Option.bind_some, andThen, many_append hgap hvalue, Option.bind_some]

variable {cs rest : List Char}

/-- A clef declaration is found whatever stands behind it. -/
private theorem isSome_clefSign (h : clefFragment cs = some rest) (back : List Char) :
    (clefSign (cs ++ back)).isSome = true := by
  obtain ⟨r₁, h₁, hr₁⟩ := Option.bind_eq_some_iff.1 h
  obtain ⟨r₂, h₂, h₃⟩ := Option.bind_eq_some_iff.1 hr₁
  obtain ⟨letters, gap, hletters, hgap, rfl⟩ := shape_of_declaration "clef" h₁ h₂
  obtain ⟨r, hr, hname⟩ := List.exists_of_findSome?_eq_some h₃
  obtain ⟨type, -, rfl⟩ := List.mem_map.1 hr
  obtain ⟨name, hfold, rfl⟩ := word_eq_some hname
  have hfirst : ∀ c ∈ (name ++ (rest ++ back)).head?, isBlank c = false := by
    have hsolid := isSolid_clefName type
    rw [← hfold] at hsolid
    obtain ⟨n, name, rfl⟩ := List.exists_cons_of_ne_nil (mt List.map_eq_nil_iff.2 hsolid.1)
    have hn : isBlank (foldCase n) = false := hsolid.not_isBlank (by simp)
    have hn' : isBlank n ≠ true := fun htrue => by simp [isBlank_foldCase htrue] at hn
    simpa using hn'
  have hvalue : (clefName (name ++ (rest ++ back))).isSome = true :=
    List.findSome?_isSome_iff.2 ⟨_, hr, by rw [word_append hfold]; rfl⟩
  simp only [List.append_assoc, List.cons_append]
  rw [clefSign, declaration_append hletters hgap hfirst, hvalue]

/-- So is a time signature, if no digit goes on behind it. -/
private theorem isSome_timeSign (h : timeFragment cs = some []) {back : List Char}
    (hback : ∀ c ∈ back.head?, isBlank c = true) : (timeSign (cs ++ back)).isSome = true := by
  obtain ⟨r₁, h₁, hr₁⟩ := Option.bind_eq_some_iff.1 h
  obtain ⟨r₂, h₂, hr₂⟩ := Option.bind_eq_some_iff.1 hr₁
  obtain ⟨r₃, h₃, hr₃⟩ := Option.bind_eq_some_iff.1 hr₂
  obtain ⟨r₄, h₄, h₅⟩ := Option.bind_eq_some_iff.1 hr₃
  obtain ⟨letters, gap, hletters, hgap, rfl⟩ := shape_of_declaration "time" h₁ h₂
  obtain ⟨above, hne, habove, rfl⟩ := many1_eq_some h₃
  obtain ⟨c, hc, rfl⟩ := one_eq_some h₄
  obtain ⟨below, hne', hbelow, rfl⟩ := many1_eq_some h₅
  have hfirst : ∀ c ∈ (above ++ '/' :: (below ++ back)).head?, isBlank c = false := by
    obtain ⟨d, above, rfl⟩ := List.exists_cons_of_ne_nil hne
    have hd : isBlank d ≠ true := fun hblank => by
      simpa [not_isDecimal_of_isBlank hblank] using habove d (by simp)
    simpa using hd
  have hvalue : ratio (above ++ '/' :: (below ++ back)) = some back := by
    rw [ratio, andThen, many1_append hne habove (by simp; decide), Option.bind_some, andThen,
      one_cons (by rfl), Option.bind_some,
      many1_append hne' hbelow fun c hc => not_isDecimal_of_isBlank (hback c hc)]
  rw [beq_iff_eq.1 hc]
  simp only [List.append_assoc, List.cons_append, List.append_nil]
  rw [timeSign, declaration_append hletters hgap hfirst, hvalue]
  rfl

/-! ## Notes -/

/-- A note is matched in either case, and nothing of what stands behind the blank after it. -/
private theorem startsWithNote_append (h : noteFragment cs = some []) {back : List Char}
    (hback : ∀ c ∈ back.head?, isBlank c = true) : startsWithNote (cs ++ back) = true := by
  obtain ⟨letter, accidental, octave, gap, duration, hne, hoctave, hgapne, hgap, rfl⟩ :=
    shape_of_noteFragment h
  have hletter : isNoteLetterAnyCase letter.char = true := by cases letter <;> decide
  have hsign : ∀ c ∈ accidental.map Accidental.char, isAccidentalSign (foldCase c) = true := by
    rcases accidental with _ | a
    · simp
    · rintro c ⟨⟩
      cases a <;> decide
  have hdigit : ∀ c ∈ octave, isDecimal c = true ∧ isAccidentalSign (foldCase c) = false := by
    intro c hc
    have hfold := isDecimal_foldCase (hoctave c hc)
    exact ⟨hoctave c hc, not_isAccidentalSign_of_isDecimal hfold⟩
  have hduration : isDurationCode (foldCase duration.char) = true := by
    cases duration <;> decide
  have hshape := noteShape_append hletter hsign hne hdigit hgapne hgap
    (not_isBlank_duration duration) hduration back
  have hend : back.head?.any isWordChar = false := by
    cases hhead : back.head? with
    | none => rfl
    | some c => exact not_isWordChar_of_isBlank (hback c hhead)
  simp only [List.append_assoc, List.cons_append, List.nil_append]
  rw [startsWithNote, hshape]
  exact congrArg (!·) hend

/-- A note is found behind a text that does not end in a word; the word that reaches up to an empty
text is the one in front of it. -/
private theorem hasNoteSign_of_startsWithNote {note : List Char} (h : startsWithNote note = true)
    (front : List Char) (inWord : Bool)
    (hfront : (front.getLast?.map isWordChar).getD inWord = false) :
    hasNoteSign inWord (front ++ note) = true := by
  induction front generalizing inWord with
  | nil =>
    cases note with
    | nil => exact absurd h (by decide)
    | cons n note =>
      have hstart : inWord = false := hfront
      rw [List.nil_append, hasNoteSign, h, hstart]
      rfl
  | cons c front ih =>
    rw [List.getLast?_cons] at hfront
    have hrest : hasNoteSign (isWordChar c) (front ++ note) = true := by
      refine ih (isWordChar c) ?_
      cases hlast : front.getLast? <;> simpa [hlast] using hfront
    rw [List.cons_append, hasNoteSign, hrest, Bool.or_true]

/-! ## What a check accepts is detected -/

/-- A line that passes as a note, a clef declaration or a time signature. -/
private theorem hasMusicalPatterns_of_checked_line {line : List Char} (hline : line ∈ lines cs)
    (h : noteFragment (trim line) = some [] ∨ clefFragment (trim line) = some [] ∨
      timeFragment (trim line) = some []) : hasMusicalPatterns cs = true := by
  obtain ⟨front, back, hcs, hfront, hback⟩ := exists_between_blanks hline
  rw [hcs, hasMusicalPatterns]
  rcases h with hnote | hclef | htime
  · have hword : (front.getLast?.map isWordChar).getD false = false := by
      cases hlast : front.getLast? with
      | none => rfl
      | some c => exact not_isWordChar_of_isBlank (hfront c hlast)
    rw [hasNoteSign_of_startsWithNote (startsWithNote_append hnote hback) front false hword]
    simp
  · rw [occursIn_iff.2 ⟨front, _, rfl, isSome_clefSign hclef back⟩]
    rfl
  · rw [occursIn_iff.2 ⟨front, _, rfl, isSome_timeSign htime hback⟩]
    simp

/-- **Detection misses nothing that a check accepts.** A text of ASCII characters is detected if one
of its lines passes as a note, a clef declaration or a time signature, whatever its other lines
are. -/
theorem detect_of_checked_line (text : String) (hascii : ∀ c ∈ text.toList, c.toNat < 128)
    (line : List Char) (hline : line ∈ lines text.toList)
    (h : isNoteText (String.ofList line) = true ∨ isClefText (String.ofList line) = true ∨
      isTimeText (String.ofList line) = true) : detect (.text text) = true := by
  refine (looksLikeMusic_iff hascii).2 (.inr (hasMusicalPatterns_of_checked_line hline ?_))
  simpa only [isNoteText, isClefText, isTimeText, matchesAll, String.toList_ofList,
    beq_iff_eq] using h

/-- A note with a long octave among separators, between lines that mean nothing. -/
theorem detect_of_checked_line_of_note :
    let text := "x9x\n\x1c G#0071\x1d\x1eq\t\n!?"
    let line := "\x1c G#0071\x1d\x1eq\t".toList
    (∀ c ∈ text.toList, c.toNat < 128) ∧ line ∈ lines text.toList ∧
      isNoteText (String.ofList line) = true ∧ detect (.text text) = true := by
  intro text line
  have hall : text.toList.all (·.toNat < 128) = true := by decide
  have hascii : ∀ c ∈ text.toList, c.toNat < 128 := by
    simpa only [List.all_eq_true, decide_eq_true_eq] using hall
  have hline : line ∈ lines text.toList := by decide +kernel
  have hnote : isNoteText (String.ofList line) = true := by decide +kernel
  exact ⟨hascii, hline, hnote, detect_of_checked_line text hascii line hline (.inl hnote)⟩

end ScoreText
