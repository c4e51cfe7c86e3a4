import ScoreText.Proofs.Fragments

/-!
The language of measures. The check of a measure matches from the left and takes as much as it can,
and yet it accepts every text that can be cut into white space and items in some way
(`isMeasureText_iff`): a match takes just the item it starts with, whatever stands behind it
(`MeasureItem.measureFragment_append`).
-/

namespace ScoreText

open Text Text.Recognizer

/-- A note, a rest or a bar line; digits and white space may be of any script. -/
inductive MeasureItem : List Char → Prop
  | note (letter : NoteLetter) (accidental : Option Accidental) {octave gap : List Char}
      (duration : Duration) : octave ≠ [] → (∀ c ∈ octave, isDecimal c = true) → gap ≠ [] →
      (∀ c ∈ gap, isBlank c = true) →
      MeasureItem (letter.char :: ((accidental.map Accidental.char).toList ++
        (octave ++ (gap ++ [duration.char]))))
  | rest {gap : List Char} (duration : Duration) : gap ≠ [] → (∀ c ∈ gap, isBlank c = true) →
      MeasureItem ('r' :: (gap ++ [duration.char]))
  | bar : MeasureItem ['|']

/-- What a measure is made of: an item, or any amount of white space. -/
def IsMeasurePiece (piece : List Char) : Prop :=
  (∀ c ∈ piece, isBlank c = true) ∨ MeasureItem piece

def IsMeasure (cs : List Char) : Prop :=
  ∃ pieces : List (List Char), cs = pieces.flatten ∧ ∀ piece ∈ pieces, IsMeasurePiece piece

namespace IsMeasure

theorem nil : IsMeasure [] := ⟨[], rfl, by simp⟩

theorem append {cs ds : List Char} (hcs : IsMeasure cs) (hds : IsMeasure ds) :
    IsMeasure (cs ++ ds) := by
  obtain ⟨pieces, rfl, hpieces⟩ := hcs
  obtain ⟨pieces', rfl, hpieces'⟩ := hds
  exact ⟨pieces ++ pieces', by simp, List.forall_mem_append.2 ⟨hpieces, hpieces'⟩⟩

theorem piece {cs : List Char} (h : IsMeasurePiece cs) : IsMeasure cs :=
  ⟨[cs], by simp, by simpa using h⟩

theorem blanks {cs : List Char} (h : ∀ c ∈ cs, isBlank c = true) : IsMeasure cs :=
  piece (.inl h)

end IsMeasure

/-! ## Classes that do not meet -/

theorem not_isDecimal_of_isBlank {c : Char} (h : isBlank c = true) :
    isDecimal c = false := by
  rw [Bool.eq_false_iff]
  intro hdecimal
  rw [isDecimal, digit?, Option.isSome_map, List.find?_isSome] at hdecimal
  obtain ⟨z, hz, hdigit⟩ := hdecimal
  obtain ⟨span, hspan, hin⟩ := exists_span_of_isBlank h
  simp only [Bool.and_eq_true, decide_eq_true_eq] at hdigit
  have hapart : ∀ z ∈ zeros, ∀ s ∈ blankSpans, z + 9 < s.1 ∨ s.2 < z := by decide
  have := hapart z hz span hspan
  omega

theorem not_isAccidentalSign_of_isDecimal {c : Char} (h : isDecimal c = true) :
    isAccidentalSign c = false := by
  rw [Bool.eq_false_iff]
  intro hsign
  obtain ⟨accidental, ha⟩ := Option.isSome_iff_exists.1 hsign
  rw [Accidental.ofChar?_eq_some_iff.1 ha] at h
  cases accidental <;> revert h <;> decide

theorem not_isBlank_noteLetter (letter : NoteLetter) : isBlank letter.char = false := by
  cases letter <;> decide

theorem not_isBlank_duration (duration : Duration) : isBlank duration.char = false := by
  cases duration <;> decide

/-! ## Items are matched whole -/

private theorem isBlank_head_append {gap rest : List Char} (hne : gap ≠ [])
    (hgap : ∀ c ∈ gap, isBlank c = true) : ∀ c ∈ (gap ++ rest).head?, isBlank c = true := by
  obtain ⟨g, gap, rfl⟩ := List.exists_cons_of_ne_nil hne
  simpa using hgap g (by simp)

private theorem many1_isBlank_code {gap : List Char} (hne : gap ≠ [])
    (hgap : ∀ c ∈ gap, isBlank c = true) {code : Char} (hcode : isBlank code = false)
    (rest : List Char) : many1 isBlank (gap ++ code :: rest) = some (code :: rest) :=
  many1_append hne hgap (by simp [hcode])

private theorem one_duration (duration : Duration) (rest : List Char) :
    one isDurationCode (duration.char :: rest) = some rest :=
  one_cons (by cases duration <;> rfl) rest

/-- A note is matched whole, whatever stands behind it, if its parts are told from each other. -/
theorem noteShape_append {isLetter : Char → Bool} {fold : Char → Char} {letter code : Char}
    {sign : Option Char} {octave gap : List Char} (hletter : isLetter letter = true)
    (hsign : ∀ c ∈ sign, isAccidentalSign (fold c) = true) (hne : octave ≠ [])
    (hoctave : ∀ c ∈ octave, isDecimal c = true ∧ isAccidentalSign (fold c) = false)
    (hgapne : gap ≠ []) (hgap : ∀ c ∈ gap, isBlank c = true) (hcode : isBlank code = false)
    (hduration : isDurationCode (fold code) = true) (rest : List Char) :
    noteShape isLetter fold (letter :: (sign.toList ++ (octave ++ (gap ++ code :: rest)))) =
      some rest := by
  have hfirst : ∀ c ∈ (octave ++ (gap ++ code :: rest)).head?,
      isAccidentalSign (fold c) = false := by
    obtain ⟨o, octave, rfl⟩ := List.exists_cons_of_ne_nil hne
    simpa using (hoctave o (by simp)).2
  have hafter : ∀ c ∈ (gap ++ code :: rest).head?, isDecimal c = false :=
    fun c hc => not_isDecimal_of_isBlank (isBlank_head_append hgapne hgap c hc)
  refine Option.bind_eq_some_iff.2 ⟨_, one_cons hletter _, ?_⟩
  refine Option.bind_eq_some_iff.2 ⟨_, optional_toList _ hsign fun _ => hfirst, ?_⟩
  refine Option.bind_eq_some_iff.2 ⟨_, many1_append hne (fun c hc => (hoctave c hc).1) hafter, ?_⟩
  refine Option.bind_eq_some_iff.2 ⟨_, many1_isBlank_code hgapne hgap hcode rest, ?_⟩
  exact one_cons hduration rest

private theorem noteFragment_append (letter : NoteLetter) (accidental : Option Accidental)
    {octave gap : List Char} (duration : Duration) (hne : octave ≠ [])
    (hoctave : ∀ c ∈ octave, isDecimal c = true) (hgapne : gap ≠ [])
    (hgap : ∀ c ∈ gap, isBlank c = true) (rest : List Char) :
    noteFragment (letter.char :: ((accidental.map Accidental.char).toList ++
      (octave ++ (gap ++ duration.char :: rest)))) = some rest := by
  have hletter : isNoteLetter letter.char = true := by cases letter <;> rfl
  have hsign : ∀ c ∈ accidental.map Accidental.char, isAccidentalSign c = true := by
    rcases accidental with _ | a
    · simp
    · cases a <;> simp [isAccidentalSign] <;> rfl
  have hduration : isDurationCode duration.char = true := by cases duration <;> rfl
  exact noteShape_append hletter hsign hne
    (fun c hc => ⟨hoctave c hc, not_isAccidentalSign_of_isDecimal (hoctave c hc)⟩) hgapne hgap
    (not_isBlank_duration duration) hduration rest

private theorem restFragment_append {gap : List Char} (hne : gap ≠ [])
    (hgap : ∀ c ∈ gap, isBlank c = true) (duration : Duration) (rest : List Char) :
    restFragment ('r' :: (gap ++ duration.char :: rest)) = some rest := by
  rw [restFragment, andThen, one_cons (by rfl), Option.bind_some]
  have hcode := many1_isBlank_code hne hgap (not_isBlank_duration duration) rest
  exact Option.bind_eq_some_iff.2 ⟨_, hcode, one_duration duration rest⟩

/-- A match takes the item a text starts with and nothing of what follows it. -/
theorem MeasureItem.measureFragment_append {item : List Char} (h : MeasureItem item)
    (rest : List Char) : measureFragment (item ++ rest) = some rest := by
  cases h with
  | note letter accidental duration hne hoctave hgapne hgap =>
    have hnote := noteFragment_append letter accidental duration hne hoctave hgapne hgap rest
    simp only [measureFragment, firstOf, List.cons_append, List.append_assoc, List.nil_append,
      List.findSome?_cons, hnote]
  | @rest gap duration hne hgap =>
    have hnote : noteFragment ('r' :: (gap ++ duration.char :: rest)) = none := rfl
    have hrest := restFragment_append hne hgap duration rest
    simp only [measureFragment, firstOf, List.cons_append, List.append_assoc, List.nil_append,
      List.findSome?_cons, hnote, hrest]
  | bar => rfl

theorem item_of_measureFragment {cs rest : List Char} (h : measureFragment cs = some rest) :
    ∃ item, MeasureItem item ∧ cs = item ++ rest := by
  obtain ⟨r, hr, h⟩ := List.exists_of_findSome?_eq_some h
  simp only [List.mem_cons, List.not_mem_nil, or_false] at hr
  rcases hr with rfl | rfl | rfl
  · obtain ⟨letter, accidental, octave, gap, duration, hne, hoctave, hgap, hblank, rfl⟩ :=
      shape_of_noteFragment h
    exact ⟨_, .note letter accidental duration hne hoctave hgap hblank, by simp⟩
  · obtain ⟨gap, duration, hgap, hblank, rfl⟩ := shape_of_restFragment h
    exact ⟨_, .rest duration hgap hblank, by simp⟩
  · obtain ⟨c, hc, rfl⟩ := one_eq_some h
    exact ⟨_, .bar, by rw [beq_iff_eq.1 hc]; rfl⟩

/-! ## Trimming between items -/

private theorem trimStart_cons {c : Char} (cs : List Char) :
    trimStart (c :: cs) = if isBlank c then trimStart cs else c :: cs := List.dropWhile_cons

private theorem trimEnd_append (cs ds : List Char) :
    trimEnd (cs ++ ds) = if (trimEnd ds).isEmpty then trimEnd cs else cs ++ trimEnd ds := by
  unfold trimEnd
  rw [List.reverse_append, List.dropWhile_append, List.isEmpty_reverse]
  split
  · rfl
  · rw [List.reverse_append, List.reverse_reverse]

/-- It does not matter which end is trimmed first. -/
private theorem trimStart_trimEnd (cs : List Char) : trimStart (trimEnd cs) = trim cs := by
  induction cs with
  | nil => rfl
  | cons c cs ih =>
    have hone : trimEnd [c] = if isBlank c then [] else [c] := by
      simp only [trimEnd, List.reverse_singleton, List.dropWhile_cons, List.dropWhile_nil]
      split <;> rfl
    rw [trim, trimStart_cons, ← List.singleton_append, trimEnd_append, hone]
    by_cases hc : isBlank c = true
    · rw [if_pos hc, if_pos hc, ← trim, ← ih]
      split
      · next hnil => rw [List.isEmpty_iff.1 hnil]
      · rw [List.singleton_append, trimStart_cons, if_pos hc]
    · rw [if_neg hc, if_neg hc, trimEnd_append, hone, if_neg hc]
      split <;> exact (trimStart_cons _).trans (if_neg hc)

private theorem trim_blanks_append {blanks : List Char} (h : ∀ c ∈ blanks, isBlank c = true)
    (cs : List Char) : trim (blanks ++ cs) = trim cs :=
  congrArg trimEnd (List.dropWhile_append_of_pos h)

/-- An item starts and ends with a character that is not blank. -/
private theorem MeasureItem.exists_ends {item : List Char} (h : MeasureItem item) :
    (∃ first more, item = first :: more ∧ isBlank first = false) ∧
      ∃ front last, item = front ++ [last] ∧ isBlank last = false := by
  cases h with
  | @note letter accidental octave gap duration =>
    refine ⟨⟨_, _, rfl, not_isBlank_noteLetter letter⟩, ?_⟩
    refine ⟨letter.char :: ((accidental.map Accidental.char).toList ++ (octave ++ gap)), _, ?_,
      not_isBlank_duration duration⟩
    simp only [List.cons_append, List.append_assoc]
  | rest duration => exact ⟨⟨_, _, rfl, by decide⟩, 'r' :: _, _, rfl, not_isBlank_duration duration⟩
  | bar => exact ⟨⟨_, _, rfl, by decide⟩, [], _, rfl, by decide⟩

private theorem MeasureItem.trim_append {item : List Char} (h : MeasureItem item)
    (cs : List Char) : trim (item ++ cs) = item ++ trimEnd cs := by
  obtain ⟨⟨first, more, hfirst, hstart⟩, front, last, hlast, hend⟩ := h.exists_ends
  have hleft : trimStart (item ++ cs) = item ++ cs := by
    rw [hfirst, List.cons_append, trimStart_cons, if_neg (by simp [hstart])]
  have hright : trimEnd item = item := by
    have hone : trimEnd [last] = [last] := by simp [trimEnd, hend]
    rw [hlast, trimEnd_append, hone]
    rfl
  rw [trim, hleft, trimEnd_append, hright]
  split
  · next hnil => rw [List.isEmpty_iff.1 hnil, List.append_nil]
  · rfl

/-! ## The language -/

private theorem isMeasureRun_append {item : List Char} (h : MeasureItem item) (rest : List Char) :
    isMeasureRun (item ++ rest) = isMeasureRun (trimStart rest) := by
  obtain ⟨⟨first, more, hitem, -⟩, -⟩ := h.exists_ends
  have hmatch := h.measureFragment_append rest
  rw [isMeasureRun, if_neg (by simp [hitem])]
  split
  · next hnone => simp [hmatch] at hnone
  · next rest' hsome =>
    rw [hmatch] at hsome
    cases hsome
    rfl

/-- What the check matches is a way to cut the text. -/
private theorem isMeasure_of_isMeasureRun {cs : List Char} (h : isMeasureRun cs = true) :
    IsMeasure cs := by
  fun_induction isMeasureRun cs with
  | case1 cs hnil => exact List.isEmpty_iff.1 hnil ▸ .nil
  | case2 cs hne hnone => cases h
  | case3 cs hne rest hrest _ ih =>
    obtain ⟨item, hitem, rfl⟩ := item_of_measureFragment hrest
    obtain ⟨gap, hgap, hsplit⟩ := takeBlanks_append_trimStart rest
    have htail : IsMeasure rest := by
      rw [hsplit]
      exact (IsMeasure.blanks hgap).append (ih h)
    exact (IsMeasure.piece (.inr hitem)).append htail

/-- Any way to cut the text is one that the check follows: after each piece it stands, up to white
space, at the start of the next. -/
private theorem isMeasureRun_flatten (pieces : List (List Char))
    (h : ∀ piece ∈ pieces, IsMeasurePiece piece) : isMeasureRun (trim pieces.flatten) = true := by
  induction pieces with
  | nil => simp [trim, trimStart, trimEnd, isMeasureRun]
  | cons piece pieces ih =>
    obtain ⟨hpiece, hpieces⟩ := List.forall_mem_cons.1 h
    rw [List.flatten_cons]
    rcases hpiece with hblank | hitem
    · rw [trim_blanks_append hblank]
      exact ih hpieces
    · rw [hitem.trim_append, isMeasureRun_append hitem, trimStart_trimEnd]
      exact ih hpieces

private theorem isMeasureText_eq_true_iff {text : String} :
    isMeasureText text = true ↔ IsMeasure text.toList := by
  constructor
  · intro h
    obtain ⟨lead, trail, hlead, htrail, hsplit⟩ := blanks_append_trim text.toList
    rw [hsplit]
    exact (IsMeasure.blanks hlead).append
      ((isMeasure_of_isMeasureRun h).append (.blanks htrail))
  · rintro ⟨pieces, hsplit, hpieces⟩
    rw [isMeasureText, hsplit]
    exact isMeasureRun_flatten pieces hpieces

/-- The check of a measure accepts a text just if it can be cut into white space and items in some
way; so two accepted texts may be written one behind the other. -/
theorem isMeasureText_iff :
    (∀ text : String, isMeasureText text = true ↔ IsMeasure text.toList) ∧
      ∀ a b : String, isMeasureText a = true → isMeasureText b = true →
        isMeasureText (a ++ b) = true := by
  refine ⟨fun text => isMeasureText_eq_true_iff, fun a b ha hb => ?_⟩
  rw [isMeasureText_eq_true_iff, String.toList_append]
  exact (isMeasureText_eq_true_iff.1 ha).append (isMeasureText_eq_true_iff.1 hb)

/-- The octave of the second text is written in Arabic-Indic digits, and its last gap is an
ideographic space. -/
theorem isMeasureText_iff_two_texts :
    isMeasureText "|C#4 q" = true ∧ isMeasureText "Bb٤٢\u3000h" = true ∧
      isMeasureText ("|C#4 q" ++ "Bb٤٢\u3000h") = true :=
  have ha : isMeasureText "|C#4 q" = true := by decide +kernel
  have hb : isMeasureText "Bb٤٢\u3000h" = true := by decide +kernel
  ⟨ha, hb, isMeasureText_iff.2 _ _ ha hb⟩

end ScoreText
