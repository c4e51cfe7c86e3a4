import ScoreText.Proofs.Spacing

/-!
Scores compose. No piece of a text reaches over white space, so the tokens of a text, a bar line and
another text on lines of their own are the tokens of the one, a bar line and those of the other
further down (`bodyTokens_join`). Two sentences with a bar line between them are a sentence, and its
score has the measures of the first and then those of the second (`ofItems_append_bar`). So two
accepted texts are accepted when a bar line joins them (`parseText_join`).
-/

namespace ScoreText

/-! ## Places further down -/

namespace Position

/-- The place in the same column, some lines further down. -/
def down (lines characters : Nat) (p : Position) : Position :=
  ⟨p.line + lines, p.column, p.offset + characters⟩

theorem down_after (lines characters : Nat) (p : Position) (cs : List Char) :
    (p.down lines characters).after cs = (p.after cs).down lines characters := by
  induction cs generalizing p with
  | nil => rfl
  | cons c cs ih =>
    have hstep : (p.down lines characters).step c = (p.step c).down lines characters := by
      unfold step
      split <;> (simp only [down, mk.injEq, true_and]; omega)
    show ((p.down lines characters).step c).after cs = _
    rw [hstep, ih]
    rfl

theorem line_after (p : Position) (cs : List Char) :
    (p.after cs).line = p.line + cs.count '\n' := by
  induction cs generalizing p with
  | nil => simp [after]
  | cons c cs ih =>
    show ((p.step c).after cs).line = _
    rw [ih]
    by_cases hc : c = '\n'
    · simp only [step, hc, if_pos, List.count_cons_self]
      omega
    · simp [step, hc]

/-- The place behind a line end is the start of a line. -/
theorem start_after_newline (cs : List Char) :
    start.after (cs ++ ['\n']) = start.down (cs.count '\n' + 1) (cs.length + 1) := by
  have hline := line_after start cs
  have hoffset := offset_after start cs
  rw [after_append]
  show ((start.after cs).step '\n') = _
  rw [step, if_pos rfl, hline, hoffset, down, Int.natCast_succ, Int.natCast_succ, Int.add_assoc,
    Int.add_assoc]
  rfl

end Position

theorem placeFrom_down (lines characters : Nat) (p : Position) (xs : List Lexeme) :
    placeFrom (p.down lines characters) xs =
      (placeFrom p xs).map fun (q, x) => (q.down lines characters, x) := by
  induction xs generalizing p with
  | nil => rfl
  | cons x xs ih => simp [placeFrom, Position.down_after, ih]

theorem meaningful_down (lines characters : Nat) (p : Position) (xs : List Lexeme) :
    meaningful (placeFrom (p.down lines characters) xs) =
      (meaningful (placeFrom p xs)).map (Token.relocate (.down lines characters)) := by
  have htoken (q : Position) (x : Lexeme) :
      tokenOf? (q.down lines characters, x) =
        (tokenOf? (q, x)).map (Token.relocate (.down lines characters)) := by
    cases x <;> rfl
  have htokens : (placeFrom (p.down lines characters) xs).filterMap tokenOf? =
      ((placeFrom p xs).filterMap tokenOf?).map (Token.relocate (.down lines characters)) := by
    rw [placeFrom_down, List.filterMap_map, List.map_filterMap]
    congr 1
    funext (q, x)
    exact htoken q x
  rw [meaningful, htokens, List.filter_map, meaningful]
  rfl

/-! ## Pieces of joined texts -/

/-- The pieces of a text that stands from a place on, each at its own place, white space left
out. -/
def marksFrom (p : Position) (cs : List Char) : List (Position × Lexeme) :=
  (placeFrom p (lexemes cs)).filter (·.2.isMark)

theorem marksFrom_nil (p : Position) : marksFrom p [] = [] := by
  simp [marksFrom, lexemes, placeFrom]

theorem marksFrom_cons (p : Position) (c : Char) (rest : List Char) :
    marksFrom p (c :: rest) = (placeFrom p (scan c rest).1).filter (·.2.isMark) ++
      marksFrom (p.after ((scan c rest).1.flatMap Lexeme.source)) (scan c rest).2 := by
  rw [marksFrom, lexemes_cons, placeFrom_append, List.filter_append, marksFrom]

theorem marksFrom_separator {c : Char} (h : isSeparator c = true) (p : Position)
    (rest : List Char) : marksFrom p (c :: rest) = marksFrom (p.step c) rest := by
  rw [marksFrom_cons]
  rcases isSeparator_iff.1 h with rfl | rfl | rfl | rfl
  · rfl
  · rfl
  · cases rest with
    | nil => rfl
    | cons d after =>
      by_cases hd : d = '\n'
      · subst hd
        rw [marksFrom_cons]
        rfl
      · have hscan : scan '\r' (d :: after) = ([.carriage], d :: after) := by
          simp [scan, signKind?, hd]
        rw [hscan]
        rfl
  · rfl

/-- A separator divides the pieces of a text. -/
theorem marksFrom_append (p : Position) (xs : List Char) {c : Char} (h : isSeparator c = true)
    (ys : List Char) :
    marksFrom p (xs ++ c :: ys) = marksFrom p xs ++ marksFrom (p.after (xs ++ [c])) ys := by
  have hat : AtGap (c :: ys) := by
    intro d hd
    obtain rfl : c = d := by simpa using hd
    exact h
  induction hn : xs.length using Nat.strongRecOn generalizing xs p with
  | ind n ih =>
    cases xs with
    | nil =>
      rw [marksFrom_nil]
      exact marksFrom_separator h p ys
    | cons d xs =>
      rw [List.length_cons] at hn
      rw [List.cons_append]
      by_cases hd : isSeparator d = true
      · rw [marksFrom_separator hd, marksFrom_separator hd]
        exact ih xs.length (by omega) (p.step d) xs rfl
      · have hreturn : d ≠ '\r' := by
          rintro rfl
          exact hd rfl
        have hle := length_scan d xs
        have hafter : p.after (d :: xs ++ [c]) =
            (p.after ((scan d xs).1.flatMap Lexeme.source)).after ((scan d xs).2 ++ [c]) := by
          rw [← after_append, ← List.append_assoc, flatMap_source_scan]
        rw [marksFrom_cons, marksFrom_cons, scan_append hreturn xs hat,
          ih (scan d xs).2.length (by omega) _ (scan d xs).2 rfl, hafter, List.append_assoc]

/-! ## Tokens of joined texts -/

def tokensFrom (p : Position) (cs : List Char) : List Token := meaningful (placeFrom p (lexemes cs))

theorem tokensFrom_eq_marks (p : Position) (cs : List Char) :
    tokensFrom p cs = (marksFrom p cs).filterMap tokenOf? := by
  rw [tokensFrom, meaningful, marksFrom]
  induction placeFrom p (lexemes cs) with
  | nil => rfl
  | cons a placed ih =>
    obtain ⟨q, x⟩ := a
    cases x with
    | stray c => exact ih
    | carriage => exact ih
    | token kind source text =>
      cases hk : kind.isTrivia <;> simpa [tokenOf?, Lexeme.isMark, hk] using ih

/-- The tokens of some pieces, and those of what stands behind them. -/
theorem tokensFrom_pieces {cs rest : List Char} {xs : List Lexeme}
    (h : lexemes cs = xs ++ lexemes rest) (p : Position) :
    tokensFrom p cs = meaningful (placeFrom p xs) ++
      tokensFrom (p.after (xs.flatMap Lexeme.source)) rest := by
  rw [tokensFrom, h, placeFrom_append, meaningful_append, tokensFrom]

theorem tokensFrom_nil (p : Position) : tokensFrom p [] = [] := by
  rw [tokensFrom_eq_marks, marksFrom_nil]
  rfl

theorem tokensFrom_cons (p : Position) (c : Char) (rest : List Char) :
    tokensFrom p (c :: rest) = meaningful (placeFrom p (scan c rest).1) ++
      tokensFrom (p.after ((scan c rest).1.flatMap Lexeme.source)) (scan c rest).2 :=
  tokensFrom_pieces (lexemes_cons c rest) p

theorem tokensFrom_separator {c : Char} (h : isSeparator c = true) (p : Position)
    (rest : List Char) : tokensFrom p (c :: rest) = tokensFrom (p.step c) rest := by
  rw [tokensFrom_eq_marks, marksFrom_separator h, ← tokensFrom_eq_marks]

/-- A separator divides the tokens of a text. -/
theorem tokensFrom_append (p : Position) (xs : List Char) {c : Char} (h : isSeparator c = true)
    (ys : List Char) :
    tokensFrom p (xs ++ c :: ys) = tokensFrom p xs ++ tokensFrom (p.after (xs ++ [c])) ys := by
  simp only [tokensFrom_eq_marks]
  rw [marksFrom_append p xs h, List.filterMap_append]

theorem bodyTokens_eq_tokensFrom (text : String) :
    bodyTokens text = tokensFrom .start text.toList := bodyTokens_eq_meaningful text

/-- A text, a bar line and another text, each on lines of its own. -/
def joinByBar (a b : String) : String := a ++ "\n|\n" ++ b

/-- How far the second of two joined texts is moved. -/
def belowBar (a : String) : Position → Position := .down (a.toList.count '\n' + 2) (a.length + 3)

/-- The tokens of joined texts are those of the first, a bar line, and those of the second. -/
theorem bodyTokens_join (a b : String) :
    ∃ line : Token, line.kind = .pipe ∧ bodyTokens (joinByBar a b) =
      bodyTokens a ++ line :: (bodyTokens b).map (Token.relocate (belowBar a)) := by
  have hjoined : (joinByBar a b).toList = a.toList ++ '\n' :: '|' :: '\n' :: b.toList := by
    simp [joinByBar]
  let p := Position.start.after (a.toList ++ ['\n'])
  refine ⟨⟨.pipe, "|", p⟩, rfl, ?_⟩
  have hbar (rest : List Char) : tokensFrom p ('|' :: rest) =
      ⟨.pipe, "|", p⟩ :: tokensFrom (p.step '|') rest := tokensFrom_cons p '|' rest
  have hplace : (p.step '|').step '\n' = belowBar a .start := by
    calc (p.step '|').step '\n'
        = Position.start.after (a.toList ++ ['\n', '|'] ++ ['\n']) := by
          simp only [p, after_append]
          rfl
      _ = belowBar a .start := by
          rw [Position.start_after_newline]
          simp only [belowBar, List.count_append, List.length_append]
          rfl
  rw [bodyTokens_eq_tokensFrom, bodyTokens_eq_tokensFrom, bodyTokens_eq_tokensFrom, hjoined,
    tokensFrom_append _ _ (by decide), hbar, tokensFrom_separator (by decide), hplace]
  exact congrArg (_ ++ _ :: ·) (meaningful_down _ _ _ _)

/-! ## Sentences and scores of joined texts -/

theorem Phrase.relocate (f : Position → Position) {run : List Token} {i : Item}
    (h : Phrase run i) : Phrase (run.map (Token.relocate f)) (i.relocate f) := by
  cases h with
  | clef hkeyword hcolon hname => exact .clef hkeyword hcolon hname
  | time hkeyword hcolon habove hslash hbelow => exact .time hkeyword hcolon habove hslash hbelow
  | plainNote hname hoctave hcode => exact .plainNote hname hoctave hcode
  | alteredNote hname hsign hoctave hcode => exact .alteredNote hname hsign hoctave hcode
  | rest hsign hcode => exact .rest hsign hcode
  | bar hline => exact .bar hline

theorem Sentence.relocate (f : Position → Position) {tokens : List Token} {items : List Item}
    (h : Sentence tokens items) :
    Sentence (tokens.map (Token.relocate f)) (items.map (Item.relocate f)) := by
  induction h with
  | nil => exact .nil
  | cons hphrase _ ih =>
    rw [List.map_append]
    exact .cons (hphrase.relocate f) ih

/-- The measures of a score and then those of another one, numbered on. What the second one declares
counts. -/
def Score.followedBy (s t : Score) : Score where
  measures := s.measures ++
    Measure.numberFrom (s.measures.length + 1) (t.measures.map Measure.elements)
  clef := t.clef.or s.clef
  time := t.time.or s.time
  metadata := s.metadata

theorem numberFrom_append (n : Nat) (gs hs : List (List Element)) :
    Measure.numberFrom n (gs ++ hs) =
      Measure.numberFrom n gs ++ Measure.numberFrom (n + gs.length) hs := by
  induction gs generalizing n with
  | nil => rfl
  | cons g gs ih =>
    rw [List.cons_append, Measure.numberFrom, ih, Measure.numberFrom, List.length_cons,
      Nat.add_right_comm, Nat.add_assoc n, List.cons_append]

/-- A bar line parts the measures before it from those behind it. -/
theorem ofItems_append_bar (xs ys : List Item) :
    Score.ofItems (xs ++ .bar :: ys) = (Score.ofItems xs).followedBy (.ofItems ys) := by
  have hlast {α : Type} {f : Item → Option α} (hbar : f .bar = none) :
      ((xs ++ .bar :: ys).filterMap f).getLast? =
        (ys.filterMap f).getLast?.or (xs.filterMap f).getLast? := by
    rw [List.filterMap_append, List.filterMap_cons_none hbar, List.getLast?_append]
  simp only [Score.followedBy, Score.ofItems, groups_append_bar, List.filter_append,
    numberFrom_append, length_numberFrom, map_elements_numberFrom, hlast (f := Item.clef?) rfl,
    hlast (f := Item.time?) rfl, Nat.add_comm 1]

/-- **Scores compose.** If two texts are accepted, so is the first, a bar line and the second, each
on lines of its own, whatever the options. Its score has the measures of the first text as they are,
and then those of the second, numbered on and moved down. The clef and the time signature are those
of the second text if it declares them, and else those of the first. -/
theorem parseText_join {optionsA optionsB : ParserOptions} {a b : String} {ra rb : ParseResult}
    (ha : parseText optionsA a = .ok ra) (hsa : ra.success = true)
    (hb : parseText optionsB b = .ok rb) (hsb : rb.success = true) (options : ParserOptions) :
    ∃ s t, ra.score = some s ∧ rb.score = some t ∧
      parseText options (joinByBar a b) =
        .ok ⟨true, [], some (s.followedBy (t.relocate (belowBar a)))⟩ := by
  obtain ⟨hcharsA, itemsA, hsentenceA, rfl⟩ := sentence_of_success ha hsa
  obtain ⟨hcharsB, itemsB, hsentenceB, rfl⟩ := sentence_of_success hb hsb
  refine ⟨_, _, rfl, rfl, ?_⟩
  obtain ⟨line, hline, htokens⟩ := bodyTokens_join a b
  have hbar : ∀ c ∈ "\n|\n".toList, isNotationChar c = true := List.all_eq_true.1 rfl
  have hchars : ∀ c ∈ (joinByBar a b).toList, isNotationChar c = true := by
    intro c hc
    simp only [joinByBar, String.toList_append, List.mem_append] at hc
    rcases hc with (hc | hc) | hc
    · exact hcharsA c hc
    · exact hbar c hc
    · exact hcharsB c hc
  have hsentence : Sentence (bodyTokens (joinByBar a b))
      (itemsA ++ .bar :: itemsB.map (Item.relocate (belowBar a))) := by
    rw [htokens]
    exact hsentenceA.append (.cons (.bar hline) (hsentenceB.relocate (belowBar a)))
  rw [parseText_of_sentence hchars hsentence options, ofItems_append_bar, relocate_ofItems]

/-- The first text ends with a bar line and a carriage return that the joining line end completes;
the second one declares no clef. -/
theorem parseText_join_at_carriage_return :
    let a := "clef: bass\nC4 q |\r"
    let b := "time: 3/4 R h"
    let s : Score :=
      { measures := [⟨1, [.note ⟨.c, 4, none⟩ .quarter ⟨2, 1, 11⟩]⟩],
        clef := some ⟨.bass, ⟨1, 1, 0⟩⟩, time := none }
    let t : Score :=
      { measures := [⟨1, [.rest .half ⟨1, 11, 10⟩]⟩],
        clef := none, time := some ⟨3, 4, ⟨1, 1, 0⟩⟩ }
    parseText {} a = .ok ⟨true, [], some s⟩ ∧ parseText {} b = .ok ⟨true, [], some t⟩ ∧
    parseText {} (joinByBar a b) = .ok ⟨true, [], some
      { measures := [⟨1, [.note ⟨.c, 4, none⟩ .quarter ⟨2, 1, 11⟩]⟩,
          ⟨2, [.rest .half ⟨4, 11, 31⟩]⟩],
        clef := some ⟨.bass, ⟨1, 1, 0⟩⟩, time := some ⟨3, 4, ⟨4, 1, 21⟩⟩ }⟩ := by
  intro a b s t
  have ha : parseText {} a = .ok ⟨true, [], some s⟩ :=
    (parseText_eq {} a).trans (congrArg Except.ok (by decide +kernel))
  have hb : parseText {} b = .ok ⟨true, [], some t⟩ :=
    (parseText_eq {} b).trans (congrArg Except.ok (by decide +kernel))
  refine ⟨ha, hb, ?_⟩
  obtain ⟨s', t', hs, ht, hjoin⟩ := parseText_join ha rfl hb rfl {}
  cases hs
  cases ht
  exact hjoin.trans (congrArg Except.ok (by decide +kernel))

end ScoreText
