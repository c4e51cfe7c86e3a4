import ScoreText.Proofs.Acceptance
import ScoreText.Proofs.Chunks
import ScoreText.Proofs.Relocation
import ScoreText.Score.Printer

/-!
Printing a score and parsing the text gives the score back, but for the places of its parts, with
the measures numbered from one (`parseText_print`). The printed text is followed from word to word:
each word is cut off by the lexer as it was written, and its tokens are a phrase of the item that it
was written for (`Writes`).
-/

namespace ScoreText

/-! ## Scores without places -/

namespace Element

/-- The note or rest, standing nowhere. -/
def unplaced : Element → Element
  | .note pitch duration _ => .note pitch duration .nowhere
  | .rest duration _ => .rest duration .nowhere

def InRange : Element → Prop
  | .note pitch _ _ => pitch.octave ≤ maxOctave
  | .rest _ _ => True

end Element

def Item.unplaced : Item → Item
  | .clef c => .clef { c with position := .nowhere }
  | .time t => .time { t with position := .nowhere }
  | .element e => .element e.unplaced
  | .bar => .bar

namespace Score

def unplaced (s : Score) : Score where
  measures := s.measures.map fun m => { m with elements := m.elements.map Element.unplaced }
  clef := s.clef.map fun c => { c with position := .nowhere }
  time := s.time.map fun t => { t with position := .nowhere }
  metadata := s.metadata

/-- What of a score can be written: its measures, numbered from one, and its declarations. -/
def renumbered (s : Score) : Score where
  measures := Measure.numberFrom 1 (s.measures.map Measure.elements)
  clef := s.clef
  time := s.time

/-- Scores that can be written: no measure is empty, the octaves have one digit, and the numbers of
the time signature are positive and not too long. -/
structure Printable (s : Score) : Prop where
  nonempty : ∀ m ∈ s.measures, m.elements ≠ []
  inRange : ∀ m ∈ s.measures, ∀ e ∈ m.elements, e.InRange
  time : ∀ t ∈ s.time, 1 ≤ t.numerator ∧ 1 ≤ t.denominator ∧
    (toString t.numerator).length ≤ Text.maxDigits ∧
    (toString t.denominator).length ≤ Text.maxDigits

def items (s : Score) : List Item :=
  (s.clef.map Item.clef).toList ++ (s.time.map Item.time).toList ++
    [Item.bar].intercalate (s.measures.map fun m => m.elements.map .element)

end Score

theorem Element.relocate_nowhere : relocate (fun _ => .nowhere) = unplaced := by
  funext e
  cases e <;> rfl

theorem Item.relocate_nowhere : relocate (fun _ => .nowhere) = unplaced := by
  funext i
  cases i with
  | element e => exact congrArg (Item.element <| · e) Element.relocate_nowhere
  | clef c => rfl
  | time t => rfl
  | bar => rfl

/-- A score without places is the score of the items without places. -/
theorem unplaced_ofItems (items : List Item) :
    (Score.ofItems items).unplaced = .ofItems (items.map Item.unplaced) := by
  rw [← Item.relocate_nowhere, ← relocate_ofItems, Score.relocate, Element.relocate_nowhere]
  rfl

private theorem groups_intercalate (gs : List (List Element)) (h : ∀ g ∈ gs, g ≠ []) :
    (Item.groups ([Item.bar].intercalate (gs.map (·.map .element)))).filter (!·.isEmpty) = gs := by
  induction gs with
  | nil => rfl
  | cons g gs ih =>
    obtain ⟨hg, hgs⟩ := List.forall_mem_cons.1 h
    cases gs with
    | nil => simp [groups_map_element, hg]
    | cons g' gs =>
      rw [List.map_cons, List.map_cons, List.intercalate_cons_cons, ← List.map_cons,
        List.append_assoc, List.singleton_append, groups_append_bar, List.filter_append, ih hgs,
        groups_map_element]
      simp [hg]

private theorem filterMap_intercalate {α : Type} {f : Item → Option α} (hbar : f .bar = none)
    (helement : ∀ e, f (.element e) = none) (gs : List (List Element)) :
    ([Item.bar].intercalate (gs.map (·.map .element))).filterMap f = [] := by
  induction gs with
  | nil => rfl
  | cons g gs ih =>
    have hg : (g.map Item.element).filterMap f = [] := by
      rw [List.filterMap_map, List.filterMap_eq_nil_iff]
      exact fun e _ => helement e
    cases gs with
    | nil => simpa using hg
    | cons g' gs =>
      rw [List.map_cons, List.map_cons, List.intercalate_cons_cons, ← List.map_cons,
        List.filterMap_append, List.filterMap_append, ih, hg]
      simp [hbar]

/-- The items of a score make it up again. -/
private theorem ofItems_items {s : Score} (h : s.Printable) : .ofItems s.items = s.renumbered := by
  have hgroups := groups_intercalate (s.measures.map Measure.elements)
    (by simpa using h.nonempty)
  have hclef := filterMap_intercalate (f := Item.clef?) rfl (fun _ => rfl)
    (s.measures.map Measure.elements)
  have htime := filterMap_intercalate (f := Item.time?) rfl (fun _ => rfl)
    (s.measures.map Measure.elements)
  rw [List.map_map] at hgroups hclef htime
  unfold Score.ofItems Score.renumbered Score.items
  simp only [List.filterMap_append]
  rw [show (fun m : Measure => m.elements.map Item.element) =
    (fun g => g.map Item.element) ∘ Measure.elements from rfl, hclef, htime]
  cases s.clef <;> cases s.time <;>
    simp [Item.groups, hgroups, Item.clef?, Item.time?, List.filterMap_cons]

/-! ## What pieces and characters spell -/

/-- `Spells xs items`: wherever the pieces stand, their tokens are a sentence of the items, but for
the places. -/
structure Spells (xs : List Lexeme) (items : List Item) : Prop where
  noStray : ∀ c, .stray c ∉ xs
  sentence : ∀ p, ∃ items', Sentence (meaningful (placeFrom p xs)) items' ∧
    items'.map Item.unplaced = items.map Item.unplaced

/-- `Writes cs items`: before a break, the characters are cut into pieces that spell the items. -/
def Writes (cs : List Char) (items : List Item) : Prop :=
  ∀ rest, AtBreak rest → ∃ xs, lexemes (cs ++ rest) = xs ++ lexemes rest ∧ Spells xs items

namespace Spells

theorem nil : Spells [] [] where
  noStray := by simp
  sentence _ := ⟨[], .nil, rfl⟩

theorem append {xs ys : List Lexeme} {is js : List Item} (hx : Spells xs is)
    (hy : Spells ys js) : Spells (xs ++ ys) (is ++ js) where
  noStray c h := (List.mem_append.1 h).elim (hx.noStray c) (hy.noStray c)
  sentence p := by
    obtain ⟨is', hs, his⟩ := hx.sentence p
    obtain ⟨js', ht, hjs⟩ := hy.sentence (p.after (xs.flatMap Lexeme.source))
    refine ⟨is' ++ js', ?_, by simp [his, hjs]⟩
    rw [placeFrom_append, meaningful_append]
    exact hs.append ht

theorem trivia {kind : Kind} (h : kind.isTrivia = true) (cs : List Char) :
    Spells [.plain kind cs] [] where
  noStray := by simp [Lexeme.plain]
  sentence p := ⟨[], by simp [placeFrom, meaningful, Lexeme.plain, tokenOf?, h, Sentence.nil], rfl⟩

/-- One item is spelled by its phrase. -/
theorem phrase {xs : List Lexeme} {i : Item} (hstray : ∀ c, .stray c ∉ xs)
    (h : ∀ p, ∃ i', Phrase (meaningful (placeFrom p xs)) i' ∧ i'.unplaced = i.unplaced) :
    Spells xs [i] where
  noStray := hstray
  sentence p := by
    obtain ⟨i', hp, hi⟩ := h p
    exact ⟨[i'], .single hp, by simp [hi]⟩

end Spells

namespace Writes

theorem nil : Writes [] [] := fun _ _ => ⟨[], rfl, .nil⟩

theorem append {cs ds : List Char} {is js : List Item} (hx : Writes cs is) (hy : Writes ds js)
    (hbreak : ∀ rest, AtBreak rest → AtBreak (ds ++ rest)) : Writes (cs ++ ds) (is ++ js) := by
  intro rest hrest
  obtain ⟨ys, hys, hjs⟩ := hy rest hrest
  obtain ⟨xs, hxs, his⟩ := hx (ds ++ rest) (hbreak rest hrest)
  refine ⟨xs ++ ys, ?_, his.append hjs⟩
  rw [List.append_assoc, hxs, hys, List.append_assoc]

theorem sign {c : Char} {is : List Item} (kind : Kind) (hc : signKind? c = some kind)
    (hsign : Spells [.plain kind [c]] is) {ds : List Char} {js : List Item} (h : Writes ds js) :
    Writes (c :: ds) (is ++ js) := by
  intro rest hrest
  obtain ⟨ys, hys, hjs⟩ := h rest hrest
  refine ⟨[.plain kind [c]] ++ ys, ?_, hsign.append hjs⟩
  rw [List.cons_append, lexemes_sign kind hc, hys]
  rfl

theorem space {ds : List Char} {js : List Item} (h : Writes ds js) : Writes (' ' :: ds) js :=
  h.sign .whitespace rfl (.trivia rfl _)

theorem newline {ds : List Char} {js : List Item} (h : Writes ds js) : Writes ('\n' :: ds) js :=
  h.sign .newline rfl (.trivia rfl _)

theorem bar {ds : List Char} {js : List Item} (h : Writes ds js) :
    Writes ('|' :: ds) (.bar :: js) :=
  h.sign .pipe rfl
    (.phrase (by simp [Lexeme.plain]) fun p => ⟨.bar, @Phrase.bar ⟨.pipe, "|", p⟩ rfl, rfl⟩)

end Writes

/-! ## Notes, rests and declarations -/

theorem letter?_of_char (l : NoteLetter) (p : Position) :
    Token.letter? ⟨.note, String.ofList [l.char.toUpper], p⟩ = some l := by
  refine Token.letter?_eq_some_iff.2 ⟨rfl, ?_⟩
  rw [String.toList_ofList]
  cases l <;> rfl

private theorem toDigits_octave {o : Nat} (h : o ≤ maxOctave) :
    Nat.toDigits 10 o = [o.digitChar] :=
  Nat.toDigits_of_lt_base (Nat.lt_succ_of_le h)

private theorem isDigit_octave {o : Nat} (h : o ≤ maxOctave) : o.digitChar.isDigit = true := by
  have hmem : o.digitChar ∈ Nat.toDigits 10 o := by simp [toDigits_octave h]
  exact Nat.isDigit_of_mem_toDigits (by decide) (by decide) hmem

private theorem octave?_of_digitChar {o : Nat} (h : o ≤ maxOctave) (p : Position) :
    Token.octave? ⟨.number, String.ofList [o.digitChar], p⟩ = some o := by
  refine Token.octave?_eq_some_iff.2 ⟨rfl, _, String.toList_ofList, isDigit_octave h, ?_⟩
  rw [← toDigits_octave h, Text.decimal_toDigits]

theorem duration?_of_char (d : Duration) (p : Position) :
    Token.duration? ⟨.duration, String.ofList [d.char], p⟩ = some d :=
  Token.duration?_eq_some_iff.2 ⟨rfl, String.toList_ofList⟩

private theorem count?_of_toDigits {n : Nat} (hpos : 1 ≤ n)
    (hlen : (toString n).length ≤ Text.maxDigits) (p : Position) :
    Token.count? ⟨.number, String.ofList (Nat.toDigits 10 n), p⟩ = some n := by
  refine Token.count?_eq_some_iff.2 ⟨⟨rfl, ?_⟩, ?_⟩
  · rw [String.toList_ofList, Text.decimal_toDigits]
    refine ⟨fun c hc => Nat.isDigit_of_mem_toDigits (by decide) (by decide) hc, ?_, hpos⟩
    rwa [Nat.toString_eq_ofList_toDigits, String.length_ofList] at hlen
  · rw [String.toList_ofList, Text.decimal_toDigits]

private theorem spells_plainNote (l : NoteLetter) {o : Nat} (d : Duration) (h : o ≤ maxOctave)
    (p : Position) :
    Spells [.noteLetter l.char, .plain .number [o.digitChar], .plain .whitespace [' '],
      .plain .duration [d.char]] [.element (.note ⟨l, o, none⟩ d p)] := by
  refine .phrase (by simp [Lexeme.noteLetter, Lexeme.plain]) fun q => ?_
  refine ⟨.element (.note ⟨l, o, none⟩ d q), ?_, rfl⟩
  exact .plainNote (letter?_of_char l q) (octave?_of_digitChar h _) (duration?_of_char d _)

private theorem spells_alteredNote (l : NoteLetter) (a : Accidental) {o : Nat} (d : Duration)
    (h : o ≤ maxOctave) (p : Position) :
    Spells [.noteLetter l.char, .plain .accidental [a.char], .plain .number [o.digitChar],
      .plain .whitespace [' '], .plain .duration [d.char]]
      [.element (.note ⟨l, o, some a⟩ d p)] := by
  refine .phrase (by simp [Lexeme.noteLetter, Lexeme.plain]) fun q => ?_
  refine ⟨.element (.note ⟨l, o, some a⟩ d q), ?_, rfl⟩
  exact .alteredNote (letter?_of_char l q)
    (Token.accidental?_eq_some_iff.2 ⟨rfl, String.toList_ofList⟩) (octave?_of_digitChar h _)
    (duration?_of_char d _)

private theorem spells_rest (d : Duration) (p : Position) :
    Spells [.plain .rest ['r'], .plain .whitespace [' '], .plain .duration [d.char]]
      [.element (.rest d p)] := by
  refine .phrase (by simp [Lexeme.plain]) fun q => ⟨.element (.rest d q), ?_, rfl⟩
  exact @Phrase.rest ⟨.rest, "r", q⟩ _ d rfl (duration?_of_char d _)

private theorem lexemes_octave {o : Nat} (h : o ≤ maxOctave) (d : Duration) {rest : List Char}
    (hrest : AtBreak rest) :
    lexemes (o.digitChar :: ' ' :: d.char :: rest) =
      .plain .number [o.digitChar] :: .plain .whitespace [' '] :: .plain .duration [d.char] ::
        lexemes rest := by
  have hnumber : lexemes ([o.digitChar] ++ ' ' :: d.char :: rest) =
      .plain .number [o.digitChar] :: lexemes (' ' :: d.char :: rest) :=
    lexemes_digits (by simp) (by simpa using isDigit_octave h) (by simp)
  rw [List.singleton_append] at hnumber
  rw [hnumber, lexemes_sign .whitespace rfl, lexemes_duration d hrest.noSign]

/-- A printed note or rest. -/
theorem writes_element {e : Element} (h : e.InRange) : Writes e.print.toList [.element e] := by
  intro rest hrest
  cases e with
  | rest d p =>
    refine ⟨_, ?_, spells_rest d p⟩
    have htext : (Element.rest d p).print.toList ++ rest = 'r' :: ' ' :: d.char :: rest := by
      simp [Element.print]
    rw [htext, lexemes_restSign (by decide), lexemes_sign .whitespace rfl,
      lexemes_duration d hrest.noSign]
    rfl
  | note pitch d p =>
    obtain ⟨l, o, a⟩ := pitch
    have htext : (Element.note ⟨l, o, a⟩ d p).print.toList ++ rest =
        l.char :: ((a.map Accidental.char).toList ++ o.digitChar :: ' ' :: d.char :: rest) := by
      simp [Element.print, Pitch.display, toDigits_octave h]
    rw [htext]
    cases a with
    | none =>
      refine ⟨_, ?_, spells_plainNote l d h p⟩
      rw [Option.map_none, Option.toList_none, List.nil_append,
        lexemes_plainLetter l (isDigit_octave h), lexemes_octave h d hrest]
      rfl
    | some a =>
      refine ⟨_, ?_, spells_alteredNote l a d h p⟩
      rw [Option.map_some, Option.toList_some, List.singleton_append,
        lexemes_alteredLetter l a (isDigit_octave h), lexemes_octave h d hrest]
      rfl

private theorem isKeyword_of_lower {word : String}
    (h : String.ofList (Text.lower word.toList) = word) (p : Position) :
    Token.isKeyword ⟨.identifier, String.ofList word.toList, p⟩ word = true := by
  rw [String.ofList_toList]
  exact Token.isKeyword_iff.2 ⟨rfl, h⟩

private theorem clefType?_of_name (type : ClefType) (p : Position) :
    Token.clefType? ⟨.clef, String.ofList type.name.toList, p⟩ = some type := by
  have hname : String.ofList (Text.lower type.name.toList) = type.name := by
    cases type <;> decide
  rw [String.ofList_toList]
  exact Token.clefType?_eq_some_iff.2 ⟨rfl, hname⟩

private theorem spells_clef (c : Clef) :
    Spells [.plain .identifier "clef".toList, .plain .colon [':'], .plain .whitespace [' '],
      .plain .clef c.type.name.toList] [.clef c] := by
  refine .phrase (by simp [Lexeme.plain]) fun q => ⟨.clef ⟨c.type, q⟩, ?_, rfl⟩
  exact @Phrase.clef _ ⟨.colon, ":", _⟩ _ c.type (isKeyword_of_lower (by decide) q) rfl
    (clefType?_of_name c.type _)

private theorem writes_clef (c : Clef) :
    Writes ("clef: " ++ c.type.name).toList [.clef c] := by
  intro rest hrest
  refine ⟨_, ?_, spells_clef c⟩
  have htext : ("clef: " ++ c.type.name).toList ++ rest =
      "clef".toList ++ ':' :: ' ' :: (c.type.name.toList ++ rest) := by simp
  rw [htext, lexemes_clefKeyword, lexemes_sign .colon rfl,
    lexemes_sign .whitespace rfl, lexemes_clefName c.type hrest]
  rfl

private theorem lexemes_numeral (n : Nat) {rest : List Char}
    (h : ∀ c ∈ rest.head?, c.isDigit = false) :
    lexemes (Nat.toDigits 10 n ++ rest) =
      .plain .number (Nat.toDigits 10 n) :: lexemes rest :=
  lexemes_digits Nat.toDigits_ne_nil
    (fun _ hc => Nat.isDigit_of_mem_toDigits (by decide) (by decide) hc) h

private theorem spells_time {t : TimeSignature} (hn : 1 ≤ t.numerator) (hd : 1 ≤ t.denominator)
    (hnlen : (toString t.numerator).length ≤ Text.maxDigits)
    (hdlen : (toString t.denominator).length ≤ Text.maxDigits) :
    Spells [.plain .identifier "time".toList, .plain .colon [':'], .plain .whitespace [' '],
      .plain .number (Nat.toDigits 10 t.numerator), .plain .slash ['/'],
      .plain .number (Nat.toDigits 10 t.denominator)] [.time t] := by
  refine .phrase (by simp [Lexeme.plain]) fun q => ?_
  refine ⟨.time ⟨t.numerator, t.denominator, q⟩, ?_, rfl⟩
  exact @Phrase.time _ ⟨.colon, ":", _⟩ _ ⟨.slash, "/", _⟩ _ t.numerator t.denominator
    (isKeyword_of_lower (by decide) q) rfl (count?_of_toDigits hn hnlen _) rfl
    (count?_of_toDigits hd hdlen _)

private theorem writes_time {t : TimeSignature} (hn : 1 ≤ t.numerator) (hd : 1 ≤ t.denominator)
    (hnlen : (toString t.numerator).length ≤ Text.maxDigits)
    (hdlen : (toString t.denominator).length ≤ Text.maxDigits) :
    Writes ("time: " ++ t.display).toList [.time t] := by
  intro rest hrest
  refine ⟨_, ?_, spells_time hn hd hnlen hdlen⟩
  have htext : ("time: " ++ t.display).toList ++ rest =
      "time".toList ++ ':' :: ' ' :: (Nat.toDigits 10 t.numerator ++
        '/' :: (Nat.toDigits 10 t.denominator ++ rest)) := by simp [TimeSignature.display]
  have hbreak : ∀ c ∈ rest.head?, c.isDigit = false := by
    intro c hc
    rcases hrest c hc with rfl | rfl <;> decide
  rw [htext, lexemes_timeKeyword, lexemes_sign .colon rfl,
    lexemes_sign .whitespace rfl, lexemes_numeral _ (by simp),
    lexemes_sign .slash rfl, lexemes_numeral _ hbreak]
  rfl

/-! ## Measures and scores -/

private theorem writes_elements {es : List Element} (h : ∀ e ∈ es, e.InRange) :
    Writes ([' '].intercalate (es.map (·.print.toList))) (es.map .element) := by
  induction es with
  | nil => exact .nil
  | cons e es ih =>
    obtain ⟨he, hes⟩ := List.forall_mem_cons.1 h
    cases es with
    | nil => simpa using writes_element he
    | cons e' es =>
      have hnext := (writes_element he).append (ih hes).space fun rest _ => atBreak_space _
      simpa using hnext

private theorem writes_measures {ms : List Measure} (h : ∀ m ∈ ms, ∀ e ∈ m.elements, e.InRange) :
    Writes ([' ', '|', ' '].intercalate (ms.map (·.print.toList)))
      ([Item.bar].intercalate (ms.map fun m => m.elements.map .element)) := by
  induction ms with
  | nil => exact .nil
  | cons m ms ih =>
    obtain ⟨hm, hms⟩ := List.forall_mem_cons.1 h
    have hmeasure : Writes m.print.toList (m.elements.map .element) := by
      simpa [Measure.print, Function.comp_def] using writes_elements hm
    cases ms with
    | nil => simpa using hmeasure
    | cons m' ms =>
      have hnext := hmeasure.append (ih hms).space.bar.space fun rest _ => atBreak_space _
      simpa using hnext

private theorem writes_line {line text : String} {i : Item} {js : List Item}
    (hline : Writes line.toList [i]) (htext : Writes text.toList js) :
    Writes (line ++ "\n" ++ text).toList (i :: js) := by
  have h := hline.append htext.newline fun rest _ => atBreak_newline _
  simpa using h

/-- A printed score. -/
theorem writes_print {s : Score} (h : s.Printable) : Writes s.print.toList s.items := by
  have hmusic : Writes (" | ".intercalate (s.measures.map Measure.print)).toList
      ([Item.bar].intercalate (s.measures.map fun m => m.elements.map .element)) := by
    simpa [Function.comp_def] using writes_measures h.inRange
  have htime (t : TimeSignature) (ht : s.time = some t) :
      Writes ("time: " ++ t.display).toList [.time t] := by
    obtain ⟨hn, hd, hnlen, hdlen⟩ := h.time t ht
    exact writes_time hn hd hnlen hdlen
  unfold Score.print Score.items
  rw [String.append_assoc, List.append_assoc]
  cases s.clef with
  | none =>
    rw [String.empty_append]
    cases ht : s.time with
    | none => simpa using hmusic
    | some t => exact writes_line (htime t ht) hmusic
  | some c =>
    refine writes_line (writes_clef c) ?_
    cases ht : s.time with
    | none => simpa using hmusic
    | some t => exact writes_line (htime t ht) hmusic

/-- What is written out is parsed to what it says. -/
theorem parseText_of_writes {text : String} {items : List Item} (h : Writes text.toList items)
    (options : ParserOptions) :
    ∃ s, parseText options text = .ok ⟨true, [], some s⟩ ∧
      s.unplaced = (Score.ofItems items).unplaced := by
  obtain ⟨xs, hxs, hspells⟩ := h [] atBreak_nil
  rw [List.append_nil, lexemes, List.append_nil] at hxs
  obtain ⟨items', hs, hitems⟩ := hspells.sentence .start
  have hbody : bodyTokens text = meaningful (placeFrom .start xs) := by
    rw [bodyTokens_eq_meaningful, placedLexemes, hxs]
  have hchars : ∀ c ∈ text.toList, isNotationChar c = true := by
    rw [← noStray_iff, hxs]
    exact hspells.noStray
  refine ⟨.ofItems items', parseText_of_sentence hchars (hbody ▸ hs) options, ?_⟩
  rw [unplaced_ofItems, unplaced_ofItems, hitems]

/-- **Printing and parsing.** A score that can be written is written so that parsing, whatever the
options, succeeds without any problem and gives the score back: the same but for the places of its
parts, with the measures numbered from one. -/
theorem parseText_print (options : ParserOptions) (s : Score) (h : s.Printable) :
    ∃ s', parseText options s.print = .ok ⟨true, [], some s'⟩ ∧
      s'.unplaced = s.renumbered.unplaced := by
  obtain ⟨s', hparse, hs⟩ := parseText_of_writes (writes_print h) options
  rw [ofItems_items h] at hs
  exact ⟨s', hparse, hs⟩

/-- The letters b and e as note, sign and duration at once. -/
theorem parseText_print_of_flats :
    ∃ s : Score, s.print = "clef: bass\ntime: 12/8\nBb3 e E4 e | r h" ∧
      ∃ s', parseText {} s.print = .ok ⟨true, [], some s'⟩ ∧
        s'.unplaced = s.renumbered.unplaced := by
  refine ⟨{
    measures := [
      ⟨1, [.note ⟨.b, 3, some .flat⟩ .eighth .nowhere, .note ⟨.e, 4, none⟩ .eighth .nowhere]⟩,
      ⟨2, [.rest .half .nowhere]⟩]
    clef := some ⟨.bass, .nowhere⟩
    time := some ⟨12, 8, .nowhere⟩ }, by decide +kernel, parseText_print {} _ ⟨?_, ?_, ?_⟩⟩
  · decide
  · simp [Element.InRange, maxOctave]
  · rintro t ⟨⟩
    decide

end ScoreText
