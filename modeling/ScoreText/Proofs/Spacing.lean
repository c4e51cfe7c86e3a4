import ScoreText.Proofs.RoundTrip

/-!
The amount and the kind of white space between tokens never matters. A piece of a text ends where
white space begins, and no rule of the lexer can tell one kind of white space from another or from
the end of the text (`scan_append`). So the pieces that mean something are those before a run of
white space and those behind it, whatever the run is (`marks_append_gap`). The parser looks only at
the kinds and texts of the tokens, so texts that differ in their white space are parsed alike, but
for the places (`spacing_unobservable`).
-/

namespace ScoreText

/-! ## White space -/

def isSeparator (c : Char) : Bool := [' ', '\t', '\r', '\n'].contains c

def IsGap (cs : List Char) : Prop := ∀ c ∈ cs, isSeparator c = true

instance (cs : List Char) : Decidable (IsGap cs) :=
  List.decidableBAll (isSeparator · = true) cs

/-- Texts that differ only in their white space: it is the least equivalence that lets one run of
separators stand for another, neither of them empty, and that takes such runs away at the start and
at the end. -/
inductive Respaced : List Char → List Char → Prop
  | between (xs : List Char) {gap gap' : List Char} (ys : List Char) :
      IsGap gap → gap ≠ [] → IsGap gap' → gap' ≠ [] →
      Respaced (xs ++ (gap ++ ys)) (xs ++ (gap' ++ ys))
  | atStart {gap : List Char} (ys : List Char) : IsGap gap → Respaced (gap ++ ys) ys
  | atEnd (xs : List Char) {gap : List Char} : IsGap gap → Respaced (xs ++ gap) xs
  | refl (xs : List Char) : Respaced xs xs
  | symm {xs ys : List Char} : Respaced xs ys → Respaced ys xs
  | trans {xs ys zs : List Char} : Respaced xs ys → Respaced ys zs → Respaced xs zs

theorem isSeparator_iff {c : Char} :
    isSeparator c = true ↔ c = ' ' ∨ c = '\t' ∨ c = '\r' ∨ c = '\n' := by
  simp [isSeparator]

/-- A separator is no letter, no digit and no sign. -/
theorem class_of_isSeparator {c : Char} (h : isSeparator c = true) :
    c.isAlpha = false ∧ c.isDigit = false ∧ isAccidentalSign c = false := by
  rcases isSeparator_iff.1 h with rfl | rfl | rfl | rfl <;> decide

/-! ## Pieces before white space -/

def AtGap (rest : List Char) : Prop := ∀ c ∈ rest.head?, isSeparator c = true

private theorem span_append {p : Char → Bool} {rest : List Char}
    (h : ∀ c ∈ rest.head?, p c = false) (cs : List Char) :
    (cs ++ rest).takeWhile p = cs.takeWhile p ∧
      (cs ++ rest).dropWhile p = cs.dropWhile p ++ rest := by
  induction cs with
  | nil =>
    cases rest with
    | nil => exact ⟨rfl, rfl⟩
    | cons c rest => simp [h c (by simp)]
  | cons c cs ih =>
    cases hc : p c with
    | true => simp [hc, ih]
    | false => simp [hc]

private theorem scanLetters_append (c : Char) (cs : List Char) {rest : List Char}
    (h : AtGap rest) :
    scanLetters c (cs ++ rest) = ((scanLetters c cs).1, (scanLetters c cs).2 ++ rest) := by
  obtain ⟨htake, hdrop⟩ := span_append (fun d hd => (class_of_isSeparator (h d hd)).1) cs
  simp [scanLetters, htake, hdrop]

private theorem scanWord_append (c : Char) (cs : List Char) {rest : List Char} (h : AtGap rest) :
    scanWord c (cs ++ rest) = ((scanWord c cs).1, (scanWord c cs).2 ++ rest) := by
  cases cs with
  | nil =>
    cases rest with
    | nil => simp
    | cons d rest =>
      -- A separator is as good as the end of the text.
      obtain ⟨halpha, hdigit, hsign⟩ := class_of_isSeparator (h d (by simp))
      have hletters := scanLetters_append c [] h
      simp only [List.nil_append, scanWord, halpha, hdigit, hsign, Bool.or_self, Bool.not_false,
        Bool.and_true, Bool.false_and, Bool.true_and, Bool.false_eq_true, if_false] at hletters ⊢
      rw [hletters]
      split
      · rfl
      · split
        · rfl
        · rfl
  | cons second after =>
    have hthird : (after ++ rest).head?.any Char.isAlpha = after.head?.any Char.isAlpha := by
      cases after with
      | cons third _ => rfl
      | nil =>
        cases rest with
        | nil => rfl
        | cons d rest => simp [(class_of_isSeparator (h d (by simp))).1]
    have hletters := scanLetters_append c (second :: after) h
    rw [List.cons_append] at hletters ⊢
    simp only [scanWord, hthird, hletters]
    split
    · rfl
    · split
      · rfl
      · split
        · rfl
        · split
          · rfl
          · rfl

/-- What is scanned before white space does not depend on it. -/
theorem scan_append {c : Char} (hc : c ≠ '\r') (cs : List Char) {rest : List Char}
    (h : AtGap rest) : scan c (cs ++ rest) = ((scan c cs).1, (scan c cs).2 ++ rest) := by
  unfold scan
  split
  · rfl
  · split
    · next hreturn => exact absurd hreturn hc
    · split
      · exact scanWord_append c cs h
      · split
        · obtain ⟨htake, hdrop⟩ := span_append (fun d hd => (class_of_isSeparator (h d hd)).2.1) cs
          simp [htake, hdrop]
        · rfl

/-! ## Pieces that mean something -/

/-- Whether a piece is more than white space. -/
def Lexeme.isMark : Lexeme → Bool
  | .token kind _ _ => !kind.isTrivia
  | .stray _ => true
  | .carriage => false

/-- The pieces of a text that are more than white space. -/
def marks (cs : List Char) : List Lexeme := (lexemes cs).filter Lexeme.isMark

theorem marks_nil : marks [] = [] := by simp [marks, lexemes]

theorem marks_cons (c : Char) (rest : List Char) :
    marks (c :: rest) = (scan c rest).1.filter Lexeme.isMark ++ marks (scan c rest).2 := by
  rw [marks, lexemes_cons, List.filter_append, marks]

/-- White space means nothing by itself. -/
theorem marks_separator {c : Char} (h : isSeparator c = true) (rest : List Char) :
    marks (c :: rest) = marks rest := by
  rw [marks_cons]
  rcases isSeparator_iff.1 h with rfl | rfl | rfl | rfl
  · rfl
  · rfl
  · cases rest with
    | nil => rfl
    | cons d after =>
      by_cases hd : d = '\n'
      · subst hd
        rw [marks_cons]
        rfl
      · have hscan : scan '\r' (d :: after) = ([.carriage], d :: after) := by
          simp [scan, signKind?, hd]
        rw [hscan]
        rfl
  · rfl

theorem marks_gap {gap : List Char} (h : IsGap gap) (rest : List Char) :
    marks (gap ++ rest) = marks rest := by
  induction gap with
  | nil => rfl
  | cons c gap ih =>
    obtain ⟨hc, hgap⟩ := List.forall_mem_cons.1 h
    rw [List.cons_append, marks_separator hc, ih hgap]

/-- A run of white space divides the pieces of a text, whatever the run is. -/
theorem marks_append_gap (xs : List Char) {gap : List Char} (h : IsGap gap) (hne : gap ≠ [])
    (ys : List Char) : marks (xs ++ (gap ++ ys)) = marks xs ++ marks ys := by
  have hat : AtGap (gap ++ ys) := by
    obtain ⟨c, gap, rfl⟩ := List.exists_cons_of_ne_nil hne
    intro d hd
    obtain rfl : c = d := by simpa using hd
    exact h c (by simp)
  induction hn : xs.length using Nat.strongRecOn generalizing xs with
  | ind n ih =>
    cases xs with
    | nil => rw [List.nil_append, marks_gap h, marks_nil, List.nil_append]
    | cons c xs =>
      rw [List.length_cons] at hn
      rw [List.cons_append]
      by_cases hc : isSeparator c = true
      · rw [marks_separator hc, marks_separator hc]
        exact ih xs.length (by omega) xs rfl
      · have hreturn : c ≠ '\r' := by
          rintro rfl
          exact hc rfl
        have hle := length_scan c xs
        have hrest := ih (scan c xs).2.length (by omega) (scan c xs).2 rfl
        rw [marks_cons, marks_cons, scan_append hreturn xs hat, hrest, List.append_assoc]

theorem marks_of_respaced {cs ds : List Char} (h : Respaced cs ds) : marks cs = marks ds := by
  induction h with
  | between xs ys hgap hne hgap' hne' =>
    rw [marks_append_gap xs hgap hne, marks_append_gap xs hgap' hne']
  | atStart ys hgap => exact marks_gap hgap ys
  | @atEnd xs gap hgap =>
    by_cases hne : gap = []
    · rw [hne, List.append_nil]
    · have happend := marks_append_gap xs hgap hne []
      rwa [List.append_nil, marks_nil, List.append_nil] at happend
  | refl xs => rfl
  | symm _ ih => exact ih.symm
  | trans _ _ ih ih' => exact ih.trans ih'

/-! ## Tokens and lexical errors without their places -/

private def anywhere (_ : Position) : Position := .nowhere

private theorem relocate_meaningful (p : Position) (xs : List Lexeme) :
    (meaningful (placeFrom p xs)).map (Token.relocate anywhere) =
      (xs.filter Lexeme.isMark).filterMap fun x => tokenOf? (.nowhere, x) := by
  induction xs generalizing p with
  | nil => rfl
  | cons x xs ih =>
    rw [placeFrom, ← List.singleton_append, meaningful_append, List.map_append, ih]
    cases x with
    | stray c => rfl
    | carriage => rfl
    | token kind source text =>
      cases hk : kind.isTrivia <;>
        simp [meaningful, tokenOf?, Token.relocate, anywhere, Lexeme.isMark, hk]

private theorem relocate_strays (p : Position) (xs : List Lexeme) :
    ((placeFrom p xs).filterMap strayOf?).map (Diagnostic.relocate anywhere) =
      (xs.filter Lexeme.isMark).filterMap fun x => strayOf? (.nowhere, x) := by
  induction xs generalizing p with
  | nil => rfl
  | cons x xs ih =>
    rw [placeFrom, ← List.singleton_append, List.filterMap_append, List.map_append, ih]
    cases x with
    | stray c => rfl
    | carriage => rfl
    | token kind source text =>
      cases hk : kind.isTrivia <;> simp [Lexeme.isMark, hk, strayOf?]

section Texts

variable {a b : String}

private theorem relocate_significantTokens (h : Respaced a.toList b.toList) :
    (significantTokens a).map (Token.relocate anywhere) =
      (significantTokens b).map (Token.relocate anywhere) := by
  have hmarks := marks_of_respaced h
  unfold marks at hmarks
  simp only [significantTokens_eq, bodyTokens_eq_meaningful, placedLexemes, List.map_append,
    relocate_meaningful, hmarks]
  rfl

private theorem relocate_diagnostics (h : Respaced a.toList b.toList) :
    (lex a).diagnostics.map (Diagnostic.relocate anywhere) =
      (lex b).diagnostics.map (Diagnostic.relocate anywhere) := by
  have hmarks := marks_of_respaced h
  unfold marks at hmarks
  simp only [lex, placedLexemes, relocate_strays, hmarks]

/-- What the lexer tells of a text apart from the places is the same for both texts. -/
private theorem lex_of_respaced (h : Respaced a.toList b.toList) (includePosition : Bool) :
    (lex a ⟨true, includePosition⟩).tokens.map (fun t => (t.kind, t.text)) =
        (lex b ⟨true, includePosition⟩).tokens.map (fun t => (t.kind, t.text)) ∧
      (lex a ⟨true, includePosition⟩).diagnostics.map Diagnostic.message =
        (lex b ⟨true, includePosition⟩).diagnostics.map Diagnostic.message := by
  have htokens (text : String) :
      (lex text ⟨true, includePosition⟩).tokens.map (fun t => (t.kind, t.text)) =
        ((significantTokens text).map (Token.relocate anywhere)).map
          (fun t => (t.kind, t.text)) := by
    rw [← lexForParse_tokens]
    simp only [lexForParse, lex, List.map_map]
    congr 1
    funext t
    cases includePosition <;> rfl
  have hmessages (text : String) :
      (lex text ⟨true, includePosition⟩).diagnostics.map Diagnostic.message =
        ((lex text).diagnostics.map (Diagnostic.relocate anywhere)).map Diagnostic.message := by
    rw [List.map_map]
    rfl
  rw [htokens, htokens, relocate_significantTokens h, hmessages, hmessages, relocate_diagnostics h]
  exact ⟨rfl, rfl⟩

/-! ## Parsing -/

/-- The cursor at the first token of a text, and the one at the first of its tokens without their
places. -/
private theorem textCursor_mirrors (text : String) :
    (textCursor text).Mirrors anywhere
      (.ofTokens ((significantTokens text).map (Token.relocate anywhere))) := by
  refine ⟨hasEnd_textCursor text, ?_⟩
  have hfilter : ((significantTokens text).map (Token.relocate anywhere)).filter
      (!·.kind.isTrivia) = (significantTokens text).map (Token.relocate anywhere) := by
    refine List.filter_eq_self.2 fun t ht => ?_
    obtain ⟨u, hu, rfl⟩ := List.mem_map.1 ht
    simpa [Token.relocate] using isTrivia_of_mem_significantTokens hu
  have hne : (significantTokens text).map (Token.relocate anywhere) ≠ [] := by
    rw [significantTokens_eq]
    simp
  rw [Cursor.ahead_ofTokens (by rwa [hfilter]), hfilter, ahead_textCursor, upToEnd_map_relocate]

private theorem relocate_events (h : Respaced a.toList b.toList) (limit : Nat) :
    ((textCursor a).events limit).map (Event.relocate anywhere) =
      ((textCursor b).events limit).map (Event.relocate anywhere) := by
  rw [← Cursor.events_of_mirrors (textCursor_mirrors a),
    ← Cursor.events_of_mirrors (textCursor_mirrors b), relocate_significantTokens h]

private def ParseResult.unplaced (r : ParseResult) : ParseResult :=
  ⟨r.success, r.diagnostics.map (Diagnostic.relocate anywhere), r.score.map Score.unplaced⟩

private theorem unplaced_ofEvents (events : List Event) :
    (ParseResult.ofEvents events).unplaced = .ofEvents (events.map (Event.relocate anywhere)) := by
  have hitems : Item.relocate anywhere = Item.unplaced := Item.relocate_nowhere
  simp only [ParseResult.unplaced, ParseResult.ofEvents, filterMap_diagnostic?_relocate,
    filterMap_item?_relocate, hitems, unplaced_ofItems, Option.map_some, List.isEmpty_map]

/-- The result of a parse without the places comes from the lexical errors and the events without
the places. -/
private theorem unplaced_parseText (options : ParserOptions) (text : String) :
    ∃ r, parseText options text = .ok r ∧ r.unplaced =
      let diagnostics := (lex text).diagnostics.map (Diagnostic.relocate anywhere)
      let result := ParseResult.ofEvents
        (((textCursor text).events options.limit).map (Event.relocate anywhere))
      if options.strict && !diagnostics.isEmpty then
        ⟨false, diagnostics.take options.limit, none⟩
      else ⟨result.success && diagnostics.isEmpty,
        (diagnostics ++ result.diagnostics).take options.limit, result.score⟩ := by
  refine ⟨_, parseText_eq options text, ?_⟩
  dsimp only
  rw [← unplaced_ofEvents, List.isEmpty_map]
  split
  · simp [ParseResult.unplaced]
  · simp [ParseResult.unplaced]

end Texts

/-- **The amount and the kind of white space between tokens never matters.** Texts that differ only
in their white space have the same tokens by kind and text, and the same lexical errors by message.
Parsing them gives the same success, the same diagnostics by message and expected kinds, and the
same score but for the places. -/
theorem spacing_unobservable {a b : String} (h : Respaced a.toList b.toList) :
    (∀ includePosition,
      (lex a ⟨true, includePosition⟩).tokens.map (fun t => (t.kind, t.text)) =
          (lex b ⟨true, includePosition⟩).tokens.map (fun t => (t.kind, t.text)) ∧
        (lex a ⟨true, includePosition⟩).diagnostics.map Diagnostic.message =
          (lex b ⟨true, includePosition⟩).diagnostics.map Diagnostic.message) ∧
    ∀ options, ∃ r r', parseText options a = .ok r ∧ parseText options b = .ok r' ∧
      r.success = r'.success ∧
      r.diagnostics.map (fun d => (d.message, d.expected)) =
        r'.diagnostics.map (fun d => (d.message, d.expected)) ∧
      r.score.map Score.unplaced = r'.score.map Score.unplaced := by
  refine ⟨lex_of_respaced h, fun options => ?_⟩
  obtain ⟨r, hr, hleft⟩ := unplaced_parseText options a
  obtain ⟨r', hr', hright⟩ := unplaced_parseText options b
  have hsame : r.unplaced = r'.unplaced := by
    rw [hleft, hright, relocate_diagnostics h, relocate_events h]
  obtain ⟨hsuccess, hdiagnostics, hscore⟩ := ParseResult.mk.inj hsame
  refine ⟨r, r', hr, hr', hsuccess, ?_, hscore⟩
  have htexts := congrArg (List.map fun d : Diagnostic => (d.message, d.expected)) hdiagnostics
  rw [List.map_map, List.map_map] at htexts
  exact htexts

/-- A score on one line, its note and its rest parted by a lone carriage return, and the same score
spread over two lines. -/
theorem spacing_unobservable_two_lines :
    Respaced "C4 q|R\rh".toList "\tC4\r\n  q|R h\n".toList ∧
    ∀ options, ∃ r r', parseText options "C4 q|R\rh" = .ok r ∧
      parseText options "\tC4\r\n  q|R h\n" = .ok r' ∧ r.success = r'.success ∧
      r.score.map Score.unplaced = r'.score.map Score.unplaced := by
  have hspace : IsGap [' '] := by decide
  have hline : IsGap ['\r', '\n', ' ', ' '] := by decide
  have hreturn : IsGap ['\r'] := by decide
  have hfirst : Respaced "C4 q|R\rh".toList "C4\r\n  q|R\rh".toList :=
    .between ['C', '4'] ['q', '|', 'R', '\r', 'h'] hspace (by simp) hline (by simp)
  have hsecond : Respaced "C4\r\n  q|R\rh".toList "C4\r\n  q|R h".toList :=
    .between "C4\r\n  q|R".toList ['h'] hreturn (by simp) hspace (by simp)
  have hstart : Respaced "\tC4\r\n  q|R h".toList "C4\r\n  q|R h".toList :=
    .atStart _ (by decide : IsGap ['\t'])
  have hend : Respaced "\tC4\r\n  q|R h\n".toList "\tC4\r\n  q|R h".toList :=
    .atEnd "\tC4\r\n  q|R h".toList (by decide : IsGap ['\n'])
  have h := ((hfirst.trans hsecond).trans hstart.symm).trans hend.symm
  refine ⟨h, fun options => ?_⟩
  obtain ⟨r, r', hr, hr', hsuccess, -, hscore⟩ := (spacing_unobservable h).2 options
  exact ⟨r, r', hr, hr', hsuccess, hscore⟩

end ScoreText
