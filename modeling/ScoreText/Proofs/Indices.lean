import ScoreText.Proofs.Anchors

/-!
Which token shows a diagnostic. The tokens of a list may be alike, even in their places, so a token
is told by its index. A reading of the tokens at their indices (`indexed`) shows its diagnostics at
these indices, and is the reading of the tokens themselves but for the places
(`exists_anchoredRun`).
-/

namespace ScoreText

/-! ## Tokens at their indices -/

/-- The token at the place that an index stands for. -/
def Token.atIndex (i : Nat) (t : Token) : Token := { t with position := ⟨0, 0, i⟩ }

def indexed (tokens : List Token) : List Token := tokens.mapIdx Token.atIndex

theorem mem_indexed {tokens : List Token} {u : Token} (h : u ∈ indexed tokens) :
    ∃ (i : Nat) (t : Token), tokens[i]? = some t ∧ u = t.atIndex i := by
  obtain ⟨i, hi⟩ := List.getElem?_of_mem h
  rw [indexed, List.getElem?_mapIdx] at hi
  obtain ⟨t, ht, rfl⟩ := Option.map_eq_some_iff.1 hi
  exact ⟨i, t, ht, rfl⟩

theorem inOrder_indexed (tokens : List Token) : InOrder (indexed tokens) := by
  rw [InOrder, List.pairwise_iff_getElem]
  intro i j hi hj hij
  simp only [indexed, List.getElem_mapIdx, Token.atIndex]
  omega

theorem indexed_append_cons (front : List Token) (t : Token) (rest : List Token) :
    ∃ rest', indexed (front ++ t :: rest) = indexed front ++ t.atIndex front.length :: rest' := by
  rw [indexed, List.mapIdx_append, List.mapIdx_cons, Nat.zero_add]
  exact ⟨_, rfl⟩

private def placeAt (tokens : List Token) (p : Position) : Position :=
  ((tokens[p.offset.toNat]?).map Token.position).getD p

private theorem relocate_atIndex {tokens : List Token} {i : Nat} {t : Token}
    (h : tokens[i]? = some t) : (t.atIndex i).relocate (placeAt tokens) = t := by
  simp [Token.relocate, Token.atIndex, placeAt, h]

private theorem map_relocate_indexed (tokens : List Token) :
    (indexed tokens).map (Token.relocate (placeAt tokens)) = tokens := by
  refine List.ext_getElem? fun i => ?_
  rw [List.getElem?_map, indexed, List.getElem?_mapIdx, Option.map_map]
  cases ht : tokens[i]? with
  | none => rfl
  | some t => exact congrArg some (relocate_atIndex ht)

/-! ## Lists that are read to their end -/

/-- A list of tokens that a parser reads to its end: there is an end, no token is white space, and
all have texts of their kinds. -/
structure Readable (tokens : List Token) : Prop where
  hasEnd : ∃ t ∈ tokens, t.kind = .eof
  lexical : ∀ t ∈ tokens, t.Lexical ∧ t.kind.isTrivia = false

namespace Readable

variable {tokens : List Token}

theorem indexed (h : Readable tokens) : Readable (indexed tokens) where
  hasEnd := by
    obtain ⟨t, ht, hk⟩ := h.hasEnd
    obtain ⟨front, rest, rfl⟩ := List.append_of_mem ht
    obtain ⟨rest', hindexed⟩ := indexed_append_cons front t rest
    exact ⟨t.atIndex front.length, by simp [hindexed], hk⟩
  lexical := by
    intro u hu
    obtain ⟨i, t, ht, rfl⟩ := mem_indexed hu
    exact h.lexical t (List.mem_of_getElem? ht)

theorem ahead (h : Readable tokens) : (Cursor.ofTokens tokens).ahead = tokens := by
  have hfilter : tokens.filter (!·.kind.isTrivia) = tokens :=
    List.filter_eq_self.2 fun t ht => by simp [(h.lexical t ht).2]
  obtain ⟨t, ht, -⟩ := h.hasEnd
  rw [Cursor.ahead_ofTokens (by rw [hfilter]; exact List.ne_nil_of_mem ht), hfilter]

theorem run (h : Readable tokens) (options : ParserOptions) :
    (Parser.ofTokens options tokens).run.1 =
      .ok (.ofEvents ((Cursor.ofTokens tokens).events options.limit)) := by
  rw [Parser.run_eq_parseTokens]
  refine parseTokens_eq_ofEvents options h.hasEnd fun t ht => ?_
  rw [h.ahead] at ht
  exact (h.lexical t ht).1

theorem trail (h : Readable tokens) (limit : Nat) :
    Trail tokens (((Cursor.ofTokens tokens).events limit).filterMap Event.diagnostic?) := by
  have hlexical : ∀ t ∈ (Cursor.ofTokens tokens).ahead, t.Lexical ∧ t.kind.isTrivia = false := by
    rw [h.ahead]
    exact h.lexical
  have htrail : Trail (Cursor.ofTokens tokens).ahead _ :=
    @Cursor.trail_events limit _ (hasEnd_ofTokens h.hasEnd) hlexical
  rwa [h.ahead] at htrail

end Readable

theorem readable_significantTokens (text : String) : Readable (significantTokens text) where
  hasEnd := by
    rw [significantTokens_eq]
    exact ⟨_, List.mem_append_right _ List.mem_cons_self, rfl⟩
  lexical _ ht := ⟨lexical_of_mem_significantTokens ht, isTrivia_of_mem_significantTokens ht⟩

/-! ## Diagnostics at indices -/

/-- `AnchoredRun options tokens r anchors`: parsing the tokens gives the result `r`, and `anchors`
are its problems, each with the index of the token that shows it. A parser does not look at places,
so indices in their stead tell tokens apart that are alike. -/
structure AnchoredRun (options : ParserOptions) (tokens : List Token) (r : ParseResult)
    (anchors : List (Nat × Problem)) : Prop where
  run : (Parser.ofTokens options tokens).run.1 = .ok r
  indexedRun : ∃ s, (Parser.ofTokens options (indexed tokens)).run.1 = .ok s ∧
    anchors = s.diagnostics.map fun d => (d.position.offset.toNat, d.problem)
  shown : r.diagnostics.map some =
    anchors.map fun a => (tokens[a.1]?).map (Diagnostic.atToken a.2)

def indexedDiagnostics (options : ParserOptions) (tokens : List Token) : List Diagnostic :=
  ((Cursor.ofTokens (indexed tokens)).events options.limit).filterMap Event.diagnostic?

/-- The problems found in the tokens, each with the index of the token that shows it. -/
def anchorsOf (options : ParserOptions) (tokens : List Token) : List (Nat × Problem) :=
  (indexedDiagnostics options tokens).map fun d => (d.position.offset.toNat, d.problem)

theorem atIndex_of_mem {options : ParserOptions} {tokens : List Token} (h : Readable tokens)
    {d : Diagnostic} (hd : d ∈ indexedDiagnostics options tokens) :
    ∃ (i : Nat) (t : Token), tokens[i]? = some t ∧ d = .atToken d.problem (t.atIndex i) := by
  obtain ⟨u, hu, hshown⟩ := (h.indexed.trail options.limit).exists_shownAt hd
  obtain ⟨i, t, ht, rfl⟩ := mem_indexed hu
  obtain ⟨problem, position, token⟩ := d
  obtain rfl : token = _ := hshown.token
  obtain rfl : position = _ := hshown.position
  exact ⟨i, t, ht, rfl⟩

theorem mem_anchorsOf_iff {options : ParserOptions} {tokens : List Token} (h : Readable tokens)
    {i : Nat} {p : Problem} :
    (i, p) ∈ anchorsOf options tokens ↔
      ∃ t, tokens[i]? = some t ∧ .atToken p (t.atIndex i) ∈ indexedDiagnostics options tokens := by
  constructor
  · intro hmem
    obtain ⟨d, hd, he⟩ := List.mem_map.1 hmem
    obtain ⟨j, t, ht, hshown⟩ := atIndex_of_mem h hd
    rw [hshown] at hd he
    cases he
    exact ⟨t, ht, hd⟩
  · rintro ⟨t, -, hd⟩
    exact List.mem_map.2 ⟨_, hd, rfl⟩

/-- Moved to the places of the tokens, the diagnostics at the indices are those of the tokens. -/
theorem exists_anchoredRun (options : ParserOptions) {tokens : List Token} (h : Readable tokens) :
    ∃ r, AnchoredRun options tokens r (anchorsOf options tokens) := by
  have hmirrors :
      (Cursor.ofTokens (indexed tokens)).Mirrors (placeAt tokens) (.ofTokens tokens) := by
    refine ⟨hasEnd_ofTokens h.indexed.hasEnd, ?_⟩
    rw [h.ahead, h.indexed.ahead, ← upToEnd_map_relocate, map_relocate_indexed]
  refine ⟨_, h.run options, ⟨_, h.indexed.run options, rfl⟩, ?_⟩
  show (((Cursor.ofTokens tokens).events options.limit).filterMap Event.diagnostic?).map some = _
  rw [Cursor.events_of_mirrors hmirrors, filterMap_diagnostic?_relocate, anchorsOf,
    indexedDiagnostics, List.map_map, List.map_map]
  refine List.map_congr_left fun d hd => ?_
  obtain ⟨i, t, ht, hshown⟩ := atIndex_of_mem h hd
  rw [hshown]
  calc some ((Diagnostic.atToken d.problem (t.atIndex i)).relocate (placeAt tokens))
    _ = some (.atToken d.problem ((t.atIndex i).relocate (placeAt tokens))) := rfl
    _ = some (.atToken d.problem t) := by rw [relocate_atIndex ht]
    _ = (tokens[i]?).map (Diagnostic.atToken d.problem) := by rw [ht, Option.map_some]

end ScoreText
