import ScoreText.Proofs.Tokens

/-!
Lexing tiles the text. Every character belongs to exactly one of three: a token, which is spelled
like the characters it stands for, a lexical error, or a carriage return that no line feed follows
(`lex_tiles`). The pieces are laid out one behind the other, and their places tell the three apart.
-/

namespace ScoreText

/-- A stretch of a text, from one offset up to another that is not part of it. -/
structure Extent where
  start : Int
  stop : Int
  deriving DecidableEq, Repr

namespace Extent

def Holds (x : Extent) (k : Int) : Prop := x.start ≤ k ∧ k < x.stop

def single (k : Int) : Extent := ⟨k, k + 1⟩

def Disjoint (x y : Extent) : Prop := ∀ k, ¬ (x.Holds k ∧ y.Holds k)

theorem Disjoint.symm {x y : Extent} (h : x.Disjoint y) : y.Disjoint x :=
  fun k hk => h k ⟨hk.2, hk.1⟩

end Extent

/-- The characters that a token takes up: as many as its text has. -/
def Token.extent (t : Token) : Extent := ⟨t.position.offset, t.position.offset + t.text.length⟩

def Diagnostic.extent (d : Diagnostic) : Extent := .single d.position.offset

/-- The offsets of the carriage returns that no line feed follows. -/
def loneReturns (cs : List Char) : List Nat :=
  (List.range cs.length).filter fun i => cs[i]? == some '\r' && cs[i + 1]? != some '\n'

/-- What the tokens, the lexical errors and the lone carriage returns of a text take up. -/
def extents (text : String) : List Extent :=
  ((lex text).tokens.filter (·.kind ≠ .eof)).map Token.extent ++
    ((lex text).diagnostics.map Diagnostic.extent ++
      (loneReturns text.toList).map fun i : Nat => .single i)

/-- The characters of a text from the place of a token on, as many as its text has. -/
def Token.slice (t : Token) (text : String) : List Char :=
  (text.toList.drop t.position.offset.toNat).take t.text.length

/-! ## Pieces and their characters -/

/-- A token is spelled like its source, except that a note letter may be a capital. -/
def Lexeme.Spelled : Lexeme → Prop
  | .token kind source text =>
    text = source ∨ kind = .note ∧ ∃ c : Char, source = [c] ∧ text = [c.toUpper]
  | _ => True

private theorem spelled_plain (kind : Kind) (source : List Char) :
    (Lexeme.plain kind source).Spelled :=
  .inl rfl

private theorem spelled_noteLetter (c : Char) : (Lexeme.noteLetter c).Spelled :=
  .inr ⟨rfl, c, rfl, rfl⟩

theorem Scans.spelled {c : Char} {rest after : List Char} {pieces : List Lexeme}
    (h : Scans c rest pieces after) : ∀ x ∈ pieces, x.Spelled := by
  have hstray (c : Char) : (Lexeme.stray c).Spelled := trivial
  have hcarriage : Lexeme.carriage.Spelled := trivial
  cases h <;> simp [spelled_plain, spelled_noteLetter, hstray, hcarriage]

theorem spelled_of_mem_lexemes {cs : List Char} {x : Lexeme} (h : x ∈ lexemes cs) :
    x.Spelled := by
  fun_induction lexemes cs with
  | case1 => simp at h
  | case2 c rest ih =>
    rcases List.mem_append.1 h with h | h
    · exact (scans_scan c rest).spelled x h
    · exact ih h

theorem length_of_spelled {kind : Kind} {source text : List Char}
    (h : (Lexeme.token kind source text).Spelled) : text.length = source.length := by
  rcases h with rfl | ⟨-, c, rfl, rfl⟩
  · rfl
  · rfl

theorem return_not_mem_of_admits {kind : Kind} {cs : List Char} (h : kind.Admits cs)
    (hk : kind ≠ .newline) : '\r' ∉ cs := by
  intro hr
  have halpha : ¬ ∀ c ∈ cs, c.isAlpha = true := fun hall => absurd (hall _ hr) (by decide)
  have hdigit : ¬ ∀ c ∈ cs, c.isDigit = true := fun hall => absurd (hall _ hr) (by decide)
  cases kind with
  | note =>
    obtain ⟨c, rfl, hc⟩ := h
    exact halpha (by simpa using hc)
  | duration =>
    obtain ⟨d, rfl⟩ := h
    cases d <;> simp [Duration.char] at hr
  | clef => exact halpha h.1
  | accidental =>
    obtain ⟨a, rfl⟩ := h
    cases a <;> simp [Accidental.char] at hr
  | number => exact hdigit h.2
  | identifier => exact halpha h.2
  | rest => rcases h with rfl | rfl <;> simp at hr
  | colon | pipe | slash =>
    obtain rfl := h
    simp at hr
  | whitespace => rcases h with rfl | rfl <;> simp at hr
  | newline => exact hk rfl
  | eof =>
    obtain rfl := h
    simp at hr
  | unknown => exact h

/-- A carriage return in a token is the first half of a line end. -/
theorem source_of_return {kind : Kind} {source text : List Char}
    (hsound : (Lexeme.token kind source text).Sound)
    (hspelled : (Lexeme.token kind source text).Spelled) (h : '\r' ∈ source) :
    source = ['\r', '\n'] := by
  obtain ⟨-, hadmits, -, -⟩ := hsound
  rcases hspelled with rfl | ⟨rfl, c, rfl, rfl⟩
  · by_cases hk : kind = .newline
    · subst hk
      rcases hadmits with rfl | rfl
      · simp at h
      · rfl
    · exact absurd h (return_not_mem_of_admits hadmits hk)
  · obtain rfl := List.mem_singleton.1 h
    obtain ⟨d, hd, halpha⟩ := hadmits
    obtain rfl := (List.cons.inj hd).1
    exact absurd halpha (by decide)

theorem Scans.of_carriage {c : Char} {rest after : List Char} {pieces us vs : List Lexeme}
    (h : Scans c rest pieces after) (hpieces : pieces = us ++ .carriage :: vs) :
    vs = [] ∧ after.head? ≠ some '\n' := by
  cases h with
  | carriage hhead => exact ⟨(split_singleton hpieces).2.2, hhead⟩
  | altered => rcases split_pair hpieces with ⟨-, hx, -⟩ | ⟨-, hx, -⟩ <;> cases hx
  | sign | lineEnd | duration | letter | word | number | stray =>
    cases (split_singleton hpieces).2.1

/-- No line feed follows a piece that is a carriage return. -/
theorem head?_after_carriage {cs : List Char} {xs ys : List Lexeme}
    (h : lexemes cs = xs ++ .carriage :: ys) :
    (ys.flatMap Lexeme.source).head? ≠ some '\n' := by
  obtain ⟨c, rest, us, vs, after, hscans, -, rfl⟩ := exists_scans_of_lexemes h
  obtain ⟨rfl, hhead⟩ := hscans.of_carriage rfl
  rw [List.nil_append, flatMap_source_lexemes]
  exact hhead

/-! ## Pieces at their places -/

theorem exists_split_of_mem_placeFrom {p q : Position} {x : Lexeme} {xs : List Lexeme}
    (h : (q, x) ∈ placeFrom p xs) :
    ∃ ys zs, xs = ys ++ x :: zs ∧ q = p.after (ys.flatMap Lexeme.source) := by
  induction xs generalizing p with
  | nil => simp [placeFrom] at h
  | cons y xs ih =>
    rcases List.mem_cons.1 h with he | h
    · cases he
      exact ⟨[], xs, rfl, rfl⟩
    · obtain ⟨ys, zs, rfl, rfl⟩ := ih h
      exact ⟨y :: ys, zs, rfl, by simp [after_append]⟩

/-- The characters around a placed piece of a text, and its offset. -/
theorem split_of_mem_placedLexemes {text : String} {p : Position} {x : Lexeme}
    (h : (p, x) ∈ placedLexemes text) :
    ∃ ys zs, lexemes text.toList = ys ++ x :: zs ∧
      text.toList =
        ys.flatMap Lexeme.source ++ (x.source ++ zs.flatMap Lexeme.source) ∧
      p.offset = (ys.flatMap Lexeme.source).length := by
  obtain ⟨ys, zs, hsplit, rfl⟩ := exists_split_of_mem_placeFrom h
  refine ⟨ys, zs, hsplit, ?_, ?_⟩
  · rw [← flatMap_source_lexemes text.toList, hsplit, List.flatMap_append, List.flatMap_cons]
  · rw [offset_after]
    simp [Position.start]

def placedExtent (a : Position × Lexeme) : Extent :=
  ⟨a.1.offset, a.1.offset + a.2.source.length⟩

/-- The pieces lie one behind the other, without gaps. -/
theorem holds_placeFrom_iff (p : Position) (xs : List Lexeme) (k : Int) :
    (∃ a ∈ placeFrom p xs, (placedExtent a).Holds k) ↔
      p.offset ≤ k ∧ k < (p.after (xs.flatMap Lexeme.source)).offset := by
  induction xs generalizing p with
  | nil => simp [placeFrom, Position.after]
  | cons x xs ih =>
    simp only [placeFrom, List.mem_cons, exists_eq_or_imp]
    rw [ih]
    simp only [List.flatMap_cons, after_append, offset_after, placedExtent, Extent.Holds]
    omega

theorem disjoint_placeFrom (p : Position) (xs : List Lexeme) :
    ((placeFrom p xs).map placedExtent).Pairwise Extent.Disjoint := by
  rw [List.pairwise_map]
  induction xs generalizing p with
  | nil => exact List.Pairwise.nil
  | cons x xs ih =>
    rw [placeFrom, List.pairwise_cons]
    refine ⟨fun a ha k hk => ?_, ih _⟩
    have hle := (offset_le_of_mem_placeFrom ha).1
    rw [offset_after] at hle
    simp only [placedExtent, Extent.Holds] at hk
    omega

/-! ## Lone carriage returns -/

theorem mem_loneReturns {cs : List Char} {i : Nat} :
    i ∈ loneReturns cs ↔ cs[i]? = some '\r' ∧ cs[i + 1]? ≠ some '\n' := by
  have hlt : cs[i]? = some '\r' → i < cs.length := fun h => (List.getElem?_eq_some_iff.1 h).1
  simp only [loneReturns, List.mem_filter, List.mem_range, Bool.and_eq_true, beq_iff_eq,
    bne_iff_ne]
  constructor
  · rintro ⟨-, h⟩
    exact h
  · intro h
    exact ⟨hlt h.1, h⟩

private theorem lineFeed_of_return {pre post : List Char} {i : Nat} (hfrom : pre.length ≤ i)
    (hto : i < pre.length + 2) (h : (pre ++ (['\r', '\n'] ++ post))[i]? = some '\r') :
    (pre ++ (['\r', '\n'] ++ post))[i + 1]? = some '\n' := by
  obtain rfl | rfl : i = pre.length ∨ i = pre.length + 1 := by omega
  · simp
  · simp at h

/-- The lone carriage returns of a text are its carriage pieces. -/
theorem mem_loneReturns_iff {text : String} {i : Nat} :
    i ∈ loneReturns text.toList ↔
      ∃ p, (p, Lexeme.carriage) ∈ placedLexemes text ∧ p.offset = i := by
  rw [mem_loneReturns]
  constructor
  · rintro ⟨hreturn, hnext⟩
    have hi : i < text.toList.length := (List.getElem?_eq_some_iff.1 hreturn).1
    obtain ⟨⟨p, x⟩, hx, hfrom, hto⟩ := (holds_placeFrom_iff .start (lexemes text.toList) i).2 (by
      rw [flatMap_source_lexemes, offset_after]
      simp only [Position.start]
      omega)
    obtain ⟨ys, zs, hsplit, htext, hp⟩ := split_of_mem_placedLexemes hx
    simp only [placedExtent] at hfrom hto
    rw [hp] at hfrom hto
    have hmem := mem_lexemes_of_mem_placedLexemes hx
    have hsource : '\r' ∈ x.source := by
      rw [htext, List.getElem?_append_right (by omega), List.getElem?_append_left (by omega)]
        at hreturn
      exact List.mem_of_getElem? hreturn
    cases x with
    | token kind source cs =>
      -- The return would be the first half of a line end, but no line feed follows it.
      obtain rfl : source = ['\r', '\n'] :=
        source_of_return (sound_of_mem_lexemes hmem) (spelled_of_mem_lexemes hmem) hsource
      simp only [Lexeme.source, List.length_cons, List.length_nil] at hto htext
      rw [htext] at hreturn hnext
      exact absurd (lineFeed_of_return (by omega) (by omega) hreturn) hnext
    | stray c =>
      obtain rfl := List.mem_singleton.1 hsource
      have hsound : isNotationChar '\r' = false := sound_of_mem_lexemes hmem
      exact absurd hsound (by decide)
    | carriage =>
      refine ⟨p, hx, ?_⟩
      simp only [Lexeme.source, List.length_singleton] at hto
      omega
  · rintro ⟨p, hx, hp⟩
    obtain ⟨ys, zs, hsplit, htext, hlen⟩ := split_of_mem_placedLexemes hx
    have hhead := head?_after_carriage hsplit
    have hi : i = (ys.flatMap Lexeme.source).length := by omega
    rw [htext, hi]
    refine ⟨?_, ?_⟩
    · simp [Lexeme.source]
    · rw [List.head?_eq_getElem?] at hhead
      simpa [Lexeme.source, List.getElem?_append_right] using hhead

/-! ## The three sorts of pieces -/

namespace Lexeme

def isToken : Lexeme → Bool
  | .token .. => true
  | _ => false

def isStray : Lexeme → Bool
  | .stray _ => true
  | _ => false

def isCarriage : Lexeme → Bool
  | .carriage => true
  | _ => false

end Lexeme

/-- The tokens of a text before the end are those of its pieces. -/
theorem filter_tokens_eq (text : String) :
    (lex text).tokens.filter (·.kind ≠ .eof) = (placedLexemes text).filterMap tokenOf? := by
  have hne : ∀ t ∈ (placedLexemes text).filterMap tokenOf?, decide (t.kind ≠ .eof) = true := by
    intro t ht
    obtain ⟨⟨p, x⟩, hx, he⟩ := List.mem_filterMap.1 ht
    cases x with
    | token kind source cs =>
      cases he
      simpa using (sound_of_mem_lexemes (mem_lexemes_of_mem_placedLexemes hx)).1
    | stray c => cases he
    | carriage => cases he
  rw [lex_tokens, allTokens, List.filter_append, List.filter_eq_self.2 hne]
  simp [Token.endAt]

private theorem map_filterMap_eq {α β γ : Type} {f : α → Option β} {g : β → γ} {p : α → Bool}
    {h : α → γ} {xs : List α}
    (hxs : ∀ a ∈ xs, (f a).map g = if p a then some (h a) else none) :
    (xs.filterMap f).map g = (xs.filter p).map h := by
  induction xs with
  | nil => rfl
  | cons a xs ih =>
    have ha := hxs a (by simp)
    have hrest := ih fun b hb => hxs b (by simp [hb])
    rw [List.filterMap_cons, List.filter_cons]
    cases hf : f a with
    | none =>
      have hp : p a = false := by simpa [hf] using ha
      simp [hp, hrest]
    | some b =>
      have hp : p a = true ∧ g b = h a := by simpa [hf] using ha
      simp [hp, hrest]

private theorem map_extent_tokens (text : String) :
    ((placedLexemes text).filterMap tokenOf?).map Token.extent =
      ((placedLexemes text).filter (·.2.isToken)).map placedExtent := by
  refine map_filterMap_eq ?_
  rintro ⟨p, x⟩ hx
  cases x with
  | token kind source cs =>
    have hspelled := spelled_of_mem_lexemes (mem_lexemes_of_mem_placedLexemes hx)
    simp [tokenOf?, Lexeme.isToken, Token.extent, placedExtent, Lexeme.source,
      length_of_spelled hspelled]
  | stray c => rfl
  | carriage => rfl

private theorem map_extent_diagnostics (text : String) :
    (lex text).diagnostics.map Diagnostic.extent =
      ((placedLexemes text).filter (·.2.isStray)).map placedExtent := by
  refine map_filterMap_eq ?_
  rintro ⟨p, x⟩ -
  cases x <;> rfl

private theorem perm_loneReturns (text : String) :
    ((loneReturns text.toList).map fun i : Nat => Extent.single i).Perm
      (((placedLexemes text).filter (·.2.isCarriage)).map placedExtent) := by
  have hleft : ((loneReturns text.toList).map fun i : Nat => Extent.single i).Nodup := by
    have hrange : (loneReturns text.toList).Nodup := List.nodup_range.filter _
    refine List.Pairwise.map _ (fun i j hij he => hij ?_) hrange
    have hstart : (i : Int) = j := congrArg Extent.start he
    omega
  have hright : (((placedLexemes text).filter (·.2.isCarriage)).map placedExtent).Nodup := by
    refine List.Pairwise.map _ (fun a b hlt he => ?_) ((pairwise_placedLexemes text).filter _)
    have hstart : a.1.offset = b.1.offset := congrArg Extent.start he
    omega
  rw [List.perm_ext_iff_of_nodup hleft hright]
  intro x
  simp only [List.mem_map, List.mem_filter, mem_loneReturns_iff]
  constructor
  · rintro ⟨i, ⟨p, hp, hi⟩, rfl⟩
    exact ⟨(p, .carriage), ⟨hp, rfl⟩, by simp [placedExtent, Extent.single, Lexeme.source, hi]⟩
  · rintro ⟨⟨p, y⟩, ⟨hp, hy⟩, rfl⟩
    cases y with
    | token kind source cs => cases hy
    | stray c => cases hy
    | carriage =>
      obtain ⟨ys, zs, -, -, hlen⟩ := split_of_mem_placedLexemes hp
      exact ⟨_, ⟨p, hp, hlen⟩, by simp [placedExtent, Extent.single, Lexeme.source, hlen]⟩

private theorem perm_sorts (xs : List (Position × Lexeme)) :
    (xs.filter (·.2.isToken) ++ (xs.filter (·.2.isStray) ++ xs.filter (·.2.isCarriage))).Perm
      xs := by
  induction xs with
  | nil => exact List.Perm.refl _
  | cons a xs ih =>
    obtain ⟨p, x⟩ := a
    cases x with
    | token kind source cs => exact ih.cons _
    | stray c => exact List.perm_middle.trans (ih.cons _)
    | carriage =>
      rw [← List.append_assoc] at ih ⊢
      exact List.perm_middle.trans (ih.cons _)

/-- The extents of a text are those of its pieces. -/
theorem perm_extents (text : String) :
    (extents text).Perm ((placedLexemes text).map placedExtent) := by
  unfold extents
  rw [filter_tokens_eq, map_extent_tokens, map_extent_diagnostics]
  refine .trans (((perm_loneReturns text).append_left _).append_left _) ?_
  rw [← List.map_append, ← List.map_append]
  exact (perm_sorts _).map _

/-! ## Lexical errors -/

/-- The lexical errors of pieces laid out from a place on are the foreign characters among theirs,
each at its offset. -/
private theorem strays_placeFrom (p : Position) {n : Nat} (hp : p.offset = n) {xs : List Lexeme}
    (h : ∀ x ∈ xs, x.Sound) :
    ((placeFrom p xs).filterMap strayOf?).map (fun d => (d.message, d.position.offset)) =
      (((xs.flatMap Lexeme.source).zipIdx n).filter (!isNotationChar ·.1)).map fun a =>
        ((Problem.strayCharacter a.1).message, (a.2 : Int)) := by
  induction xs generalizing p n with
  | nil => rfl
  | cons x xs ih =>
    have hrest := ih (p.after x.source) (n := n + x.source.length)
      (by rw [offset_after, hp]; omega) fun y hy => h y (by simp [hy])
    have hx := h x (by simp)
    rw [placeFrom, List.filterMap_cons, List.flatMap_cons, List.zipIdx_append, List.filter_append,
      List.map_append]
    cases x with
    | token kind source cs =>
      have hnone : (source.zipIdx n).filter (!isNotationChar ·.1) = [] := by
        rw [List.filter_eq_nil_iff]
        rintro ⟨c, i⟩ hc
        simp [hx.2.2.2 c (List.fst_mem_of_mem_zipIdx hc)]
      simpa [strayOf?, Lexeme.source, hnone] using hrest
    | stray c =>
      have hc : isNotationChar c = false := hx
      simpa [strayOf?, Lexeme.source, hc, Diagnostic.message, hp] using hrest
    | carriage =>
      have hreturn : isNotationChar '\r' = true := by decide
      simpa [strayOf?, Lexeme.source, hreturn] using hrest

/-- The lexical errors are the foreign characters, each with its offset, in order. -/
theorem map_diagnostics_lex (text : String) :
    (lex text).diagnostics.map (fun d => (d.message, d.position.offset)) =
      (text.toList.zipIdx.filter (!isNotationChar ·.1)).map fun a =>
        ("Unexpected character: '" ++ String.singleton a.1 ++ "'", (a.2 : Int)) := by
  have hsound : ∀ x ∈ lexemes text.toList, x.Sound := fun x hx => sound_of_mem_lexemes hx
  have hstrays := strays_placeFrom .start (n := 0) rfl hsound
  rw [flatMap_source_lexemes] at hstrays
  exact hstrays

/-! ## The tiling -/

theorem holds_extents_iff (text : String) (k : Int) :
    (∃ x ∈ extents text, x.Holds k) ↔ 0 ≤ k ∧ k < text.length := by
  have htile := holds_placeFrom_iff .start (lexemes text.toList) k
  rw [flatMap_source_lexemes, offset_after, String.length_toList] at htile
  have hstart : Position.start.offset = 0 := rfl
  rw [hstart, Int.zero_add] at htile
  rw [← htile]
  constructor
  · rintro ⟨x, hx, hk⟩
    obtain ⟨a, ha, rfl⟩ := List.mem_map.1 ((perm_extents text).mem_iff.1 hx)
    exact ⟨a, ha, hk⟩
  · rintro ⟨a, ha, hk⟩
    exact ⟨_, (perm_extents text).mem_iff.2 (List.mem_map.2 ⟨a, ha, rfl⟩), hk⟩

theorem slice_of_mem_tokens {text : String} {t : Token}
    (h : t ∈ (placedLexemes text).filterMap tokenOf?) :
    t.text.toList = t.slice text ∨
      t.kind = .note ∧ ∃ c, t.slice text = [c] ∧ t.text.toList = [c.toUpper] := by
  obtain ⟨⟨p, x⟩, hx, he⟩ := List.mem_filterMap.1 h
  cases x with
  | stray c => cases he
  | carriage => cases he
  | token kind source cs =>
    cases he
    have hspelled := spelled_of_mem_lexemes (mem_lexemes_of_mem_placedLexemes hx)
    obtain ⟨ys, zs, -, htext, hp⟩ := split_of_mem_placedLexemes hx
    have hslice : Token.slice ⟨kind, String.ofList cs, p⟩ text = source := by
      have hlength : (String.ofList cs).length = source.length := by
        rw [String.length_ofList, length_of_spelled hspelled]
      show (text.toList.drop p.offset.toNat).take (String.ofList cs).length = source
      rw [hp, htext, hlength, Int.toNat_natCast, List.drop_left, Lexeme.source, List.take_left]
    rw [hslice, String.toList_ofList]
    exact hspelled

theorem pairwise_diagnostics (text : String) :
    (lex text).diagnostics.Pairwise fun d e => d.position.offset < e.position.offset := by
  refine List.Pairwise.filterMap _ ?_ (pairwise_placedLexemes text)
  rintro ⟨p, x⟩ ⟨q, y⟩ hlt d hd e he
  cases x <;> cases hd
  cases y <;> cases he
  exact hlt

/-- **Lexing tiles the text.** The tokens of every text end with its only end token, which has an
empty text and stands behind the last character. The stretches of the other tokens, of the lexical
errors and of the lone carriage returns have no character in common and together hold exactly the
characters of the text. Tokens and errors stand in the order of the text. Each token is spelled
like its stretch, or is a note with the capital of its letter, and there is one error for each
character that is foreign to the notation. -/
theorem lex_tiles (text : String) :
    (∃ (body : List Token) (stop : Token), (lex text).tokens = body ++ [stop] ∧
      (∀ t ∈ body, t.kind ≠ .eof) ∧ stop.kind = .eof ∧ stop.text = "" ∧
      stop.position.offset = text.length) ∧
    (extents text).Pairwise Extent.Disjoint ∧
    (∀ k, (∃ x ∈ extents text, x.Holds k) ↔ 0 ≤ k ∧ k < text.length) ∧
    (lex text).tokens.Pairwise (fun t u => t.position.offset < u.position.offset) ∧
    (lex text).diagnostics.Pairwise (fun d e => d.position.offset < e.position.offset) ∧
    (∀ t ∈ (lex text).tokens, t.kind ≠ .eof →
      t.text.toList = t.slice text ∨
        t.kind = .note ∧ ∃ c, t.slice text = [c] ∧ t.text.toList = [c.toUpper]) ∧
    (lex text).diagnostics.map (fun d => (d.message, d.position.offset)) =
      (text.toList.zipIdx.filter (!isNotationChar ·.1)).map fun a =>
        ("Unexpected character: '" ++ String.singleton a.1 ++ "'", (a.2 : Int)) := by
  refine ⟨?_, ?_, holds_extents_iff text, pairwise_tokens text, pairwise_diagnostics text,
    fun t ht hk => ?_, map_diagnostics_lex text⟩
  · refine ⟨_, _, lex_tokens text, fun t ht => ?_, rfl, rfl, ?_⟩
    · rw [← filter_tokens_eq] at ht
      simpa using (List.mem_filter.1 ht).2
    · show (Position.start.after text.toList).offset = text.length
      simp [offset_after, Position.start, String.length_toList]
  · exact (perm_extents text).symm.pairwise (disjoint_placeFrom _ _) Extent.Disjoint.symm
  · refine slice_of_mem_tokens ?_
    rw [← filter_tokens_eq]
    exact List.mem_filter.2 ⟨ht, by simpa using hk⟩

end ScoreText
