import ScoreText.Proofs.Recovery

/-!
Bar lines and measures. A bar line closes a measure unless recovery passes over it, looking for
the end of a malformed item. So two notes or rests that follow each other in a score are in one
measure exactly when every bar line between them is one that recovery passes over
(`together_iff_skippedBar`).
-/

namespace ScoreText

/-- Two notes or rests are in one measure of the score. -/
def Score.Together (s : Score) (e₁ e₂ : Element) : Prop :=
  ∃ m ∈ s.measures, e₁ ∈ m.elements ∧ e₂ ∈ m.elements

instance (s : Score) (e₁ e₂ : Element) : Decidable (s.Together e₁ e₂) :=
  inferInstanceAs (Decidable (∃ m ∈ s.measures, e₁ ∈ m.elements ∧ e₂ ∈ m.elements))

def barsBetween (tokens : List Token) (e₁ e₂ : Element) : List Token :=
  tokens.filter fun p => decide (p.kind = .pipe) &&
    decide (e₁.position.offset < p.position.offset) &&
    decide (p.position.offset < e₂.position.offset)

/-- Tokens that recovery looks past. -/
def Token.Passed (t : Token) : Prop := t.kind ≠ .pipe ∧ t.kind.startsElement = false

/-- `SkippedBar tokens p`: recovery passes over the bar line `p`. A malformed item starts before
it, and nothing between the two stops recovery. -/
def SkippedBar (tokens : List Token) (p : Token) : Prop :=
  ∃ pre t mid post, tokens = pre ++ t :: (mid ++ p :: post) ∧ t.opensItem = true ∧
    itemAt? (t :: (mid ++ p :: post)) = none ∧ ∀ u ∈ mid, u.Passed

/-! ## Bar lines in the scan -/

/-- Only tokens to look past stand before `p`. -/
private def Reaches (tokens : List Token) (p : Token) : Prop :=
  ∃ mid post, tokens = mid ++ p :: post ∧ ∀ u ∈ mid, u.Passed

private theorem reaches_cons_iff {t p : Token} {rest : List Token} (hne : t ≠ p) :
    Reaches (t :: rest) p ↔ t.Passed ∧ Reaches rest p := by
  constructor
  · rintro ⟨mid, post, he, hmid⟩
    cases mid with
    | nil => exact absurd (List.cons.inj he).1 hne
    | cons u mid =>
      obtain ⟨rfl, rfl⟩ := List.cons.inj he
      exact ⟨hmid t (by simp), mid, post, rfl, fun v hv => hmid v (by simp [hv])⟩
  · rintro ⟨ht, mid, post, rfl, hmid⟩
    refine ⟨t :: mid, post, rfl, fun u hu => ?_⟩
    rcases List.mem_cons.1 hu with rfl | hu
    · exact ht
    · exact hmid u hu

private theorem skippedBar_cons_iff {t p : Token} {rest : List Token} :
    SkippedBar (t :: rest) p ↔
      SkippedBar rest p ∨ t.opensItem = true ∧ itemAt? (t :: rest) = none ∧ Reaches rest p := by
  constructor
  · rintro ⟨pre, u, mid, post, he, ho, hnone, hmid⟩
    cases pre with
    | nil =>
      obtain ⟨rfl, rfl⟩ := List.cons.inj he
      exact .inr ⟨ho, hnone, mid, post, rfl, hmid⟩
    | cons v pre =>
      obtain ⟨rfl, rfl⟩ := List.cons.inj he
      exact .inl ⟨pre, u, mid, post, rfl, ho, hnone, hmid⟩
  · rintro (⟨pre, u, mid, post, rfl, ho, hnone, hmid⟩ | ⟨ho, hnone, mid, post, rfl, hmid⟩)
    · exact ⟨t :: pre, u, mid, post, rfl, ho, hnone, hmid⟩
    · exact ⟨[], t, mid, post, rfl, ho, hnone, hmid⟩

private theorem mem_of_reaches {tokens : List Token} {p : Token} (h : Reaches tokens p) :
    p ∈ tokens := by
  obtain ⟨mid, post, rfl, -⟩ := h
  simp

private theorem mem_of_skippedBar {t p : Token} {rest : List Token}
    (h : SkippedBar (t :: rest) p) : p ∈ rest := by
  induction rest generalizing t with
  | nil =>
    rcases skippedBar_cons_iff.1 h with ⟨pre, u, mid, post, he, -⟩ | ⟨-, -, hr⟩
    · simp at he
    · exact mem_of_reaches hr
  | cons u rest ih =>
    rcases skippedBar_cons_iff.1 h with h | ⟨-, -, hr⟩
    · exact List.mem_cons_of_mem _ (ih h)
    · exact mem_of_reaches hr

theorem mem_itemsFrom {lost : Bool} {tokens : List Token} {t : Token} {i : Item}
    (h : (t, i) ∈ itemsFrom lost tokens) :
    ∃ rest, t :: rest <:+ tokens ∧ itemAt? (t :: rest) = some i := by
  induction tokens generalizing lost with
  | nil => simp [itemsFrom] at h
  | cons u tokens ih =>
    have hlater {flag : Bool} (hmem : (t, i) ∈ itemsFrom flag tokens) :
        ∃ rest, t :: rest <:+ u :: tokens ∧ itemAt? (t :: rest) = some i := by
      obtain ⟨rest, hsuffix, hi⟩ := ih hmem
      exact ⟨rest, hsuffix.trans (List.suffix_cons u tokens), hi⟩
    rw [itemsFrom] at h
    split at h
    · next hbar =>
      split at h
      · exact hlater h
      · rcases List.mem_cons.1 h with he | h
        · cases he
          exact ⟨tokens, List.suffix_refl _, hbar⟩
        · exact hlater h
    · next hi =>
      rcases List.mem_cons.1 h with he | h
      · cases he
        exact ⟨tokens, List.suffix_refl _, hi⟩
      · exact hlater h
    · exact hlater h

theorem fst_mem_of_mem_itemsFrom {lost : Bool} {tokens : List Token} {t : Token} {i : Item}
    (h : (t, i) ∈ itemsFrom lost tokens) : t ∈ tokens := by
  obtain ⟨rest, hsuffix, -⟩ := mem_itemsFrom h
  exact hsuffix.subset List.mem_cons_self

/-- A scan finds the bar lines that recovery does not pass over. -/
private theorem bar_mem_itemsFrom_iff (lost : Bool) {tokens : List Token} (p : Token)
    (hnodup : tokens.Nodup) :
    (p, .bar) ∈ itemsFrom lost tokens ↔
      p ∈ tokens ∧ p.kind = .pipe ∧
        ¬ (SkippedBar tokens p ∨ lost = true ∧ Reaches tokens p) := by
  induction tokens generalizing lost with
  | nil => simp [itemsFrom]
  | cons t rest ih =>
    obtain ⟨hfresh, hrest⟩ := List.nodup_cons.1 hnodup
    -- Either `t` is the bar line itself, or it decides whether the scan of the rest starts lost.
    by_cases htp : t = p
    · subst htp
      have hskip : ¬ SkippedBar (t :: rest) t := fun h => hfresh (mem_of_skippedBar h)
      have hreach : Reaches (t :: rest) t := ⟨[], rest, rfl, by simp⟩
      constructor
      · intro h
        have hpipe : t.kind = .pipe := by
          obtain ⟨after, -, hbar⟩ := mem_itemsFrom h
          exact kind_of_itemAt?_eq_bar hbar
        refine ⟨List.mem_cons_self, hpipe, ?_⟩
        rintro (hs | ⟨rfl, -⟩)
        · exact hskip hs
        · rw [itemsFrom_of_pipe hpipe] at h
          exact hfresh (fst_mem_of_mem_itemsFrom h)
      · rintro ⟨-, hpipe, hnot⟩
        cases lost with
        | true => exact absurd (.inr ⟨rfl, hreach⟩) hnot
        | false =>
          rw [itemsFrom, itemAt?_of_pipe hpipe]
          exact List.mem_cons_self
    · have hmem : p ∈ t :: rest ↔ p ∈ rest := by simp [Ne.symm htp]
      have hother (i : Item) (items : List (Token × Item)) :
          (p, Item.bar) ∈ (t, i) :: items ↔ (p, .bar) ∈ items := by simp [Ne.symm htp]
      rw [skippedBar_cons_iff, reaches_cons_iff htp, hmem, itemsFrom]
      split
      · next hbar =>
        have hpassed : ¬ t.Passed := fun h => h.1 (kind_of_itemAt?_eq_bar hbar)
        cases lost <;> simp [hbar, hpassed, hother, ih _ hrest]
      · next i hi h =>
        have hpassed : ¬ t.Passed := by
          intro hp
          rcases opensItem_of_itemAt? h with ho | hpipe
          · rw [Token.Passed, startsElement_of_opensItem ho] at hp
            cases hp.2
          · exact hp.1 hpipe
        simp [h, hpassed, hother, ih _ hrest]
      · next hnone =>
        have hpipe : t.kind ≠ .pipe := by
          intro hp
          rw [itemAt?_of_pipe hp] at hnone
          cases hnone
        rw [ih _ hrest]
        cases ho : t.opensItem <;> cases hs : t.kind.startsElement <;> cases lost <;>
          simp [Token.Passed, hnone, hpipe, hs]

/-! ## Places in the scan -/

private theorem map_fst_itemsFrom (lost : Bool) (tokens : List Token) :
    ((itemsFrom lost tokens).map Prod.fst).Sublist tokens := by
  induction tokens generalizing lost with
  | nil => exact List.Sublist.refl []
  | cons t rest ih =>
    rw [itemsFrom]
    split
    · split
      · exact (ih _).cons t
      · exact (ih _).cons_cons t
    · exact (ih _).cons_cons t
    · exact (ih _).cons t

private theorem position_of_itemAt? {t : Token} {rest : List Token} {e : Element}
    (h : itemAt? (t :: rest) = some (.element e)) : e.position = t.position := by
  obtain ⟨run, after, he, hp⟩ := phrase_of_itemAt? h
  cases hp with
  | plainNote => exact congrArg Token.position (List.cons.inj he).1.symm
  | alteredNote => exact congrArg Token.position (List.cons.inj he).1.symm
  | rest => exact congrArg Token.position (List.cons.inj he).1.symm

/-- Items that stand one after the other, each element at the place of its token. -/
private structure Placed (found : List (Token × Item)) : Prop where
  increasing : found.Pairwise fun a b => a.1.position.offset < b.1.position.offset
  position : ∀ t e, (t, .element e) ∈ found → e.position = t.position

private theorem placed_itemsFrom (text : String) :
    Placed (itemsFrom false (significantTokens text)) where
  increasing := by
    have h := (pairwise_significantTokens text).sublist (map_fst_itemsFrom false _)
    rwa [List.pairwise_map] at h
  position t e h := by
    obtain ⟨rest, -, hi⟩ := mem_itemsFrom h
    exact position_of_itemAt? hi

private theorem nodup_significantTokens (text : String) : (significantTokens text).Nodup := by
  refine (pairwise_significantTokens text).imp ?_
  rintro t u hlt rfl
  exact absurd hlt (Int.lt_irrefl _)

/-! ## Measures -/

/-- Where two neighbours of a score come from. -/
private theorem split_at_neighbours {found : List (Token × Item)} {e₁ e₂ : Element}
    (h : [e₁, e₂] <:+: (found.map Prod.snd).filterMap Item.element?) :
    ∃ xs t₁ ys t₂ zs, found = xs ++ (t₁, .element e₁) :: (ys ++ (t₂, .element e₂) :: zs) := by
  have hitem {x : Token × Item} {e : Element} (hx : Item.element? x.2 = some e) :
      x = (x.1, .element e) := by
    obtain ⟨t, i⟩ := x
    cases i <;> cases hx
    rfl
  obtain ⟨before, after, he⟩ := h
  rw [List.filterMap_map, List.append_assoc, eq_comm, List.filterMap_eq_append_iff] at he
  obtain ⟨xs, ys, rfl, -, hys⟩ := he
  rw [List.cons_append, List.filterMap_eq_cons_iff] at hys
  obtain ⟨ys₁, x, ys₂, rfl, -, hx, hys₂⟩ := hys
  rw [List.cons_append, List.filterMap_eq_cons_iff] at hys₂
  obtain ⟨ys₃, y, zs, rfl, -, hy, -⟩ := hys₂
  refine ⟨xs ++ ys₁, x.1, ys₃, y.1, zs, ?_⟩
  rw [← hitem hx, ← hitem hy]
  simp

private theorem together_iff {found : List (Token × Item)} (hplaced : Placed found)
    {e₁ e₂ : Element} (h : [e₁, e₂] <:+: (found.map Prod.snd).filterMap Item.element?) :
    (Score.ofItems (found.map Prod.snd)).Together e₁ e₂ ↔
      ∀ p, (p, .bar) ∈ found → ¬ (e₁.position.offset < p.position.offset ∧
        p.position.offset < e₂.position.offset) := by
  unfold Score.Together
  rw [exists_measure_ofItems_iff (p := fun g => e₁ ∈ g ∧ e₂ ∈ g)]
  constructor
  · -- A bar line between the two leaves one of them before it and the other behind it.
    rintro ⟨g, hg, -, h₁, h₂⟩ p hp ⟨hlt₁, hlt₂⟩
    obtain ⟨xs, ys, rfl⟩ := List.append_of_mem hp
    obtain ⟨-, hys, hcross⟩ := List.pairwise_append.1 hplaced.increasing
    rw [List.map_append, List.map_cons, groups_append_bar, List.mem_append] at hg
    rcases hg with hg | hg
    · obtain ⟨⟨t, i⟩, ht, rfl⟩ := List.mem_map.1 (mem_of_mem_groups hg h₂)
      have hlt := hcross _ ht (p, .bar) List.mem_cons_self
      rw [hplaced.position t e₂ (List.mem_append_left _ ht)] at hlt₂
      dsimp only at hlt
      omega
    · obtain ⟨⟨t, i⟩, ht, rfl⟩ := List.mem_map.1 (mem_of_mem_groups hg h₁)
      have hlt := (List.pairwise_cons.1 hys).1 _ ht
      rw [hplaced.position t e₁ (by simp [ht])] at hlt₁
      dsimp only at hlt
      omega
  · intro hnone
    obtain ⟨xs, t₁, ys, t₂, zs, rfl⟩ := split_at_neighbours h
    have hnobar : .bar ∉ .element e₁ :: (ys.map Prod.snd ++ [.element e₂]) := by
      intro hbar
      obtain ⟨⟨p, i⟩, hp, rfl⟩ : ∃ x ∈ ys, x.2 = Item.bar := by simpa using hbar
      obtain ⟨-, hrest, -⟩ := List.pairwise_append.1 hplaced.increasing
      obtain ⟨hfirst, hrest⟩ := List.pairwise_cons.1 hrest
      have hlt₁ := hfirst _ (List.mem_append_left _ hp)
      have hlt₂ := (List.pairwise_append.1 hrest).2.2 _ hp (t₂, .element e₂) List.mem_cons_self
      rw [← hplaced.position t₁ e₁ (by simp)] at hlt₁
      rw [← hplaced.position t₂ e₂ (by simp)] at hlt₂
      exact hnone p (by simp [hp]) ⟨hlt₁, hlt₂⟩
    obtain ⟨g, hg, hall⟩ := exists_group_of_no_bar (xs.map Prod.snd) (zs.map Prod.snd) hnobar
    have h₁ : e₁ ∈ g := hall e₁ (by simp)
    refine ⟨g, by simpa using hg, List.ne_nil_of_mem h₁, h₁, hall e₂ (by simp)⟩

private theorem mem_barsBetween {tokens : List Token} {e₁ e₂ : Element} {p : Token} :
    p ∈ barsBetween tokens e₁ e₂ ↔ p ∈ tokens ∧ p.kind = .pipe ∧
      e₁.position.offset < p.position.offset ∧ p.position.offset < e₂.position.offset := by
  simp [barsBetween, and_assoc]

/-- **Bar lines divide measures, except those that recovery passes over.** For every text and all
options the parser gives a score. When it stays below its limit on problems, two notes or rests
that follow each other are in one measure exactly when recovery passes over all bar lines between
them. So being in one measure means that no bar line stands between them exactly when there is
none, or recovery does not pass over all of them. -/
theorem together_iff_skippedBar (options : ParserOptions) (text : String) :
    ∃ r s, parseTokens options (significantTokens text) = .ok r ∧ r.score = some s ∧
      (r.diagnostics.length < options.limit → ∀ e₁ e₂, [e₁, e₂] <:+: s.elements →
        (s.Together e₁ e₂ ↔
          ∀ p ∈ barsBetween (significantTokens text) e₁ e₂,
            SkippedBar (significantTokens text) p) ∧
        ((s.Together e₁ e₂ ↔ barsBetween (significantTokens text) e₁ e₂ = []) ↔
          barsBetween (significantTokens text) e₁ e₂ = [] ∨
            ∃ p ∈ barsBetween (significantTokens text) e₁ e₂,
              ¬ SkippedBar (significantTokens text) p)) := by
  obtain ⟨r, s, hr, hs, hscore⟩ := parseTokens_eq_ofItems options text
  refine ⟨r, s, hr, hs, fun hfew e₁ e₂ hnext => ?_⟩
  have htogether : s.Together e₁ e₂ ↔
      ∀ p ∈ barsBetween (significantTokens text) e₁ e₂,
        SkippedBar (significantTokens text) p := by
    rw [hscore hfew] at hnext ⊢
    rw [elements_ofItems] at hnext
    rw [together_iff (placed_itemsFrom text) hnext]
    have hbar (p : Token) := bar_mem_itemsFrom_iff false p (nodup_significantTokens text)
    constructor
    · intro h p hp
      obtain ⟨hmem, hpipe, hbetween⟩ := mem_barsBetween.1 hp
      refine Classical.byContradiction fun hskip => ?_
      exact h p ((hbar p).2 ⟨hmem, hpipe, by simpa using hskip⟩) hbetween
    · intro h p hp hbetween
      obtain ⟨hmem, hpipe, hskip⟩ := (hbar p).1 hp
      exact hskip (.inl (h p (mem_barsBetween.2 ⟨hmem, hpipe, hbetween⟩)))
  refine ⟨htogether, ?_⟩
  rw [htogether]
  by_cases hbars : barsBetween (significantTokens text) e₁ e₂ = []
  · simp [hbars]
  · simp [hbars, Classical.not_forall]

/-- Recovery from a note without octave passes over the bar line, and the notes before and behind
it are in one measure. -/
theorem not_together_iff_no_bar :
    ∃ r s e₁ e₂, parseTokens {} (significantTokens "C4 q D | E4 q") = .ok r ∧
      r.score = some s ∧ r.diagnostics.length < ParserOptions.limit {} ∧
      [e₁, e₂] <:+: s.elements ∧
      ¬ (s.Together e₁ e₂ ↔
        barsBetween (significantTokens "C4 q D | E4 q") e₁ e₂ = []) := by
  refine ⟨_, _, .note ⟨.c, 4, none⟩ .quarter ⟨1, 1, 0⟩, .note ⟨.e, 4, none⟩ .quarter ⟨1, 10, 9⟩,
    parseTokens_significantTokens {} _, rfl, by decide +kernel, ⟨[], [], ?_⟩, by decide +kernel⟩
  decide +kernel

end ScoreText
