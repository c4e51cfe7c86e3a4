import ScoreText.Score.Item

/-!
The score that items make up, in plain terms. Bar lines cut the items into groups; the notes and
rests of a group are one measure, and groups without any are left out. The measures are numbered
from one, and the last clef and the last time signature count (`denotes_ofItems`).
-/

namespace ScoreText

/-- `s.Denotes items`: the score is what the items say, in their order. -/
structure Score.Denotes (s : Score) (items : List Item) : Prop where
  elements : s.measures.map Measure.elements =
    ((items.splitOn .bar).map (·.filterMap Item.element?)).filter (!·.isEmpty)
  numbers : s.measures.map Measure.number = List.range' 1 s.measures.length
  clef : s.clef = (items.filterMap Item.clef?).getLast?
  time : s.time = (items.filterMap Item.time?).getLast?
  metadata : s.metadata = {}

theorem groups_ne_nil (items : List Item) : Item.groups items ≠ [] := by
  induction items with
  | nil => simp [Item.groups]
  | cons i items ih =>
    cases i with
    | bar => simp [Item.groups]
    | element e =>
      simp only [Item.groups]
      split <;> simp
    | clef c => exact ih
    | time t => exact ih

/-- The groups are what stands between the bar lines, reduced to notes and rests. -/
theorem groups_eq_splitOn (items : List Item) :
    Item.groups items = (items.splitOn .bar).map (·.filterMap Item.element?) := by
  induction items with
  | nil => rfl
  | cons i items ih =>
    rw [List.splitOn_cons_eq_if_modifyHead]
    obtain ⟨g, gs, hg⟩ := List.exists_cons_of_ne_nil (List.splitOn_ne_nil Item.bar items)
    rw [hg] at ih ⊢
    cases i with
    | bar => simp [Item.groups, ih]
    | element e => simp [Item.groups, ih, Item.element?]
    | clef c => simp [Item.groups, ih, List.filterMap_cons, Item.element?]
    | time t => simp [Item.groups, ih, List.filterMap_cons, Item.element?]

theorem groups_map_element (es : List Element) :
    Item.groups (es.map .element) = [es] := by
  induction es with
  | nil => rfl
  | cons e es ih => simp [Item.groups, ih]

theorem groups_append_bar (xs ys : List Item) :
    Item.groups (xs ++ .bar :: ys) = Item.groups xs ++ Item.groups ys := by
  simp [groups_eq_splitOn, List.splitOn_append_cons_self]

theorem flatten_groups (items : List Item) :
    (Item.groups items).flatten = items.filterMap Item.element? := by
  induction items with
  | nil => rfl
  | cons i items ih =>
    cases i with
    | bar => simp [Item.groups, ih, List.filterMap_cons, Item.element?]
    | clef c => simp [Item.groups, ih, List.filterMap_cons, Item.element?]
    | time t => simp [Item.groups, ih, List.filterMap_cons, Item.element?]
    | element e =>
      obtain ⟨g, gs, hg⟩ := List.exists_cons_of_ne_nil (groups_ne_nil items)
      rw [hg] at ih
      simp [Item.groups, hg, Item.element?, ← ih]

theorem mem_of_mem_groups {items : List Item} {g : List Element} {e : Element}
    (hg : g ∈ Item.groups items) (he : e ∈ g) : .element e ∈ items := by
  have hmem : e ∈ items.filterMap Item.element? := by
    rw [← flatten_groups]
    exact List.mem_flatten.2 ⟨g, hg, he⟩
  obtain ⟨i, hi, h⟩ := List.mem_filterMap.1 hmem
  cases i with
  | element e' =>
    cases h
    exact hi
  | bar => cases h
  | clef c => cases h
  | time t => cases h

theorem groups_append_of_no_bar {xs : List Item} (h : .bar ∉ xs) (ys : List Item) :
    ∃ g gs, Item.groups ys = g :: gs ∧
      Item.groups (xs ++ ys) = (xs.filterMap Item.element? ++ g) :: gs := by
  obtain ⟨g, gs, hg⟩ := List.exists_cons_of_ne_nil (groups_ne_nil ys)
  refine ⟨g, gs, hg, ?_⟩
  induction xs with
  | nil => exact hg
  | cons i xs ih =>
    have hrest := ih fun hmem => h (by simp [hmem])
    cases i with
    | bar => simp at h
    | element e => simp [Item.groups, hrest, Item.element?]
    | clef c => simp [Item.groups, hrest, List.filterMap_cons, Item.element?]
    | time t => simp [Item.groups, hrest, List.filterMap_cons, Item.element?]

/-- What no bar line divides is in one group. -/
theorem exists_group_of_no_bar (xs : List Item) {ys : List Item} (zs : List Item)
    (h : .bar ∉ ys) :
    ∃ g ∈ Item.groups (xs ++ (ys ++ zs)), ∀ e, .element e ∈ ys → e ∈ g := by
  induction xs with
  | nil =>
    obtain ⟨g, gs, -, hgroups⟩ := groups_append_of_no_bar h zs
    refine ⟨_, by rw [List.nil_append, hgroups]; exact List.mem_cons_self, fun e he => ?_⟩
    exact List.mem_append_left _ (List.mem_filterMap.2 ⟨_, he, rfl⟩)
  | cons i xs ih =>
    obtain ⟨g, hg, hall⟩ := ih
    cases i with
    | bar => exact ⟨g, List.mem_cons_of_mem _ hg, hall⟩
    | clef c => exact ⟨g, hg, hall⟩
    | time t => exact ⟨g, hg, hall⟩
    | element e =>
      obtain ⟨k, ks, hk⟩ := List.exists_cons_of_ne_nil (groups_ne_nil (xs ++ (ys ++ zs)))
      have hgroups : Item.groups (.element e :: xs ++ (ys ++ zs)) = (e :: k) :: ks := by
        simp only [List.cons_append, Item.groups, hk]
      rw [hk] at hg
      rw [hgroups]
      rcases List.mem_cons.1 hg with rfl | hg
      · exact ⟨e :: g, List.mem_cons_self, fun e' he' => List.mem_cons_of_mem _ (hall e' he')⟩
      · exact ⟨g, List.mem_cons_of_mem _ hg, hall⟩

/-! ## Numbered measures -/

theorem map_elements_numberFrom (n : Nat) (gs : List (List Element)) :
    (Measure.numberFrom n gs).map Measure.elements = gs := by
  induction gs generalizing n with
  | nil => rfl
  | cons g gs ih => simp [Measure.numberFrom, ih]

theorem map_number_numberFrom (n : Nat) (gs : List (List Element)) :
    (Measure.numberFrom n gs).map Measure.number = List.range' n gs.length := by
  induction gs generalizing n with
  | nil => rfl
  | cons g gs ih => simp [Measure.numberFrom, ih, List.range'_succ]

theorem length_numberFrom (n : Nat) (gs : List (List Element)) :
    (Measure.numberFrom n gs).length = gs.length := by
  rw [← List.length_map Measure.elements, map_elements_numberFrom]

/-- The score of a list of items denotes them. -/
theorem denotes_ofItems (items : List Item) : (Score.ofItems items).Denotes items where
  elements := by simp [Score.ofItems, map_elements_numberFrom, groups_eq_splitOn]
  numbers := by simp [Score.ofItems, map_number_numberFrom, length_numberFrom]
  clef := rfl
  time := rfl
  metadata := rfl

/-- The measures of the score are the groups that are not empty. -/
theorem exists_measure_ofItems_iff {items : List Item} {p : List Element → Prop} :
    (∃ m ∈ (Score.ofItems items).measures, p m.elements) ↔
      ∃ g ∈ Item.groups items, g ≠ [] ∧ p g := by
  have hmap := map_elements_numberFrom 1 ((Item.groups items).filter (!·.isEmpty))
  constructor
  · rintro ⟨m, hm, hp⟩
    have hg := List.mem_map_of_mem (f := Measure.elements) hm
    rw [Score.ofItems, hmap, List.mem_filter] at hg
    exact ⟨_, hg.1, by simpa using hg.2, hp⟩
  · rintro ⟨g, hg, hne, hp⟩
    have hmem : g ∈ (Score.ofItems items).measures.map Measure.elements := by
      rw [Score.ofItems, hmap, List.mem_filter]
      exact ⟨hg, by simpa using hne⟩
    obtain ⟨m, hm, rfl⟩ := List.mem_map.1 hmem
    exact ⟨m, hm, hp⟩

private theorem flatten_filter_nonempty (gs : List (List Element)) :
    (gs.filter (!·.isEmpty)).flatten = gs.flatten := by
  induction gs with
  | nil => rfl
  | cons g gs ih => cases g <;> simp [ih]

/-- The notes and rests of the score are those of the items, in order. -/
theorem elements_ofItems (items : List Item) :
    (Score.ofItems items).elements = items.filterMap Item.element? := by
  rw [Score.elements, List.flatMap_def, Score.ofItems, map_elements_numberFrom,
    flatten_filter_nonempty, flatten_groups]

end ScoreText
