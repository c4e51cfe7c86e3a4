import ScoreText.Proofs.Escape

/-!
The JSON text of a piece of data, made safe for a script element, denotes the data
(`Payload.denotes_safeText`) and is plain ASCII (`Payload.ascii_safeText`).
-/

namespace ScoreText

/-! ## Numbers -/

namespace Json

/-- The text of an integer has digits, and perhaps a sign. -/
private theorem digit_of_mem_toString {n : Int} {c : Char} (h : c ∈ (toString n).toList) :
    c = '-' ∨ c.isDigit = true := by
  have hdigits {n : Nat} (h : c ∈ (toString n).toList) : c.isDigit = true := by
    rw [Nat.toString_eq_ofList_toDigits, String.toList_ofList] at h
    exact Nat.isDigit_of_mem_toDigits (by decide) (by decide) h
  cases n with
  | ofNat n => exact .inr (hdigits h)
  | negSucc n =>
    have hstring : toString (Int.negSucc n) = "-" ++ toString (n + 1) := rfl
    rw [hstring, String.toList_append, List.mem_append] at h
    rcases h with h | h
    · exact .inl (List.mem_singleton.1 h)
    · exact .inr (hdigits h)

theorem ascii_toString (n : Int) : ∀ c ∈ (toString n).toList, c.toNat < 128 := by
  intro c hc
  rcases digit_of_mem_toString hc with rfl | hdigit
  · decide
  · have hrange := (Text.isDigit_iff_toNat c).1 hdigit
    omega

theorem not_mem_toString (n : Int) : '<' ∉ (toString n).toList := by
  intro hmem
  rcases digit_of_mem_toString hmem with h | h <;> cases h

/-- The only numeral that starts with a zero is that of zero. -/
theorem toDigits_of_head?_eq_zero {n : Nat} (h : (Nat.toDigits 10 n).head? = some '0') :
    n = 0 := by
  induction n using Nat.strongRecOn with
  | ind n ih =>
    rcases Nat.lt_or_ge n 10 with hsmall | hlarge
    · rw [Nat.toDigits_of_lt_base hsmall] at h
      have hzero : ∀ d < 10, Nat.digitChar d = '0' → d = 0 := by decide
      exact hzero n hsmall (Option.some.inj h)
    · rw [Nat.toDigits_of_base_le (by decide) hlarge, List.head?_append] at h
      have hfirst := ih (n / 10) (by omega) (by
        cases hdigits : Nat.toDigits 10 (n / 10) with
        | nil => exact absurd hdigits Nat.toDigits_ne_nil
        | cons d ds => simpa [hdigits] using h)
      omega

def Numeral.ofInt (n : Int) : Numeral := ⟨decide (n < 0), Nat.toDigits 10 n.natAbs, [], none⟩

theorem Numeral.wellFormed_ofInt (n : Int) : (Numeral.ofInt n).WellFormed where
  nonempty := Nat.toDigits_ne_nil
  noZero := by
    intro h
    show Nat.toDigits 10 n.natAbs = ['0']
    rw [toDigits_of_head?_eq_zero h]
    rfl
  whole := fun _ hc => Nat.isDigit_of_mem_toDigits (by decide) (by decide) hc
  fraction := by simp [Numeral.ofInt]
  exponent := by simp [Numeral.ofInt]

theorem Numeral.text_ofInt (n : Int) : (Numeral.ofInt n).text = (toString n).toList := by
  cases n with
  | ofNat n =>
    have hstring : toString (Int.ofNat n) = toString n := rfl
    rw [hstring, Nat.toString_eq_ofList_toDigits]
    simp [Numeral.ofInt, Numeral.text, Numeral.fractionText, Numeral.exponentText]
  | negSucc n =>
    have hstring : toString (Int.negSucc n) = "-" ++ toString (n + 1) := rfl
    rw [hstring, Nat.toString_eq_ofList_toDigits]
    simp [Numeral.ofInt, Numeral.text, Numeral.fractionText, Numeral.exponentText]

theorem Numeral.value_ofInt (n : Int) : (Numeral.ofInt n).value = n := by
  have hvalue : (Numeral.ofInt n).value = (if n < 0 then -1 else 1) * (n.natAbs : Rat) := by
    simp [Numeral.ofInt, Numeral.value, Text.decimal_toDigits]
  rw [hvalue]
  split
  · next hneg =>
    have hn : n = -(n.natAbs : Int) := by omega
    calc -1 * (n.natAbs : Rat) = -(n.natAbs : Rat) := by rw [Rat.neg_mul, Rat.one_mul]
      _ = ((-(n.natAbs : Int) : Int) : Rat) := (Rat.intCast_neg _).symm
      _ = n := congrArg Int.cast hn.symm
  · next hpos =>
    have hn : n = (n.natAbs : Int) := by omega
    rw [Rat.one_mul]
    exact congrArg Int.cast hn.symm

/-- An integer is written as itself. -/
theorem denotes_integer (n : Int) : Denotes (toString n).toList (.number n) := by
  rw [← Numeral.text_ofInt, ← Numeral.value_ofInt n]
  exact .number (Numeral.wellFormed_ofInt n)

end Json

/-! ## Data -/

namespace Payload

open Json

mutual

def value : Payload → JsonValue
  | .null => .null
  | .integer n => .number n
  | .text s => .string s
  | .list items => .array (values items)
  | .record fields => .object (members fields)

def values : List Payload → List JsonValue
  | [] => []
  | p :: ps => p.value :: values ps

def members : List (String × Payload) → List (String × JsonValue)
  | [] => []
  | (key, p) :: ps => (key, p.value) :: members ps

end

theorem values_eq_map (ps : List Payload) : values ps = ps.map value := by
  induction ps with
  | nil => rfl
  | cons p ps ih => rw [values, ih, List.map_cons]

theorem members_eq_map (fields : List (String × Payload)) :
    members fields = fields.map fun f => (f.1, f.2.value) := by
  induction fields with
  | nil => rfl
  | cons f fields ih => rw [members, ih, List.map_cons]

theorem jsonItems_eq_map (ps : List Payload) : jsonItems ps = ps.map json := by
  induction ps with
  | nil => rfl
  | cons p ps ih => rw [jsonItems, ih, List.map_cons]

theorem jsonFields_eq_map (fields : List (String × Payload)) :
    jsonFields fields = fields.map fun f => jsonString f.1 ++ ":" ++ f.2.json := by
  induction fields with
  | nil => rfl
  | cons f fields ih => rw [jsonFields, ih, List.map_cons]

/-- What holds of a list or record if it holds of its parts holds of all data. -/
@[elab_as_elim]
theorem induction {motive : Payload → Prop} (p : Payload) (null : motive .null)
    (integer : ∀ n, motive (.integer n)) (text : ∀ s, motive (.text s))
    (list : ∀ items, (∀ p ∈ items, motive p) → motive (.list items))
    (record : ∀ fields, (∀ f ∈ fields, motive f.2) → motive (.record fields)) : motive p :=
  @Payload.rec motive (fun ps => ∀ p ∈ ps, motive p) (fun fields => ∀ f ∈ fields, motive f.2)
    (fun f => motive f.2) null integer text list record
    (fun _ h => absurd h List.not_mem_nil)
    (fun _ _ hp hps => List.forall_mem_cons.2 ⟨hp, hps⟩)
    (fun _ h => absurd h List.not_mem_nil)
    (fun _ _ hf hfs => List.forall_mem_cons.2 ⟨hf, hfs⟩)
    (fun _ _ hp => hp) p

/-- Commas part a text into texts that are made safe apart. -/
private theorem guardTags_intercalate (xs : List (List Char)) :
    guardTags ([','].intercalate xs) = [','].intercalate (xs.map guardTags) := by
  have hflat (xs : List (List Char)) (a : List Char) :
      guardTags (a ++ xs.flatMap (',' :: ·)) =
        guardTags a ++ (xs.map guardTags).flatMap (',' :: ·) := by
    induction xs generalizing a with
    | nil => simp
    | cons x xs ih =>
      rw [List.flatMap_cons, List.cons_append, guardTags_append_cons (by decide) (by decide), ih]
      rfl
  cases xs with
  | nil => rfl
  | cons x xs => rw [List.map_cons, intercalate_cons, intercalate_cons, hflat]

/-- Brackets with texts between them, made safe. -/
private theorem guardTags_brackets {a b : Char} (ha : a ≠ '<') (hb : b ≠ '<') (hb' : b ≠ '/')
    (xs : List (List Char)) :
    guardTags (a :: ([','].intercalate xs ++ [b])) =
      a :: ([','].intercalate (xs.map guardTags) ++ [b]) := by
  rw [guardTags.eq_3 _ _ (fun _ h _ => ha h), guardTags_append_cons hb hb',
    guardTags_intercalate]
  rfl

def safeText (p : Payload) : List Char := guardTags p.json.toList

theorem toList_json_list (items : List Payload) : (Payload.list items).json.toList =
    '[' :: ([','].intercalate (items.map fun p => p.json.toList) ++ [']']) := by
  simp [json, jsonItems_eq_map, Function.comp_def]

theorem toList_json_record (fields : List (String × Payload)) :
    (Payload.record fields).json.toList = '{' ::
      ([','].intercalate
        (fields.map fun f => (jsonString f.1).toList ++ ':' :: f.2.json.toList) ++ ['}']) := by
  simp [json, jsonFields_eq_map, Function.comp_def]

theorem safeText_list (items : List Payload) :
    safeText (.list items) = '[' :: ([','].intercalate (items.map safeText) ++ [']']) := by
  rw [safeText, toList_json_list, guardTags_brackets (by decide) (by decide) (by decide),
    List.map_map]
  rfl

def fieldText (f : String × Payload) : List Char :=
  '"' :: (guardTags (body f.1.toList) ++ '"' :: ':' :: safeText f.2)

theorem safeText_record (fields : List (String × Payload)) :
    safeText (.record fields) =
      '{' :: ([','].intercalate (fields.map fieldText) ++ ['}']) := by
  have hfield (f : String × Payload) :
      guardTags ((jsonString f.1).toList ++ ':' :: f.2.json.toList) = fieldText f := by
    rw [guardTags_jsonString, guardTags.eq_3 _ _ (by simp)]
    rfl
  rw [safeText, toList_json_record, guardTags_brackets (by decide) (by decide) (by decide),
    List.map_map]
  simp only [Function.comp_def, hfield]

/-- A piece of data at its place, without white space around it. -/
def slot (p : Payload) : Slot := ⟨[], p.safeText, [], p.value⟩

/-- A field of a record at its place, without white space around it. -/
def member (f : String × Payload) : Member :=
  ⟨[], guardTags (body f.1.toList), [], f.1.toList, slot f.2⟩

theorem padded_slot (p : Payload) : (slot p).padded = p.safeText := List.append_nil _

theorem value_slot (p : Payload) : (slot p).value = p.value := rfl

theorem spaced_slot (p : Payload) : (slot p).Spaced := by simp [Slot.Spaced, slot]

theorem padded_member (f : String × Payload) : (member f).padded = fieldText f := by
  simp [Member.padded, member, padded_slot, fieldText]

theorem named_member (f : String × Payload) : (member f).Named where
  before := by simp [member]
  after := by simp [member]
  name := body_guardTags _
  slot := spaced_slot _

theorem value_member (f : String × Payload) : (member f).value = (f.1, f.2.value) := by
  rw [Member.value, member, String.ofList_toList]
  rfl

theorem denotes_list {items : List Payload} (h : ∀ p ∈ items, Denotes p.safeText p.value) :
    Denotes (safeText (.list items)) (.array (items.map value)) := by
  rw [safeText_list]
  rcases List.eq_nil_or_concat items with rfl | ⟨_, _, hne⟩
  · exact .emptyArray (w := []) (by simp)
  · have harray := @Denotes.array (items.map slot) (by simp [hne])
      (List.forall_mem_map.2 fun p _ => spaced_slot p) (List.forall_mem_map.2 h)
    rw [List.map_map, List.map_map] at harray
    simpa only [Function.comp_def, padded_slot, value_slot] using harray

theorem denotes_record {fields : List (String × Payload)}
    (h : ∀ f ∈ fields, Denotes f.2.safeText f.2.value) :
    Denotes (safeText (.record fields)) (.object (fields.map fun f => (f.1, f.2.value))) := by
  rw [safeText_record]
  rcases List.eq_nil_or_concat fields with rfl | ⟨_, _, hne⟩
  · exact .emptyObject (w := []) (by simp)
  · have hobject := @Denotes.object (fields.map member) (by simp [hne])
      (List.forall_mem_map.2 fun f _ => named_member f) (List.forall_mem_map.2 h)
    rw [List.map_map, List.map_map] at hobject
    simpa only [Function.comp_def, padded_member, value_member] using hobject

/-- **Data is read as itself.** The safe text of a piece of data denotes the data. -/
theorem denotes_safeText (p : Payload) : Denotes p.safeText p.value := by
  induction p using induction with
  | null => exact .nullName
  | integer n =>
    rw [safeText, json, guardTags_of_not_mem (not_mem_toString n)]
    exact denotes_integer n
  | text s =>
    have htext := guardTags_jsonString s []
    rw [List.append_nil] at htext
    have hstring := Denotes.string (body_guardTags s.toList)
    rw [String.ofList_toList] at hstring
    rw [safeText, json, htext]
    exact hstring
  | list items ih =>
    rw [value, values_eq_map]
    exact denotes_list ih
  | record fields ih =>
    rw [value, members_eq_map]
    exact denotes_record ih

private theorem ascii_intercalate {xs : List (List Char)} (h : ∀ x ∈ xs, ∀ c ∈ x, c.toNat < 128) :
    ∀ c ∈ [','].intercalate xs, c.toNat < 128 := by
  cases xs with
  | nil => simp
  | cons x xs =>
    obtain ⟨hx, hxs⟩ := List.forall_mem_cons.1 h
    rw [intercalate_cons]
    refine List.forall_mem_append.2 ⟨hx, ?_⟩
    intro c hc
    obtain ⟨y, hy, hc⟩ := List.mem_flatMap.1 hc
    rcases List.mem_cons.1 hc with rfl | hc
    · decide
    · exact hxs y hy c hc

private theorem ascii_json (p : Payload) : ∀ c ∈ p.json.toList, c.toNat < 128 := by
  induction p using induction with
  | null => simp [json]
  | integer n => exact ascii_toString n
  | text s => exact ascii_jsonString s
  | list items ih =>
    rw [toList_json_list]
    refine List.forall_mem_cons.2 ⟨by decide, List.forall_mem_append.2 ⟨?_, by simp⟩⟩
    exact ascii_intercalate (List.forall_mem_map.2 ih)
  | record fields ih =>
    rw [toList_json_record]
    refine List.forall_mem_cons.2 ⟨by decide, List.forall_mem_append.2 ⟨?_, by simp⟩⟩
    refine ascii_intercalate (List.forall_mem_map.2 fun f hf => ?_)
    exact List.forall_mem_append.2
      ⟨ascii_jsonString f.1, List.forall_mem_cons.2 ⟨by decide, ih f hf⟩⟩

/-- The safe text of a piece of data is plain ASCII. -/
theorem ascii_safeText (p : Payload) : ∀ c ∈ p.safeText, c.toNat < 128 := by
  intro c hc
  rcases mem_guardTags hc with hc | rfl
  · exact ascii_json p c hc
  · decide

end Payload

end ScoreText
