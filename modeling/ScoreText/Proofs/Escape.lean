import ScoreText.Proofs.Json
import ScoreText.Sheet.Payload

/-!
Strings of JSON inside a script element. Each character is written so that it is read as itself
(`Payload.spells_escapeChar`). A backslash that is put before a slash, so that no `</` is left, only
ever changes how a character is spelled (`Payload.body_guardTags`).
-/

namespace ScoreText

/-! ## Tags -/

/-- A character that is neither `<` nor `/` parts a text into two that are made safe apart. -/
theorem guardTags_append_cons {c : Char} (hopen : c ≠ '<') (hslash : c ≠ '/') (a b : List Char) :
    guardTags (a ++ c :: b) = guardTags a ++ c :: guardTags b := by
  fun_induction guardTags a with
  | case1 => simp [guardTags, hopen]
  | case2 a ih => simp [guardTags, ih]
  | case3 d a hpair ih =>
    have hpair' : ∀ rest, d = '<' → a ++ c :: b = '/' :: rest → False := by
      intro rest hd heq
      cases a with
      | nil => exact hslash (List.cons.inj heq).1
      | cons e a => exact hpair a hd (by rw [(List.cons.inj heq).1])
    rw [List.cons_append, guardTags.eq_3 _ _ hpair', ih]
    rfl

theorem head?_guardTags (cs : List Char) : (guardTags cs).head? = cs.head? := by
  fun_cases guardTags cs <;> rfl

/-- What stands apart in front of a text that does not start with a slash stays apart. -/
theorem guardTags_append {a b : List Char} (h : '<' ∈ a.getLast? → '/' ∉ b.head?) :
    guardTags (a ++ b) = guardTags a ++ guardTags b := by
  fun_induction guardTags a with
  | case1 => rfl
  | case2 a ih =>
    have h' : '<' ∈ a.getLast? → '/' ∉ b.head? := by
      intro hlast
      apply h
      cases a with
      | nil => cases hlast
      | cons d a => simpa using hlast
    rw [List.cons_append, List.cons_append, guardTags, ih h']
    rfl
  | case3 d a hpair ih =>
    have h' : '<' ∈ a.getLast? → '/' ∉ b.head? := by
      intro hlast
      apply h
      cases a with
      | nil => cases hlast
      | cons e a => simpa using hlast
    have hpair' : ∀ rest, d = '<' → a ++ b = '/' :: rest → False := by
      intro rest hd heq
      cases a with
      | nil =>
        have hslash : '/' ∈ b.head? := by simp [show b = '/' :: rest from heq]
        exact h (by simp [hd]) hslash
      | cons e a => exact hpair a hd (by rw [(List.cons.inj heq).1])
    rw [List.cons_append, guardTags.eq_3 _ _ hpair', ih h']
    rfl

/-- A text without `<` is safe as it is. -/
theorem guardTags_of_not_mem {cs : List Char} (h : '<' ∉ cs) : guardTags cs = cs := by
  fun_induction guardTags cs with
  | case1 => rfl
  | case2 cs _ => exact absurd (by simp) h
  | case3 c cs _ ih => rw [ih fun hmem => h (List.mem_cons_of_mem _ hmem)]

theorem mem_guardTags {cs : List Char} {c : Char} (h : c ∈ guardTags cs) : c ∈ cs ∨ c = '\\' := by
  fun_induction guardTags cs with
  | case1 => cases h
  | case2 cs ih =>
    rcases (by simpa using h : c = '<' ∨ c = '\\' ∨ c = '/' ∨ c ∈ guardTags cs)
      with rfl | rfl | rfl | hmem
    · exact .inl (by simp)
    · exact .inr rfl
    · exact .inl (by simp)
    · exact (ih hmem).imp_left fun hc => by simp [hc]
  | case3 d cs _ ih =>
    rcases List.mem_cons.1 h with rfl | hmem
    · exact .inl (by simp)
    · exact (ih hmem).imp_left (List.mem_cons_of_mem _)

/-- No `</` is left in a safe text. -/
theorem not_infix_guardTags (cs : List Char) : ¬ ['<', '/'] <:+: guardTags cs := by
  fun_induction guardTags cs with
  | case1 => simp
  | case2 cs ih => simp [List.infix_cons_iff, ih]
  | case3 c cs hpair ih =>
    rw [List.infix_cons_iff, not_or]
    refine ⟨?_, ih⟩
    rintro ⟨rest, hrest⟩
    obtain ⟨hc, hrest⟩ := List.cons.inj hrest
    have hhead := head?_guardTags cs
    rw [← hrest] at hhead
    cases cs with
    | nil => cases hhead
    | cons d cs => exact hpair cs hc.symm (by rw [Option.some.inj hhead.symm])

/-! ## Strings -/

namespace Json

theorem isHigh_iff {n : Nat} : isHigh n = true ↔ 0xD800 ≤ n ∧ n < 0xDC00 := by
  simp [isHigh]

theorem isLow_iff {n : Nat} : isLow n = true ↔ 0xDC00 ≤ n ∧ n < 0xE000 := by
  simp [isLow]

def unitDigits (n : Nat) : List Char :=
  [(n / 4096).digitChar, (n / 256 % 16).digitChar, (n / 16 % 16).digitChar, (n % 16).digitChar]

private theorem hexDigit?_digitChar : ∀ d < 16, hexDigit? (Nat.digitChar d) = some d := by
  decide

theorem toList_hex {n : Nat} (h : n < 0x10000) : (Text.hex 4 n).toList = unitDigits n := by
  have htwo {n : Nat} (h₁ : 16 ≤ n) (h₂ : n < 256) :
      Nat.toDigits 16 n = [(n / 16).digitChar, (n % 16).digitChar] := by
    rw [Nat.toDigits_of_base_le (by decide) h₁, Nat.toDigits_of_lt_base (by omega)]
    rfl
  have hthree {n : Nat} (h₁ : 256 ≤ n) (h₂ : n < 4096) :
      Nat.toDigits 16 n =
        [(n / 16 / 16).digitChar, (n / 16 % 16).digitChar, (n % 16).digitChar] := by
    rw [Nat.toDigits_of_base_le (by decide) (by omega), htwo (by omega) (by omega)]
    rfl
  have hzero : Nat.digitChar 0 = '0' := rfl
  simp only [Text.hex, String.toList_ofList, unitDigits]
  rcases Nat.lt_or_ge n 16 with h₁ | h₁
  · rw [Nat.toDigits_of_lt_base h₁, show n / 4096 = 0 by omega, show n / 256 % 16 = 0 by omega,
      show n / 16 % 16 = 0 by omega, show n % 16 = n by omega, hzero]
    rfl
  rcases Nat.lt_or_ge n 256 with h₂ | h₂
  · rw [htwo h₁ h₂, show n / 4096 = 0 by omega, show n / 256 % 16 = 0 by omega,
      show n / 16 % 16 = n / 16 by omega, hzero]
    rfl
  rcases Nat.lt_or_ge n 4096 with h₃ | h₃
  · rw [hthree h₂ h₃, show n / 4096 = 0 by omega, show n / 256 % 16 = n / 16 / 16 by omega, hzero]
    rfl
  · rw [Nat.toDigits_of_base_le (by decide) h₁, hthree (by omega) (by omega),
      show n / 4096 = n / 16 / 16 / 16 by omega, show n / 256 % 16 = n / 16 / 16 % 16 by omega]
    rfl

/-- The digits of a unit are read as the unit. -/
theorem unit?_unitDigits {n : Nat} (h : n < 0x10000) :
    unit? (n / 4096).digitChar (n / 256 % 16).digitChar (n / 16 % 16).digitChar
      (n % 16).digitChar = some n := by
  have h₁ := hexDigit?_digitChar (n / 4096) (by omega)
  have h₂ := hexDigit?_digitChar (n / 256 % 16) (by omega)
  have h₃ := hexDigit?_digitChar (n / 16 % 16) (by omega)
  have h₄ := hexDigit?_digitChar (n % 16) (by omega)
  have hsum : 4096 * (n / 4096) + 256 * (n / 256 % 16) + 16 * (n / 16 % 16) + n % 16 = n := by
    omega
  simp [unit?, h₁, h₂, h₃, h₄, hsum]

/-- Where a unit is read there are ASCII characters, and no `<` among them. -/
private theorem ascii_of_unit? {w x y z : Char} {n : Nat} (h : unit? w x y z = some n) :
    ∀ d ∈ [w, x, y, z], d.toNat < 128 ∧ d ≠ '<' := by
  have hhex {d : Char} {n : Nat} (h : hexDigit? d = some n) : d.toNat < 128 ∧ d ≠ '<' := by
    constructor
    · unfold hexDigit? at h
      split at h
      · omega
      split at h
      · omega
      split at h
      · omega
      · cases h
    · rintro rfl
      cases h
  simp only [unit?, Option.bind_eq_bind, Option.bind_eq_some_iff] at h
  obtain ⟨_, hw, _, hx, _, hy, _, hz, -⟩ := h
  simp [hhex hw, hhex hx, hhex hy, hhex hz]

/-- A character stands for itself, or is spelled by ASCII characters behind a backslash, with no
`<` among them. -/
theorem Spells.shape {cs : List Char} {c : Char} (h : Spells cs c) :
    cs = [c] ∧ c ≠ '\\' ∨ cs.head? = some '\\' ∧ ∀ d ∈ cs, d.toNat < 128 ∧ d ≠ '<' := by
  have hmark : ∀ d ∈ ['\\', 'u'], d.toNat < 128 ∧ d ≠ '<' := by simp
  cases h with
  | plain _ hslash _ => exact .inl ⟨rfl, hslash⟩
  | @escape e _ he =>
    refine .inr ⟨rfl, ?_⟩
    have hascii : e.toNat < 128 ∧ e ≠ '<' := by
      unfold escaped? at he
      split at he
      all_goals cases he
      all_goals decide
    simp [hascii]
  | @unit w x y z n hn _ _ =>
    refine .inr ⟨rfl, ?_⟩
    exact List.forall_mem_append.2 ⟨hmark, ascii_of_unit? hn⟩
  | pair hn hn' _ _ =>
    refine .inr ⟨rfl, ?_⟩
    exact List.forall_mem_append.2 ⟨hmark, List.forall_mem_append.2 ⟨ascii_of_unit? hn,
      List.forall_mem_append.2 ⟨hmark, ascii_of_unit? hn'⟩⟩⟩

end Json

namespace Payload

open Json

private theorem toList_unitEscape {n : Nat} (h : n < 0x10000) :
    (unitEscape n).toList = '\\' :: 'u' :: unitDigits n := by
  rw [unitEscape, String.toList_append, toList_hex h]
  rfl

/-- A character within the 16-bit range is read from its own unit, which is no half of a pair. -/
private theorem spells_unitEscape {c : Char} (h : c.toNat < 0x10000) :
    Spells (unitEscape c.toNat).toList c := by
  have hvalid : c.toNat < 0xD800 ∨ 0xDFFF < c.toNat ∧ c.toNat < 0x110000 := c.valid
  have hhigh : isHigh c.toNat = false := by
    rw [Bool.eq_false_iff, ne_eq, isHigh_iff]
    omega
  have hlow : isLow c.toNat = false := by
    rw [Bool.eq_false_iff, ne_eq, isLow_iff]
    omega
  have hspells := Spells.unit (unit?_unitDigits h) hhigh hlow
  rw [Char.ofNat_toNat] at hspells
  rwa [toList_unitEscape h]

/-- A character beyond the 16-bit range is read from its two units. -/
private theorem spells_pair {c : Char} (h : 0x10000 ≤ c.toNat) :
    Spells (unitEscape (0xD800 + (c.toNat - 0x10000) / 0x400) ++
      unitEscape (0xDC00 + (c.toNat - 0x10000) % 0x400)).toList c := by
  have hvalid : c.toNat < 0xD800 ∨ 0xDFFF < c.toNat ∧ c.toNat < 0x110000 := c.valid
  have hhigh : 0xD800 + (c.toNat - 0x10000) / 0x400 < 0x10000 := by omega
  have hlow : 0xDC00 + (c.toNat - 0x10000) % 0x400 < 0x10000 := by omega
  have hspells := Spells.pair (unit?_unitDigits hhigh) (unit?_unitDigits hlow)
    (isHigh_iff.2 (by omega)) (isLow_iff.2 (by omega))
  have hnat : 0x10000 + 0x400 * (0xD800 + (c.toNat - 0x10000) / 0x400 - 0xD800) +
      (0xDC00 + (c.toNat - 0x10000) % 0x400 - 0xDC00) = c.toNat := by omega
  rw [pairChar, hnat, Char.ofNat_toNat] at hspells
  rw [String.toList_append, toList_unitEscape hhigh, toList_unitEscape hlow]
  exact hspells

/-- A character is written so that it is read as itself. -/
theorem spells_escapeChar (c : Char) : Spells (escapeChar c).toList c := by
  have hchar {n : Nat} (h : c.toNat = n) : c = Char.ofNat n := by rw [← h, Char.ofNat_toNat]
  unfold escapeChar
  by_cases hquote : c = '"'
  · rw [if_pos hquote, hquote]
    exact .escape rfl
  rw [if_neg hquote]
  by_cases hslash : c = '\\'
  · rw [if_pos hslash, hslash]
    exact .escape rfl
  rw [if_neg hslash]
  by_cases hfeed : c = '\n'
  · rw [if_pos hfeed, hfeed]
    exact .escape rfl
  rw [if_neg hfeed]
  by_cases hreturn : c = '\r'
  · rw [if_pos hreturn, hreturn]
    exact .escape rfl
  rw [if_neg hreturn]
  by_cases htab : c = '\t'
  · rw [if_pos htab, htab]
    exact .escape rfl
  rw [if_neg htab]
  by_cases hback : c.toNat = 0x08
  · rw [if_pos hback, hchar hback]
    exact .escape rfl
  rw [if_neg hback]
  by_cases hform : c.toNat = 0x0C
  · rw [if_pos hform, hchar hform]
    exact .escape rfl
  rw [if_neg hform]
  by_cases hplain : 0x20 ≤ c.toNat ∧ c.toNat ≤ 0x7E
  · rw [if_pos hplain, String.toList_singleton]
    exact .plain hquote hslash hplain.1
  rw [if_neg hplain]
  by_cases hsmall : c.toNat < 0x10000
  · rw [if_pos hsmall]
    exact spells_unitEscape hsmall
  · rw [if_neg hsmall]
    exact spells_pair (Nat.le_of_not_lt hsmall)

private theorem escapeChar_ne_self {c : Char} (h : 128 ≤ c.toNat) (hslash : c ≠ '\\') :
    (escapeChar c).toList ≠ [c] := by
  intro hself
  have hne {d : Char} (hd : d.toNat < 128) : c ≠ d := by
    rintro rfl
    omega
  have hunit (n : Nat) : (unitEscape n).toList.head? = some '\\' := by
    rw [unitEscape, String.toList_append]
    rfl
  have hhead : (escapeChar c).toList.head? = some '\\' := by
    unfold escapeChar
    rw [if_neg (hne (by decide)), if_neg hslash, if_neg (hne (by decide)), if_neg (hne (by decide)),
      if_neg (hne (by decide)), if_neg (by omega), if_neg (by omega), if_neg (by omega)]
    split
    · exact hunit _
    · rw [String.toList_append, List.head?_append, hunit]
      rfl
  rw [hself] at hhead
  exact hslash (Option.some.inj hhead)

theorem ascii_escapeChar {c d : Char} (h : d ∈ (escapeChar c).toList) : d.toNat < 128 := by
  rcases (spells_escapeChar c).shape with ⟨hself, hslash⟩ | ⟨-, hascii⟩
  · obtain rfl : d = c := by simpa [hself] using h
    rcases Nat.lt_or_ge d.toNat 128 with hsmall | hlarge
    · exact hsmall
    · -- The text of a character beyond ASCII starts with a backslash.
      exact absurd hself (escapeChar_ne_self hlarge hslash)
  · exact (hascii d h).1

theorem guardTags_escapeChar (c : Char) :
    guardTags (escapeChar c).toList = (escapeChar c).toList := by
  rcases (spells_escapeChar c).shape with ⟨hself, -⟩ | ⟨-, hascii⟩
  · rw [hself]
    exact guardTags.eq_3 c [] (by simp)
  · exact guardTags_of_not_mem fun hmem => (hascii _ hmem).2 rfl

/-- The characters inside the JSON string of a text. -/
def body (s : List Char) : List Char := s.flatMap fun c => (escapeChar c).toList

/-- The text of a string starts with a slash only if the string does. -/
private theorem eq_slash_of_mem_head? {s : List Char} (h : '/' ∈ (body s).head?) :
    ∃ rest, s = '/' :: rest := by
  cases s with
  | nil => cases h
  | cons c s =>
    rw [body, List.flatMap_cons, List.head?_append] at h
    rcases (spells_escapeChar c).shape with ⟨hself, -⟩ | ⟨hhead, -⟩
    · obtain rfl : c = '/' := by simpa [hself] using h
      exact ⟨s, rfl⟩
    · simp [hhead] at h

private theorem eq_open_of_mem_getLast? {c : Char} (h : '<' ∈ (escapeChar c).toList.getLast?) :
    c = '<' := by
  rcases (spells_escapeChar c).shape with ⟨hself, -⟩ | ⟨-, hascii⟩
  · simpa [hself] using h
  · exact absurd rfl (hascii _ (List.mem_of_mem_getLast? h)).2

/-- A string is read as its characters, after tags were made safe: only slashes behind `<` change,
and each of them is a character of its own. -/
theorem body_guardTags (s : List Char) : Body (guardTags (body s)) s := by
  induction s using guardTags.induct with
  | case1 => exact .nil
  | case2 s ih =>
    have hopen : Spells ['<'] '<' := .plain (by decide) (by decide) (by decide)
    have hslash : Spells ['\\', '/'] '/' := .escape rfl
    exact .cons hopen (.cons hslash ih)
  | case3 c s hpair ih =>
    have happ : guardTags (body (c :: s)) = (escapeChar c).toList ++ guardTags (body s) := by
      rw [body, List.flatMap_cons, guardTags_append, guardTags_escapeChar]
      · rfl
      · intro hopen hslash
        obtain ⟨rest, hrest⟩ := eq_slash_of_mem_head? hslash
        exact hpair rest (eq_open_of_mem_getLast? hopen) hrest
    rw [happ]
    exact .cons (spells_escapeChar c) ih

theorem toList_jsonString (s : String) :
    (jsonString s).toList = '"' :: (body s.toList ++ ['"']) := by
  simp [jsonString, body, List.flatMap_map]

theorem guardTags_jsonString (s : String) (rest : List Char) :
    guardTags ((jsonString s).toList ++ rest) =
      '"' :: (guardTags (body s.toList) ++ '"' :: guardTags rest) := by
  rw [toList_jsonString, List.cons_append, List.append_assoc, guardTags.eq_3 _ _ (by simp),
    List.cons_append, List.nil_append, guardTags_append_cons (by decide) (by decide)]

theorem ascii_jsonString (s : String) : ∀ c ∈ (jsonString s).toList, c.toNat < 128 := by
  intro c hc
  rw [toList_jsonString] at hc
  have hcases : c = '"' ∨ (∃ d ∈ s.toList, c ∈ (escapeChar d).toList) ∨ c = '"' := by
    simpa [body] using hc
  rcases hcases with rfl | ⟨d, -, hd⟩ | rfl
  · decide
  · exact ascii_escapeChar hd
  · decide

end Payload

end ScoreText
