import ScoreText.Proofs.Ascii

/-!
JSON texts and the values that they denote, by the grammar of the standard: white space may stand
around every value, a string may spell its characters in several ways, and a number has an exact
value. A surrogate that stands alone spells no character.
-/

namespace ScoreText

/-- A JSON value. The members of an object keep their order. -/
inductive JsonValue
  | null
  | bool (b : Bool)
  | number (q : Rat)
  | string (s : String)
  | array (items : List JsonValue)
  | object (members : List (String × JsonValue))

namespace Json

/-! ## White space, strings and numbers -/

def isSpace (c : Char) : Bool := c = ' ' || c = '\t' || c = '\n' || c = '\r'

def hexDigit? (c : Char) : Option Nat :=
  if 48 ≤ c.toNat ∧ c.toNat ≤ 57 then some (c.toNat - 48)
  else if 97 ≤ c.toNat ∧ c.toNat ≤ 102 then some (c.toNat - 87)
  else if 65 ≤ c.toNat ∧ c.toNat ≤ 70 then some (c.toNat - 55)
  else none

/-- The 16-bit unit that four hexadecimal digits spell. -/
def unit? (a b c d : Char) : Option Nat := do
  return 4096 * (← hexDigit? a) + 256 * (← hexDigit? b) + 16 * (← hexDigit? c) + (← hexDigit? d)

/-- The character that a letter stands for behind a backslash. -/
def escaped? : Char → Option Char
  | '"' => some '"'
  | '\\' => some '\\'
  | '/' => some '/'
  | 'b' => some '\x08'
  | 'f' => some '\x0c'
  | 'n' => some '\n'
  | 'r' => some '\r'
  | 't' => some '\t'
  | _ => none

def isHigh (n : Nat) : Bool := 0xD800 ≤ n && n < 0xDC00
def isLow (n : Nat) : Bool := 0xDC00 ≤ n && n < 0xE000

def pairChar (high low : Nat) : Char :=
  Char.ofNat (0x10000 + 0x400 * (high - 0xD800) + (low - 0xDC00))

/-- `Spells cs c`: inside a string, `cs` is a way to write the character `c`. -/
inductive Spells : List Char → Char → Prop
  | plain {c : Char} : c ≠ '"' → c ≠ '\\' → 0x20 ≤ c.toNat → Spells [c] c
  | escape {e c : Char} : escaped? e = some c → Spells ['\\', e] c
  | unit {w x y z : Char} {n : Nat} :
      unit? w x y z = some n → isHigh n = false → isLow n = false →
      Spells ['\\', 'u', w, x, y, z] (Char.ofNat n)
  | pair {w x y z w' x' y' z' : Char} {high low : Nat} :
      unit? w x y z = some high → unit? w' x' y' z' = some low → isHigh high = true →
      isLow low = true →
      Spells ['\\', 'u', w, x, y, z, '\\', 'u', w', x', y', z'] (pairChar high low)

/-- `Body cs s`: between quotes, `cs` is a way to write the characters `s`. -/
inductive Body : List Char → List Char → Prop
  | nil : Body [] []
  | cons {cs rest : List Char} {c : Char} {s : List Char} :
      Spells cs c → Body rest s → Body (cs ++ rest) (c :: s)

structure Exponent where
  letter : Char
  sign : List Char
  digits : List Char

/-- The parts of a number. Without digits behind it there is no point. -/
structure Numeral where
  negative : Bool
  whole : List Char
  fraction : List Char
  exponent : Option Exponent

namespace Exponent

structure WellFormed (e : Exponent) : Prop where
  letter : e.letter = 'e' ∨ e.letter = 'E'
  sign : e.sign = [] ∨ e.sign = ['+'] ∨ e.sign = ['-']
  nonempty : e.digits ≠ []
  digits : ∀ c ∈ e.digits, c.isDigit = true

def text (e : Exponent) : List Char := e.letter :: (e.sign ++ e.digits)

def value (e : Exponent) : Int :=
  if e.sign = ['-'] then -(Text.decimal e.digits : Int) else Text.decimal e.digits

end Exponent

namespace Numeral

/-- A number as the grammar wants it: without superfluous zeros in front. -/
structure WellFormed (n : Numeral) : Prop where
  nonempty : n.whole ≠ []
  noZero : n.whole.head? = some '0' → n.whole = ['0']
  whole : ∀ c ∈ n.whole, c.isDigit = true
  fraction : ∀ c ∈ n.fraction, c.isDigit = true
  exponent : ∀ e, n.exponent = some e → e.WellFormed

def fractionText (n : Numeral) : List Char := if n.fraction = [] then [] else '.' :: n.fraction

def exponentText (n : Numeral) : List Char := (n.exponent.map Exponent.text).getD []

def text (n : Numeral) : List Char :=
  (if n.negative then ['-'] else []) ++ (n.whole ++ (n.fractionText ++ n.exponentText))

def value (n : Numeral) : Rat :=
  (if n.negative then -1 else 1) * (Text.decimal (n.whole ++ n.fraction) : Nat) *
    10 ^ ((n.exponent.map Exponent.value).getD 0 - (n.fraction.length : Int))

end Numeral

/-! ## Values -/

/-- A value at its place in a text, with the white space around it. -/
structure Slot where
  before : List Char
  text : List Char
  after : List Char
  value : JsonValue

/-- A member at its place in an object: its name, with the white space around it, and its
value. -/
structure Member where
  before : List Char
  nameText : List Char
  after : List Char
  name : List Char
  slot : Slot

def Slot.padded (x : Slot) : List Char := x.before ++ (x.text ++ x.after)

def Slot.Spaced (x : Slot) : Prop :=
  (∀ c ∈ x.before, isSpace c = true) ∧ ∀ c ∈ x.after, isSpace c = true

def Member.padded (m : Member) : List Char :=
  m.before ++ ('"' :: m.nameText ++ '"' :: m.after ++ ':' :: m.slot.padded)

structure Member.Named (m : Member) : Prop where
  before : ∀ c ∈ m.before, isSpace c = true
  after : ∀ c ∈ m.after, isSpace c = true
  name : Body m.nameText m.name
  slot : m.slot.Spaced

def Member.value (m : Member) : String × JsonValue := (String.ofList m.name, m.slot.value)

/-- `Denotes cs v`: the text `cs`, without white space around it, denotes the value `v`. -/
inductive Denotes : List Char → JsonValue → Prop
  | nullName : Denotes ['n', 'u', 'l', 'l'] .null
  | trueName : Denotes ['t', 'r', 'u', 'e'] (.bool true)
  | falseName : Denotes ['f', 'a', 'l', 's', 'e'] (.bool false)
  | number {n : Numeral} : n.WellFormed → Denotes n.text (.number n.value)
  | string {cs s : List Char} : Body cs s → Denotes ('"' :: (cs ++ ['"'])) (.string (.ofList s))
  | emptyArray {w : List Char} : (∀ c ∈ w, isSpace c = true) →
      Denotes ('[' :: (w ++ [']'])) (.array [])
  | array {items : List Slot} : items ≠ [] → (∀ x ∈ items, x.Spaced) →
      (∀ x ∈ items, Denotes x.text x.value) →
      Denotes ('[' :: ([','].intercalate (items.map Slot.padded) ++ [']']))
        (.array (items.map Slot.value))
  | emptyObject {w : List Char} : (∀ c ∈ w, isSpace c = true) →
      Denotes ('{' :: (w ++ ['}'])) (.object [])
  | object {members : List Member} : members ≠ [] → (∀ m ∈ members, m.Named) →
      (∀ m ∈ members, Denotes m.slot.text m.slot.value) →
      Denotes ('{' :: ([','].intercalate (members.map Member.padded) ++ ['}']))
        (.object (members.map Member.value))

/-- `IsText cs v`: the JSON text `cs` denotes the value `v`. -/
def IsText (cs : List Char) (v : JsonValue) : Prop :=
  ∃ x : Slot, x.Spaced ∧ Denotes x.text x.value ∧ x.padded = cs ∧ x.value = v

/-- A separator between each two stands in front of all but the first. -/
theorem intercalate_cons {sep : Char} (x : List Char) (xs : List (List Char)) :
    [sep].intercalate (x :: xs) = x ++ xs.flatMap (sep :: ·) := by
  induction xs generalizing x with
  | nil => simp
  | cons y ys ih =>
    rw [List.intercalate_cons_cons, ih, List.flatMap_cons, List.append_assoc]
    rfl

end Json

end ScoreText
