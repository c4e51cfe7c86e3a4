import ScoreText.Text.Blank
import ScoreText.Text.Digit

/-!
Reading integers: blanks around the number, a sign, decimal digits of any script, and a single
underscore between two digits. A number may have at most `maxDigits` digits, where it is read and
where it is written.
-/

namespace ScoreText.Text

/-- The most digits a number may have, leading zeros included. -/
def maxDigits : Nat := 4300

/-- Blanks that may stand around a number: all but the four separators U+001C to U+001F. -/
def isNumberBlank (c : Char) : Bool :=
  isBlank c && !(0x1C ≤ c.toNat && c.toNat ≤ 0x1F)

/-- The digit values of a run in which single underscores may stand between digits. -/
def digitRun? : List Char → Option (List Nat)
  | [] => none
  | [c] => (digit? c).map fun d => [d]
  | c :: d :: rest => do
    let value ← digit? c
    let values ← if d = '_' then digitRun? rest else digitRun? (d :: rest)
    return value :: values

/-- The number with the given digit values, most significant first. -/
def ofDigits (values : List Nat) : Nat := values.foldl (fun n d => 10 * n + d) 0

def natural? (cs : List Char) : Option Nat :=
  (digitRun? cs).bind fun values =>
    if values.length ≤ maxDigits then some (ofDigits values) else none

def signed? : List Char → Option Int
  | '-' :: cs => (natural? cs).map fun n => -(n : Int)
  | '+' :: cs => (natural? cs).map fun n => (n : Int)
  | cs => (natural? cs).map fun n => (n : Int)

def integer? (s : String) : Option Int :=
  signed? (((s.toList.dropWhile isNumberBlank).reverse.dropWhile isNumberBlank).reverse)

/-- Whether a number is short enough to be written; its sign does not count. -/
def isWritable (n : Int) : Bool := (toString n.natAbs).length ≤ maxDigits

inductive NumeralFault
  | tooManyDigits
  deriving DecidableEq, Repr

def NumeralFault.message : NumeralFault → String
  | .tooManyDigits =>
    "Exceeds the limit (4300 digits) for integer string conversion; " ++
      "use sys.set_int_max_str_digits() to increase the limit"

def checkNumerals (numbers : List Int) : Except NumeralFault Unit :=
  if numbers.all isWritable then .ok () else .error .tooManyDigits

/-- What is made after the check is made just if all the numbers can be written. -/
theorem map_checkNumerals_eq_ok_iff {α : Type} {numbers : List Int} {make : Unit → α} {a : α} :
    (checkNumerals numbers).map make = .ok a ↔
      (∀ n ∈ numbers, isWritable n = true) ∧ make () = a := by
  rw [checkNumerals, ← List.all_eq_true]
  split
  · next h => simp [h, Except.map]
  · next h => simp [h, Except.map]

end ScoreText.Text
