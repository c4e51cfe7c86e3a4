/-!
Rounding of quotients: to the nearest integer, and to the nearest number with 53 significant
bits. A half goes to the even neighbour.
-/

namespace ScoreText

/-- The integer nearest to `n / d`; of two equally near ones, the even one. -/
def roundDiv (n d : Nat) : Nat :=
  let q := n / d
  let r := n % d
  if 2 * r < d then q
  else if d < 2 * r then q + 1
  else q + q % 2

def significantBits : Nat := 53

/-- The integer nearest to a quotient of at least 1 that is first rounded to 53 significant bits;
none when the rounded quotient reaches `2 ^ 1024`. -/
def roundQuotient? (n d : Nat) : Option Nat :=
  let bits := (n / d).log2 + 1
  let value :=
    if significantBits ≤ bits then
      let unit := Nat.pow 2 (bits - significantBits)
      roundDiv n (d * unit) * unit
    else
      let parts := Nat.pow 2 (significantBits - bits)
      roundDiv (roundDiv (n * parts) d) parts
  if value < Nat.pow 2 1024 then some value else none

end ScoreText
