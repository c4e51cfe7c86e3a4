/-!
Hexadecimal numerals with lower-case digits.
-/

namespace ScoreText.Text

/-- The hexadecimal numeral of a number, padded with zeros to a least width. -/
def hex (width n : Nat) : String :=
  let digits := Nat.toDigits 16 n
  String.ofList (List.replicate (width - digits.length) '0' ++ digits)

end ScoreText.Text
