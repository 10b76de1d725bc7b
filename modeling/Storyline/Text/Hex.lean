/-!
# Storyline.Text.Hex

Whole numbers in hexadecimal digits, filled up with zeros to a width.
-/

namespace Storyline.Text

/-- A number in so many hexadecimal digits, or more if it needs more. -/
def hex (width n : Nat) : List Char :=
  let digits := Nat.toDigits 16 n
  List.replicate (width - digits.length) '0' ++ digits

end Storyline.Text
