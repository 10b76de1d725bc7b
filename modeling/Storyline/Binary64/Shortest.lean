import Storyline.Binary64.Basic

/-!
# Storyline.Binary64.Shortest

The shortest decimal of a double: of all decimals that read back as the number,
one with the fewest digits, and of those the nearest.

A decimal is a coefficient and a power of ten.  For one digit, two digits, and so
on to seventeen, the two decimals of that many digits next to the number are
tried, the nearer first; the first that reads back is taken.  Should none read
back, the exact decimal expansion is, and that one always does.
-/

namespace Storyline

/-- The number `coefficient * 10 ^ exponent`. -/
structure Decimal where
  coefficient : Nat
  exponent : Int
deriving DecidableEq, Repr

namespace Decimal

/-- Takes at most so many zeros off the end of a coefficient. -/
def trimUpTo : Nat → Nat → Int → Decimal
  | 0, coefficient, exponent => ⟨coefficient, exponent⟩
  | most + 1, coefficient, exponent =>
    if coefficient % 10 = 0 then trimUpTo most (coefficient / 10) (exponent + 1)
    else ⟨coefficient, exponent⟩

/-- The same number with a coefficient that does not end in zero. -/
def trim (d : Decimal) : Decimal :=
  trimUpTo (Binary64.digitCount d.coefficient) d.coefficient d.exponent

/-- The digits of the coefficient. -/
def digits (d : Decimal) : List Char := Nat.toDigits 10 d.coefficient

end Decimal

namespace Binary64

/-- Whether a decimal reads back as the finite double of a rank. -/
def readsBack (rank : Nat) (d : Decimal) : Bool :=
  match ofDecimal false d.coefficient d.exponent with
  | .finite false r => r.val == rank
  | _ => false

/-- The power of ten of the first digit of a magnitude above zero.  No magnitude
is so small that its first digit lies below the power `-324`. -/
def leadingPower (rank : Nat) : Int :=
  (digitCount (units rank * tenTo 324 / one) : Int) - 1 - 324

/-- The two decimals of so many digits next to a magnitude, the nearer one first
and of two equally near ones the even one. -/
def neighbours (rank digits : Nat) : List Decimal :=
  let power := leadingPower rank - digits + 1
  let n := units rank * tenTo (-power).toNat
  let d := one * tenTo power.toNat
  let near := nearestQuotient n d
  let far := if near = n / d then n / d + 1 else n / d
  [⟨near, power⟩, ⟨far, power⟩]

/-- All decimal digits of a magnitude: a unit is `5 ^ 1074` times `10 ^ -1074`. -/
def expansion (rank : Nat) : Decimal := ⟨units rank * Nat.pow 5 1074, -1074⟩

/-- The shortest decimal that reads back as the finite double of a rank. -/
def shortest (rank : Nat) : Decimal :=
  let candidates := (List.range 17).flatMap fun i => neighbours rank (i + 1)
  ((candidates.find? (readsBack rank)).getD (expansion rank)).trim

end Binary64

end Storyline
