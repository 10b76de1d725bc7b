import Storyline.Power

/-!
# Storyline.Binary64.Basic

Double-precision numbers as data.  The finite magnitudes are numbered in
increasing order, from `0` for zero up to the largest one, so a finite double is
a sign and a *rank*; next to them stand the two infinities and one NaN.

Each finite magnitude is a whole number of *units*, the least positive double
`2 ^ -1074`.  With that everything is exact arithmetic on whole numbers: a sum
or a quotient is computed exactly and then brought to the nearest rank, a half
going to the even one.
-/

namespace Storyline

/-- The number of ranks in a binade. -/
def Binary64.binade : Nat := twoTo 52

/-- The first rank past the finite magnitudes: there are `2047` binades of them. -/
def Binary64.infinityRank : Nat := 2047 * binade

/-- A double-precision number. -/
inductive Binary64
  /-- What is no number. -/
  | nan
  /-- An infinity. -/
  | infinity (negative : Bool)
  /-- A finite number, by its sign and the rank of its magnitude. -/
  | finite (negative : Bool) (rank : Fin Binary64.infinityRank)
deriving DecidableEq, Repr

namespace Binary64

/-! ## Ranks and units -/

/-- How many times the units of a rank's binade are doubled. -/
def scale (rank : Nat) : Nat := rank / binade - 1

/-- The whole number that the binade's unit is multiplied by. -/
def significand (rank : Nat) : Nat := rank - scale rank * binade

/-- The magnitude of a rank in units of `2 ^ -1074`. -/
def units (rank : Nat) : Nat := significand rank * twoTo (scale rank)

/-- How often a unit has to be doubled to make one. -/
def unitDoublings : Nat := 1074

/-- The units that make one. -/
def one : Nat := twoTo unitDoublings

theorem one_pos : 0 < one := twoTo_pos unitDoublings

/-- The whole number nearest to a quotient, a half going to the even neighbour. -/
def nearestQuotient (n d : Nat) : Nat :=
  if 2 * (n % d) < d ∨ 2 * (n % d) = d ∧ n / d % 2 = 0 then n / d else n / d + 1

/-- The rank nearest to `n / d` units.  The binade is found from the whole part;
rounding up at its end gives the first rank of the next one. -/
def nearestRank (n d : Nat) : Nat :=
  let scale := (n / d).log2 - 52
  scale * binade + nearestQuotient n (d * twoTo scale)

/-- The double nearest to `n / d` units; past the largest finite one it is infinite. -/
def nearest (negative : Bool) (n d : Nat) : Binary64 :=
  if h : nearestRank n d < infinityRank then .finite negative ⟨nearestRank n d, h⟩
  else .infinity negative

/-- The positive zero. -/
def zero : Binary64 := .finite false ⟨0, by decide⟩

instance : Inhabited Binary64 := ⟨zero⟩

/-! ## Standing on the line -/

/-- Where a number stands on the line: nowhere, past one of the ends, or at an
exact number of units. -/
inductive Standing
  | nowhere
  | below
  | at (units : Int)
  | above
deriving DecidableEq, Repr

/-- Strictly to the left; what stands nowhere is on no side of anything. -/
def Standing.before : Standing → Standing → Bool
  | .at a, .at b => decide (a < b)
  | .below, .at _ | .below, .above | .at _, .above => true
  | _, _ => false

/-- A magnitude with its sign. -/
def signed (negative : Bool) (n : Nat) : Int := if negative then -n else n

/-- Where a double stands. -/
def standing : Binary64 → Standing
  | .nan => .nowhere
  | .infinity true => .below
  | .infinity false => .above
  | .finite negative rank => .at (signed negative (units rank))

/-! ## Arithmetic -/

/-- The same magnitude with the other sign. -/
def neg : Binary64 → Binary64
  | .nan => .nan
  | .infinity negative => .infinity (!negative)
  | .finite negative rank => .finite (!negative) rank

instance : Neg Binary64 := ⟨neg⟩

/-- The exact sum brought to the nearest double.  An exact zero is positive
unless both numbers are negative. -/
def add : Binary64 → Binary64 → Binary64
  | .nan, _ | _, .nan => .nan
  | .infinity a, .infinity b => if a = b then .infinity a else .nan
  | .infinity a, .finite _ _ => .infinity a
  | .finite _ _, .infinity b => .infinity b
  | .finite a r, .finite b s =>
    let sum := signed a (units r) + signed b (units s)
    if sum = 0 then nearest (a && b) 0 1 else nearest (decide (sum < 0)) sum.natAbs 1

instance : Add Binary64 := ⟨add⟩

/-- The double nearest to a whole number, unless that is past the finite ones. -/
def ofInt? (n : Int) : Option Binary64 :=
  match nearest (decide (n < 0)) (n.natAbs * one) 1 with
  | .finite negative rank => some (.finite negative rank)
  | _ => none

/-- The whole number that a double is, if it is one. -/
def toInt? : Binary64 → Option Int
  | .finite negative rank =>
    if units rank % one = 0 then some (signed negative (units rank / one)) else none
  | _ => none

/-! ## Decimals -/

/-- The number of decimal digits of a whole number; none for zero. -/
def digitCount (n : Nat) : Nat := if n = 0 then 0 else (Nat.toDigits 10 n).length

/-- The double nearest to `coefficient * 10 ^ exponent`.  Far outside the range
of doubles the answer is known from the number of digits alone. -/
def ofDecimal (negative : Bool) (coefficient : Nat) (exponent : Int) : Binary64 :=
  let magnitude := (digitCount coefficient : Int) + exponent
  if coefficient = 0 ∨ magnitude < -400 then nearest negative 0 1
  else if magnitude > 400 then .infinity negative
  else
    nearest negative (coefficient * tenTo exponent.toNat * one) (tenTo (-exponent).toNat)

end Binary64

end Storyline
