import Storyline.Power

/-!
# Storyline.Numeral

Whole numbers as decimal text.  Texts of more than 4300 digits are neither read
nor written: the conversion takes time quadratic in the number of digits, and a
story document is not trusted with that.

A *delta* is the text of a whole number, with or without a sign, in ASCII digits.
-/

namespace Storyline

/-- Why a computation with numbers has no answer. -/
inductive NumberFault
  /-- A text of that many digits is too long to be read. -/
  | unreadable (digits : Nat)
  /-- A whole number is too long to be written. -/
  | unwritable
  /-- A whole number lies past the finite doubles. -/
  | beyondDoubles
deriving DecidableEq, Repr

namespace Numeral

/-- The most digits that are read or written. -/
def digitLimit : Nat := 4300

/-- The first natural number that is too long to be written. -/
def firstUnwritable : Nat := tenTo digitLimit

end Numeral

/-- The wording of a fault. -/
def NumberFault.message : NumberFault → String
  | .unreadable digits =>
    "Exceeds the limit (4300 digits) for integer string conversion: value has "
      ++ Nat.repr digits ++ " digits; use sys.set_int_max_str_digits() to increase the limit"
  | .unwritable =>
    "Exceeds the limit (4300 digits) for integer string conversion; "
      ++ "use sys.set_int_max_str_digits() to increase the limit"
  | .beyondDoubles => "int too large to convert to float"

namespace Numeral

/-! ## Writing -/

/-- The decimal characters of a whole number. -/
def chars (n : Int) : List Char :=
  if n < 0 then '-' :: Nat.toDigits 10 n.natAbs else Nat.toDigits 10 n.natAbs

/-- The decimal text of a whole number that is short enough. -/
def write (n : Int) : Except NumberFault String :=
  if n.natAbs < firstUnwritable then .ok (String.ofList (chars n)) else .error .unwritable

/-! ## Reading -/

/-- The natural number of a run of digits that is short enough. -/
def readDigits (digits : List Char) : Except NumberFault Nat :=
  if digits.length ≤ digitLimit then .ok (Nat.ofDigitChars 10 digits 0)
  else .error (.unreadable digits.length)

/-- Splits a sign off; without one the number is not negative. -/
def splitSign : List Char → Bool × List Char
  | '-' :: rest => (true, rest)
  | '+' :: rest => (false, rest)
  | rest => (false, rest)

/-- A natural number with a sign. -/
def withSign (negative : Bool) (n : Nat) : Int := if negative then -n else n

/-! ## Deltas -/

/-- Whether a text is a delta: an optional sign and at least one ASCII digit. -/
def isDelta (text : String) : Bool :=
  let digits := (splitSign text.toList).2
  !digits.isEmpty && digits.all Char.isDigit

/-- The whole number that a delta denotes. -/
def readDelta (text : String) : Except NumberFault Int :=
  let (negative, digits) := splitSign text.toList
  (readDigits digits).map (withSign negative)

end Numeral

end Storyline
