import Storyline.Binary64.Shortest

/-!
# Storyline.Binary64.Notation

The written form of a double: its shortest decimal, positional while the first
digit lies between the powers `-4` and `15` and with an exponent outside of
that.  The positional form always has a point, so a double never looks like an
integer.
-/

namespace Storyline.Binary64

/-- The spelling of what has no digits. -/
structure Spelling where
  /-- The word for what is no number. -/
  nan : String
  /-- The word for the positive infinity. -/
  infinity : String
deriving DecidableEq, Repr

/-- The words for display. -/
def Spelling.plain : Spelling := ⟨"nan", "inf"⟩

/-- Writes digits with a point: `leading` is the power of ten of the first digit. -/
def positional (digits : List Char) (leading : Int) : List Char :=
  if leading < 0 then
    '0' :: '.' :: List.replicate (-leading - 1).toNat '0' ++ digits
  else
    let whole := leading.toNat + 1
    if digits.length ≤ whole then
      digits ++ List.replicate (whole - digits.length) '0' ++ ['.', '0']
    else digits.take whole ++ '.' :: digits.drop whole

/-- Writes digits with an exponent of at least two figures. -/
def scientific (digits : List Char) (leading : Int) : List Char :=
  let fraction := match digits.drop 1 with
    | [] => []
    | rest => '.' :: rest
  let sign := if leading < 0 then '-' else '+'
  let figures := Nat.toDigits 10 leading.natAbs
  digits.take 1 ++ fraction ++ 'e' :: sign :: List.replicate (2 - figures.length) '0' ++ figures

/-- Writes a decimal above zero. -/
def writeDecimal (d : Decimal) : List Char :=
  let leading := d.exponent + d.digits.length - 1
  if -4 ≤ leading ∧ leading < 16 then positional d.digits leading
  else scientific d.digits leading

/-- The characters of a magnitude. -/
def writeRank (rank : Nat) : List Char :=
  if rank = 0 then ['0', '.', '0'] else writeDecimal (shortest rank)

/-- The written form of a double. -/
def text (spelling : Spelling) : Binary64 → String
  | .nan => spelling.nan
  | .infinity true => "-" ++ spelling.infinity
  | .infinity false => spelling.infinity
  | .finite true rank => String.ofList ('-' :: writeRank rank)
  | .finite false rank => String.ofList (writeRank rank)

end Storyline.Binary64
