import Storyline.Binary64.Notation
import Storyline.Numeral

/-!
# Storyline.Amount

Amounts are what a resource can hold as a number: a whole number of any size or
a double.  Whole numbers add up exactly; as soon as a double is involved the
other amount becomes the nearest double first.  Comparisons never round.
-/

namespace Storyline

/-- A numeric amount. -/
inductive Amount
  /-- A whole number of any size. -/
  | int (n : Int)
  /-- A double. -/
  | real (x : Binary64)
deriving DecidableEq, Repr

namespace Amount

instance : Inhabited Amount := ⟨.int 0⟩

/-! ## Order -/

/-- Where an amount stands on the line. -/
def standing : Amount → Binary64.Standing
  | .int n => .at (n * Binary64.one)
  | .real x => x.standing

/-- Strictly less, compared exactly; nothing is less than NaN or greater. -/
def less (a b : Amount) : Bool := a.standing.before b.standing

/-- Whole numbers compare as such. -/
theorem less_int (a b : Int) : less (.int a) (.int b) = decide (a < b) := by
  have h : (0 : Int) < (Binary64.one : Int) := Int.natCast_pos.2 Binary64.one_pos
  simp only [less, standing, Binary64.Standing.before, decide_eq_decide]
  exact Int.mul_lt_mul_right h

/-! ## Arithmetic -/

/-- The nearest double, if it is a finite one. -/
def toDouble (n : Int) : Except NumberFault Binary64 :=
  match Binary64.ofInt? n with
  | some x => .ok x
  | none => .error .beyondDoubles

/-- The sum of two amounts. -/
def add : Amount → Amount → Except NumberFault Amount
  | .int a, .int b => .ok (.int (a + b))
  | .int a, .real y => (toDouble a).map fun x => .real (x + y)
  | .real x, .int b => (toDouble b).map fun y => .real (x + y)
  | .real x, .real y => .ok (.real (x + y))

@[simp] theorem add_int (a b : Int) : add (.int a) (.int b) = .ok (.int (a + b)) := rfl

/-- The amount with the other sign. -/
def neg : Amount → Amount
  | .int n => .int (-n)
  | .real x => .real (-x)

/-! ## Text -/

/-- The written form of an amount, from which its kind can be told. -/
def text : Amount → Except NumberFault String
  | .int n => Numeral.write n
  | .real x => .ok (x.text Binary64.Spelling.plain)

/-- The amount as a player sees it: a double that is a whole number shows as one. -/
def display : Amount → Except NumberFault String
  | .int n => Numeral.write n
  | .real x =>
    match x.toInt? with
    | some n => Numeral.write n
    | none => .ok (x.text Binary64.Spelling.plain)

end Amount

end Storyline
