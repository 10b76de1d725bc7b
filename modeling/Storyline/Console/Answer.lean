import Storyline.Numeral
import Storyline.Text.Blank
import Storyline.Text.DecimalDigit

/-!
# Storyline.Console.Answer

Reading what a player types.  A number may have a sign, zeros in front, and
single underscores between its digits, which may be those of any script.  A
question is asked until a line answers it; each line before that is turned down
with a remark.
-/

namespace Storyline.Console

/-! ## Numbers -/

/-- The values of digits, between which single underscores may stand. -/
def readFigures : List Char → Option (List Nat)
  | [] => none
  | c :: rest =>
    match Text.digitValue? c with
    | none => none
    | some d =>
      match rest with
      | [] => some [d]
      | '_' :: rest => (readFigures rest).map (d :: ·)
      | rest => (readFigures rest).map (d :: ·)

/-- The number of a list of digits. -/
def ofFigures (figures : List Nat) : Nat := figures.foldl (fun n d => 10 * n + d) 0

/-- The number in a line, the blanks around it left aside. -/
def readNumber? (line : String) : Option Int :=
  let (negative, rest) := Numeral.splitSign (Text.trimChars line.toList)
  match readFigures rest with
  | some figures =>
    if figures.length ≤ Numeral.digitLimit then
      some (Numeral.withSign negative (ofFigures figures))
    else none
  | none => none

/-! ## Questions -/

/-- The prompt of every question. -/
def prompt : String := "Select an option: "

/-- What comes of a question: the answer if there was one, the lines that are left,
and what was printed. -/
structure Asked (α : Type) where
  answer : Option α
  left : List String
  printed : String
deriving Repr

/-- Asks until a line is accepted.  Every line that is not is turned down with a
remark; where the lines end there is no answer. -/
def ask {α : Type} (judge : String → Except String α) : List String → Asked α
  | [] => ⟨none, [], prompt⟩
  | line :: rest =>
    match judge line with
    | .ok a => ⟨some a, rest, prompt⟩
    | .error remark =>
      let later := ask judge rest
      ⟨later.answer, later.left, prompt ++ remark ++ "\n" ++ later.printed⟩

/-- The remark on a number that is none of those on offer. -/
def outOfRange (count : Int) : String :=
  "Please enter a value between 1 and " ++ String.ofList (Numeral.chars count) ++ "."

/-- The place, counted from zero, that a line names among so many. -/
def judgePlace (count : Int) (line : String) : Except String Nat :=
  match readNumber? line with
  | none => .error "Please enter a number."
  | some n => if 1 ≤ n ∧ n ≤ count then .ok (n - 1).toNat else .error (outOfRange count)

/-- The item that a line names among items numbered from one. -/
def judgeItem {α : Type} (items : List α) (line : String) : Except String α :=
  match judgePlace items.length line with
  | .error remark => .error remark
  | .ok place =>
    match items[place]? with
    | some item => .ok item
    | none => .error (outOfRange items.length)

end Storyline.Console
