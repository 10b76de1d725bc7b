import Storyline.Json.Basic
import Storyline.Json.Text
import Storyline.Sorted

/-!
# Storyline.Json.Writer

Writing JSON text in one line, in ASCII, with the members of every object in the
order of their names' code points.  Equal tables have one text, in whatever order
their names came in.
-/

namespace Storyline.Json

/-- The words for what has no digits. -/
def numberSpelling : Binary64.Spelling := ⟨"NaN", "Infinity"⟩

/-- The text of a number. -/
def writeAmount : Amount → Except NumberFault String
  | .int n => Numeral.write n
  | .real x => .ok (x.text numberSpelling)

variable {τ : Type} [Textual τ]

/-- A member of an object: its name, a colon and the text of its value. -/
def writeMember (member : τ × List Char) : List Char :=
  writeString member.1 ++ ':' :: ' ' :: member.2

mutual

/-- The characters of a value. -/
def writeChars : Json τ → Except NumberFault (List Char)
  | .null => .ok "null".toList
  | .bool true => .ok "true".toList
  | .bool false => .ok "false".toList
  | .number a => (writeAmount a).map String.toList
  | .string s => .ok (writeString s)
  | .array items => do
    let parts ← writeItems items
    return '[' :: separated ", " parts ++ [']']
  | .object members => do
    let parts ← writeMembers members
    return '\x7b' :: separated ", " ((sortBy (fun part => wide part.1) parts).map writeMember) ++
      ['\x7d']

/-- The texts of the items of an array. -/
def writeItems : List (Json τ) → Except NumberFault (List (List Char))
  | [] => .ok []
  | item :: rest => do
    let part ← writeChars item
    return part :: (← writeItems rest)

/-- The texts of the values of an object, by their names. -/
def writeMembers : List (τ × Json τ) → Except NumberFault (List (τ × List Char))
  | [] => .ok []
  | (name, value) :: rest => do
    let part ← writeChars value
    return (name, part) :: (← writeMembers rest)

end

/-- Writes a JSON text. -/
def write (j : Json τ) : Except NumberFault String := (writeChars j).map String.ofList

end Storyline.Json
