import Storyline.Json.Compare
import Storyline.Table

/-!
# Storyline.Resources

What a player holds, by name.  A resource that was never set counts as the whole
number zero.  Stories and saves know two kinds of resources only, amounts and
texts; a host may put any JSON value among them.

Three rules touch them.  A *requirement* asks amounts to reach thresholds.  A
*gain* adds amounts, and spending is a negative gain.  The *assignments* of a
story overwrite, except that a delta such as `"+3"` is added.  A gain and a list
of assignments either succeed as a whole or change nothing.
-/

namespace Storyline

/-! ## Values -/

/-- What a story or a save may put into a resource. -/
inductive Value (τ : Type := String)
  | number (a : Amount)
  | text (s : τ)
deriving DecidableEq, Repr

namespace Value

variable {τ : Type}

instance : Inhabited (Value τ) := ⟨.number default⟩

/-- A value as JSON. -/
def toJson : Value τ → Json τ
  | .number a => .number a
  | .text s => .string s

/-- The value that a JSON value is, if it is a number or a string. -/
def ofJson? : Json τ → Option (Value τ)
  | .number a => some (.number a)
  | .string s => some (.text s)
  | _ => none

@[simp] theorem ofJson?_toJson (v : Value τ) : ofJson? v.toJson = some v := by
  cases v <;> rfl

end Value

/-- Whether a JSON value is a number or a string. -/
def Json.isValue {τ : Type} (j : Json τ) : Bool := (Value.ofJson? j).isSome

@[simp] theorem Value.isValue_toJson {τ : Type} (v : Value τ) : v.toJson.isValue = true := by
  simp [Json.isValue]

/-- The resources of a run. -/
abbrev Resources (τ : Type := String) := Table (Json τ) τ

/-- Why resources are not changed. -/
inductive UpdateFault
  /-- Something is to be added to a text. -/
  | textHeld (name held added : String)
  /-- What is held and what is to be added have no sum. -/
  | clash (fault : Json.Clash)
  /-- A number cannot be computed, read or written. -/
  | number (fault : NumberFault)
deriving DecidableEq, Repr

/-- The wording of a fault. -/
def UpdateFault.message : UpdateFault → String
  | .textHeld name held added =>
    "Resource '" ++ name ++ "' holds text " ++ Text.quoted held ++ "; cannot add " ++ added ++ "."
  | .clash fault => fault.message
  | .number fault => fault.message

namespace Resources

/-- What a resource that was never set counts as. -/
def unset : Json := .number (.int 0)

/-- The value of a resource; zero if it was never set. -/
def value (r : Resources) (name : String) : Json := (r.find? name).getD unset

/-! ## Requirements -/

/-- What a requirement comes to. -/
inductive Verdict
  | met
  | unmet
  /-- A text is held where a threshold is to be reached, which it never does. -/
  | textHeld (name held : String)
deriving DecidableEq, Repr

/-- Judges thresholds one after the other, until one is not reached.  What is held
reaches a threshold unless it is less. -/
def judge (r : Resources) : List (String × Json) → Except Json.Clash Verdict
  | [] => .ok .met
  | (name, threshold) :: rest =>
    match r.value name with
    | .string held => .ok (.textHeld name held)
    | held =>
      match held.less threshold with
      | .ok true => .ok .unmet
      | .ok false => r.judge rest
      | .error clash => .error clash

/-- What a requirement comes to; a missing one is always met. -/
def verdict (r : Resources) : Option (Table Amount) → Except Json.Clash Verdict
  | none => .ok .met
  | some requirement => r.judge (requirement.map Json.number).entries

/-- Whether a requirement is met. -/
def meets (r : Resources) (requirement : Option (Table Amount)) : Except Json.Clash Bool :=
  (r.verdict requirement).map fun verdict => verdict = .met

/-! ## Changes -/

/-- Adds to what is held under a name.  Amounts add up and arrays are joined; to a
text nothing can be added. -/
def plus (name : String) : Json → Json → Except UpdateFault Json
  | .string held, added =>
    match added.plain with
    | .ok shown => .error (.textHeld name held shown)
    | .error fault => .error (.number fault)
  | .array held, .array added => .ok (.array (held ++ added))
  | .array _, added => .error (.clash (.joined added.kind))
  | held, added =>
    match held.amount?, added.amount? with
    | some a, some b => ((a.add b).map .number).mapError .number
    | _, _ => .error (.clash (.added held.kind added.kind))

/-- Numbers add up as amounts. -/
@[simp] theorem plus_number (name : String) (a b : Amount) :
    plus name (.number a) (.number b) = ((a.add b).map .number).mapError .number := rfl

/-- Computes every new value from the resources as they are, and only then stores them. -/
def change {α : Type} (r : Resources) (compute : String → Json → α → Except UpdateFault Json)
    (changes : List (String × α)) : Except UpdateFault Resources := do
  let values ← changes.mapM fun (name, a) => do
    return (name, ← compute name (r.value name) a)
  return r.insertAll values

/-- Adds values, each to the resource of its name. -/
def addAll (r : Resources) (added : List (String × Json)) : Except UpdateFault Resources :=
  r.change plus added

/-- Applies a gain; a missing gain changes nothing. -/
def gain (r : Resources) : Option (Table Amount) → Except UpdateFault Resources
  | none => .ok r
  | some amounts => r.addAll (amounts.map Json.number).entries

/-- The value that an assignment leaves: a delta is added to what is held, all
else takes its place. -/
def assigned (name : String) (held : Json) : Json → Except UpdateFault Json
  | .string s =>
    if Numeral.isDelta s then
      match Numeral.readDelta s with
      | .ok n => plus name held (.number (.int n))
      | .error fault => .error (.number fault)
    else .ok (.string s)
  | j => .ok j

/-- Applies assignments. -/
def assign (r : Resources) (assignments : Table Json) : Except UpdateFault Resources :=
  r.change assigned assignments.entries

/-! ## Showing -/

/-- The characters before the first closing brace and those after it, if one
comes before the end of the line. -/
def splitBrace? : List Char → Option (List Char × List Char)
  | [] => none
  | c :: rest =>
    if c = '\x7d' then some ([], rest)
    else if c = '\n' then none
    else (splitBrace? rest).map fun (name, after) => (c :: name, after)

/-- Fills the placeholders of a template from left to right.  A placeholder runs
from an opening brace to the first closing one on the same line, and what is put
in its place is not looked at again.  The first characters, so many as are told,
belong to a placeholder that is filled already. -/
def fillChars (r : Resources) : Nat → List Char → Except NumberFault (List Char)
  | _, [] => .ok []
  | filled + 1, _ :: rest => fillChars r filled rest
  | 0, c :: rest =>
    match if c = '\x7b' then splitBrace? rest else none with
    | some (name, _) => do
      let shown ← (r.value (String.ofList name)).display
      return shown.toList ++ (← fillChars r (name.length + 1) rest)
    | none => return c :: (← fillChars r 0 rest)

/-- A template with its placeholders filled. -/
def interpolate (r : Resources) (template : String) : Except NumberFault String :=
  (r.fillChars 0 template.toList).map String.ofList

/-- The resources as a JSON object. -/
def toJson {τ : Type} (r : Resources τ) : Json τ := .object r.entries

/-- The resources as messages show them. -/
def shown (r : Resources) : Except NumberFault String := r.toJson.shown

end Resources

end Storyline
