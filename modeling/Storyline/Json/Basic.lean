import Storyline.Amount
import Storyline.Table
import Storyline.Text.Quoted

/-!
# Storyline.Json.Basic

JSON values.  A number is an amount: written with a point or an exponent it is a
double, else a whole number of any size.  The members of an object keep the order
they came in.  Texts are strings unless another type is given for them.

`Json.shown` is the form in which messages show a value, `Json.plain` the one in
which a value stands in a text, and `Json.display` the one that a player sees.
-/

namespace Storyline

/-- A JSON value. -/
inductive Json (τ : Type := String)
  | null
  | bool (b : Bool)
  | number (a : Amount)
  | string (s : τ)
  | array (items : List (Json τ))
  | object (members : List (τ × Json τ))
deriving Repr

namespace Json

variable {τ : Type}

instance : Inhabited (Json τ) := ⟨.null⟩

/-! ## Equality -/

section Equality

variable [DecidableEq τ]

mutual

/-- Whether two values are equal. -/
def decideEq : (a b : Json τ) → Decidable (a = b)
  | .null, .null => .isTrue rfl
  | .bool a, .bool b => decidable_of_iff (a = b) (by simp)
  | .number a, .number b => decidable_of_iff (a = b) (by simp)
  | .string a, .string b => decidable_of_iff (a = b) (by simp)
  | .array a, .array b =>
    have := decideItems a b
    decidable_of_iff (a = b) (by simp)
  | .object a, .object b =>
    have := decideMembers a b
    decidable_of_iff (a = b) (by simp)
  | .null, .bool _ | .null, .number _ | .null, .string _ | .null, .array _ | .null, .object _
  | .bool _, .null | .bool _, .number _ | .bool _, .string _ | .bool _, .array _
  | .bool _, .object _ | .number _, .null | .number _, .bool _ | .number _, .string _
  | .number _, .array _ | .number _, .object _ | .string _, .null | .string _, .bool _
  | .string _, .number _ | .string _, .array _ | .string _, .object _ | .array _, .null
  | .array _, .bool _ | .array _, .number _ | .array _, .string _ | .array _, .object _
  | .object _, .null | .object _, .bool _ | .object _, .number _ | .object _, .string _
  | .object _, .array _ => .isFalse nofun

/-- Whether two lists of items are equal. -/
def decideItems : (a b : List (Json τ)) → Decidable (a = b)
  | [], [] => .isTrue rfl
  | [], _ :: _ | _ :: _, [] => .isFalse nofun
  | a :: as, b :: bs =>
    have := decideEq a b
    have := decideItems as bs
    decidable_of_iff (a = b ∧ as = bs) (by simp)

/-- Whether two lists of members are equal. -/
def decideMembers : (a b : List (τ × Json τ)) → Decidable (a = b)
  | [], [] => .isTrue rfl
  | [], _ :: _ | _ :: _, [] => .isFalse nofun
  | (m, a) :: as, (n, b) :: bs =>
    have := decideEq a b
    have := decideMembers as bs
    decidable_of_iff ((m = n ∧ a = b) ∧ as = bs) (by simp)

end

instance : DecidableEq (Json τ) := decideEq

end Equality

/-! ## Showing -/

/-- Puts a separator between texts. -/
def separated (separator : String) : List (List Char) → List Char
  | [] => []
  | [part] => part
  | part :: rest => part ++ separator.toList ++ separated separator rest

section Showing

variable [Textual τ]

mutual

/-- The characters of a value as messages show it. -/
def showChars : Json τ → Except NumberFault (List Char)
  | .null => .ok "None".toList
  | .bool true => .ok "True".toList
  | .bool false => .ok "False".toList
  | .number a => a.text.map String.toList
  | .string s => .ok (Text.quoted s).toList
  | .array items => do
    let parts ← showItems items
    return '[' :: separated ", " parts ++ [']']
  | .object members => do
    let parts ← showMembers members
    return '\x7b' :: separated ", " parts ++ ['\x7d']

/-- The items of an array as messages show them. -/
def showItems : List (Json τ) → Except NumberFault (List (List Char))
  | [] => .ok []
  | item :: rest => do
    let part ← showChars item
    return part :: (← showItems rest)

/-- The members of an object as messages show them. -/
def showMembers : List (τ × Json τ) → Except NumberFault (List (List Char))
  | [] => .ok []
  | (name, value) :: rest => do
    let part ← showChars value
    return ((Text.quoted name).toList ++ ':' :: ' ' :: part) :: (← showMembers rest)

end

/-- A value as messages show it. -/
def shown (j : Json τ) : Except NumberFault String := (showChars j).map String.ofList

end Showing

/-- A value as it stands in a text: a string is itself. -/
def plain : Json → Except NumberFault String
  | .string s => .ok s
  | j => j.shown

/-- A value as a player sees it: a double that is a whole number shows as one. -/
def display : Json → Except NumberFault String
  | .number a => a.display
  | j => j.plain

end Json

end Storyline
