import Storyline.Json.Basic

/-!
# Storyline.Json.Compare

Comparing JSON values.  Numbers compare exactly, and a truth value counts among
them as zero or one.  Strings compare by their characters, arrays by their first
items that differ.  Nothing else has an order; the *clash* of two kinds of values
says so.
-/

namespace Storyline.Json

/-! ## Kinds -/

/-- The kinds of values that messages tell apart. -/
inductive Kind
  | null
  | truth
  | whole
  | double
  | text
  | array
  | object
deriving DecidableEq, Repr

/-- The word for a kind. -/
def Kind.word : Kind → String
  | .null => "NoneType"
  | .truth => "bool"
  | .whole => "int"
  | .double => "float"
  | .text => "str"
  | .array => "list"
  | .object => "dict"

/-- The kind of a value. -/
def kind : Json → Kind
  | .null => .null
  | .bool _ => .truth
  | .number (.int _) => .whole
  | .number (.real _) => .double
  | .string _ => .text
  | .array _ => .array
  | .object _ => .object

/-- Why two values do not go together. -/
inductive Clash
  /-- They have no order. -/
  | compared (left right : Kind)
  /-- They have no sum. -/
  | added (left right : Kind)
  /-- What is joined to an array is none. -/
  | joined (right : Kind)
deriving DecidableEq, Repr

/-- The wording of a clash. -/
def Clash.message : Clash → String
  | .compared left right =>
    "'<' not supported between instances of '" ++ left.word ++ "' and '" ++ right.word ++ "'"
  | .added left right =>
    "unsupported operand type(s) for +: '" ++ left.word ++ "' and '" ++ right.word ++ "'"
  | .joined right => "can only concatenate list (not \"" ++ right.word ++ "\") to list"

/-- The amount that a value counts as, if it counts as one. -/
def amount? : Json → Option Amount
  | .number a => some a
  | .bool b => some (.int (if b then 1 else 0))
  | _ => none

/-! ## Equality of meaning -/

mutual

/-- Whether two values mean the same: amounts by where they stand, objects
whatever the order of their members. -/
def same : Json → Json → Bool
  | .null, .null => true
  | .string a, .string b => a = b
  | .array as, .array bs => sameItems as bs
  | .object as, .object bs => as.length = bs.length && sameMembers as bs
  | a, b =>
    match a.amount?, b.amount? with
    | some a, some b => a.standing = b.standing
    | _, _ => false

/-- Whether two lists of items mean the same. -/
def sameItems : List Json → List Json → Bool
  | [], [] => true
  | a :: as, b :: bs => same a b && sameItems as bs
  | _, _ => false

/-- Whether members mean the same as those of their names among others. -/
def sameMembers : List (String × Json) → List (String × Json) → Bool
  | [], _ => true
  | (name, a) :: as, bs =>
    (match bs.lookup name with
      | some b => same a b
      | none => false) && sameMembers as bs

end

/-! ## Order -/

mutual

/-- Whether a value is less than another. -/
def less : Json → Json → Except Clash Bool
  | .string a, .string b => .ok (decide (a < b))
  | .array as, .array bs => lessItems as bs
  | a, b =>
    match a.amount?, b.amount? with
    | some x, some y => .ok (x.less y)
    | _, _ => .error (.compared a.kind b.kind)

/-- Whether a list of items is less than another: the first items that differ
decide, and if there are none, the lengths. -/
def lessItems : List Json → List Json → Except Clash Bool
  | _, [] => .ok false
  | [], _ :: _ => .ok true
  | a :: as, b :: bs => if same a b then lessItems as bs else less a b

end

/-- Numbers compare as amounts. -/
@[simp] theorem less_number (a b : Amount) : less (.number a) (.number b) = .ok (a.less b) := by
  simp [less, amount?]

end Storyline.Json
