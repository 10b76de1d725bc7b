import Storyline.Proofs.Binary64.Shortest
import Storyline.Proofs.Json.Writable

/-!
# Storyline.Proofs.Amount

What amounts cannot do.  A whole number that is too long has no text, and one that has no
nearest double cannot be added to a double.  Nothing else about amounts fails.
-/

namespace Storyline

namespace Amount

/-- Whether two amounts are out of each other's reach: one is a double, and the other a whole
number that has no nearest double. -/
def OutOfReach : Amount → Amount → Prop
  | .int n, .real _ | .real _, .int n => Binary64.ofInt? n = none
  | .int _, .int _ | .real _, .real _ => False

/-- Opened before it is applied: what the nearest double is must not be computed here. -/
theorem toDouble_eq : toDouble = fun n =>
    match Binary64.ofInt? n with
    | some x => .ok x
    | none => .error .beyondDoubles := by
  delta toDouble
  rfl

theorem toDouble_cases (n : Int) :
    Binary64.ofInt? n = none ∧ toDouble n = .error .beyondDoubles ∨
      Binary64.ofInt? n ≠ none ∧ ∃ x, toDouble n = .ok x := by
  rw [toDouble_eq]
  dsimp only
  generalize Binary64.ofInt? n = nearest
  cases nearest with
  | none => exact .inl ⟨rfl, rfl⟩
  | some x => exact .inr ⟨nofun, x, rfl⟩

/-- Two amounts have a sum unless they are out of each other's reach. -/
theorem add_cases (a b : Amount) :
    a.OutOfReach b ∧ a.add b = .error .beyondDoubles ∨
      ¬a.OutOfReach b ∧ ∃ c, a.add b = .ok c := by
  cases a with
  | int n =>
    cases b with
    | int m => exact .inr ⟨id, _, rfl⟩
    | real y =>
      obtain ⟨h, hn⟩ | ⟨h, x, hn⟩ := toDouble_cases n
      · exact .inl ⟨h, by rw [add, hn]; rfl⟩
      · exact .inr ⟨h, _, by rw [add, hn]; rfl⟩
  | real x =>
    cases b with
    | int m =>
      obtain ⟨h, hm⟩ | ⟨h, y, hm⟩ := toDouble_cases m
      · exact .inl ⟨h, by rw [add, hm]; rfl⟩
      · exact .inr ⟨h, _, by rw [add, hm]; rfl⟩
    | real y => exact .inr ⟨id, _, rfl⟩

/-- A double that is a whole number is a short one. -/
theorem lt_of_toInt? {x : Binary64} {n : Int} (h : x.toInt? = some n) :
    n.natAbs < Numeral.firstUnwritable := by
  cases x with
  | finite negative rank =>
    rw [Binary64.toInt?] at h
    split at h
    · cases h
      have hunits : Binary64.units rank / Binary64.one < twoTo 1024 := by
        refine Nat.div_lt_of_lt_mul ?_
        rw [Binary64.one, ← twoTo_add]
        exact Binary64.units_lt rank
      rw [Binary64.natAbs_signed]
      calc Binary64.units rank / Binary64.one < twoTo 1024 := hunits
        _ ≤ tenTo 1024 := twoTo_le_tenTo 1024
        _ ≤ Numeral.firstUnwritable := tenTo_le (by decide)
    · cases h
  | _ => cases h

theorem write_cases (n : Int) :
    ¬Json.Writable (.number (.int n) : Json) ∧ Numeral.write n = .error .unwritable ∨
      Json.Writable (.number (.int n) : Json) ∧ ∃ shown, Numeral.write n = .ok shown := by
  have hshort : Json.Writable (.number (.int n) : Json) ↔ n.natAbs < Numeral.firstUnwritable :=
    Json.writable_number.trans ⟨fun h => h n rfl, fun h m hm => by cases hm; exact h⟩
  rw [hshort, Numeral.write]
  split
  · next h => exact .inr ⟨h, _, rfl⟩
  · next h => exact .inl ⟨h, rfl⟩

/-- A double can be written. -/
theorem writable_real (x : Binary64) : Json.Writable (.number (.real x) : Json) :=
  Json.writable_number.2 nofun

/-- An amount is shown if it can be written. -/
theorem display_cases (a : Amount) :
    ¬Json.Writable (.number a : Json) ∧ a.display = .error .unwritable ∨
      Json.Writable (.number a : Json) ∧ ∃ shown, a.display = .ok shown := by
  cases a with
  | int n => exact write_cases n
  | real x =>
    refine .inr ⟨writable_real x, ?_⟩
    rw [display]
    split
    · next n hn => exact ⟨_, Numeral.write_of_lt (lt_of_toInt? hn)⟩
    · exact ⟨_, rfl⟩

theorem text_cases (a : Amount) :
    ¬Json.Writable (.number a : Json) ∧ a.text = .error .unwritable ∨
      Json.Writable (.number a : Json) ∧ ∃ text, a.text = .ok text := by
  cases a with
  | int n => exact write_cases n
  | real x => exact .inr ⟨writable_real x, _, rfl⟩

/-- Messages show an amount by its text. -/
theorem plain_number (a : Amount) : Json.plain (.number a) = a.text := by
  have hplain : Json.plain (.number a) = (a.text.map String.toList).map String.ofList := rfl
  rw [hplain]
  cases a.text with
  | error fault => rfl
  | ok text => exact congrArg Except.ok String.ofList_toList

theorem writable_neg {a : Amount} :
    Json.Writable (.number a.neg : Json) ↔ Json.Writable (.number a : Json) := by
  cases a with
  | real x => exact iff_of_true (writable_real _) (writable_real x)
  | int n =>
    rw [neg, Json.writable_number, Json.writable_number]
    simp only [int.injEq, forall_eq', Int.natAbs_neg]

end Amount

end Storyline
