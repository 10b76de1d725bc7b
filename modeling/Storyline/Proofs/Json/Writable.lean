import Storyline.Proofs.Json.Inherited
import Storyline.Proofs.Json.Writer

/-!
# Storyline.Proofs.Json.Writable

What is read can be written and shown.  Only a whole number of too many digits keeps a value
from being written or shown, and the reader turns such a number down.
-/

namespace Storyline.Json

variable {τ : Type} [Textual τ]

/-- Whether a value has a text. -/
def Writable (j : Json τ) : Prop := ∃ cs, writeChars j = .ok cs

theorem Writable.write {j : Json τ} (h : j.Writable) : ∃ text, j.write = .ok text := by
  obtain ⟨cs, hcs⟩ := h
  exact ⟨String.ofList cs, map_ok_iff.2 ⟨cs, hcs, rfl⟩⟩

/-- A number can be written unless it is a whole number that is too long. -/
theorem writable_number {a : Amount} :
    Writable (.number a : Json τ) ↔ ∀ n, a = .int n → n.natAbs < Numeral.firstUnwritable := by
  constructor
  · rintro ⟨cs, h⟩ n rfl
    rw [writeChars] at h
    obtain ⟨text, htext, -⟩ := map_ok_iff.1 h
    rw [writeAmount] at htext
    exact (Numeral.write_ok htext).2
  · intro h
    cases a with
    | real x => exact ⟨_, rfl⟩
    | int n =>
      rw [Writable, writeChars, writeAmount, Numeral.write_of_lt (h n rfl)]
      exact ⟨_, rfl⟩

theorem writable_string (s : τ) : Writable (.string s) := ⟨writeString s, rfl⟩

/-- An array can be written if its items can. -/
theorem writable_array {items : List (Json τ)} (each : ∀ item ∈ items, Writable item) :
    Writable (.array items) := by
  have hitems : ∃ parts, writeItems items = .ok parts := by
    induction items with
    | nil => exact ⟨[], rfl⟩
    | cons item rest ih =>
      obtain ⟨⟨part, hpart⟩, hrest⟩ := List.forall_mem_cons.1 each
      obtain ⟨parts, hparts⟩ := ih hrest
      exact ⟨part :: parts, bind_ok_iff.2 ⟨part, hpart, bind_ok_iff.2 ⟨parts, hparts, rfl⟩⟩⟩
  obtain ⟨parts, hparts⟩ := hitems
  exact ⟨_, bind_ok_iff.2 ⟨parts, hparts, rfl⟩⟩

theorem exists_writeMembers_iff {members : List (τ × Json τ)} :
    (∃ parts, writeMembers members = .ok parts) ↔ ∀ e ∈ members, Writable e.2 := by
  induction members with
  | nil => exact ⟨fun _ => List.forall_mem_nil _, fun _ => ⟨[], rfl⟩⟩
  | cons e rest ih =>
    rw [List.forall_mem_cons, ← ih]
    constructor
    · rintro ⟨parts, h⟩
      obtain ⟨part, others, hpart, hothers, -⟩ := writeMembers_cons_ok h
      exact ⟨⟨part, hpart⟩, others, hothers⟩
    · rintro ⟨⟨part, hpart⟩, others, hothers⟩
      exact ⟨_, bind_ok_iff.2 ⟨part, hpart, bind_ok_iff.2 ⟨others, hothers, rfl⟩⟩⟩

/-- An object can be written just if its values can. -/
theorem writable_object {members : List (τ × Json τ)} :
    Writable (.object members) ↔ ∀ e ∈ members, Writable e.2 := by
  rw [← exists_writeMembers_iff]
  constructor
  · rintro ⟨cs, h⟩
    obtain ⟨parts, hparts, -⟩ := bind_ok_iff.1 h
    exact ⟨parts, hparts⟩
  · rintro ⟨parts, hparts⟩
    exact ⟨_, bind_ok_iff.2 ⟨parts, hparts, rfl⟩⟩

/-! ## Showing -/

theorem exists_shown_amount {a : Amount} {text : String} (h : writeAmount a = .ok text) :
    ∃ shown, a.text = .ok shown := by
  cases a with
  | int n => exact ⟨text, h⟩
  | real x => exact ⟨_, rfl⟩

mutual

/-- What can be written can be shown. -/
theorem exists_showChars : ∀ {j : Json τ}, (∃ cs, writeChars j = .ok cs) →
    ∃ cs, showChars j = .ok cs
  | .null, _ => ⟨_, rfl⟩
  | .bool true, _ => ⟨_, rfl⟩
  | .bool false, _ => ⟨_, rfl⟩
  | .string _, _ => ⟨_, rfl⟩
  | .number a, h => by
    obtain ⟨cs, h⟩ := h
    obtain ⟨text, htext, -⟩ := map_ok_iff.1 h
    obtain ⟨shown, hshown⟩ := exists_shown_amount htext
    exact ⟨shown.toList, map_ok_iff.2 ⟨shown, hshown, rfl⟩⟩
  | .array items, h => by
    obtain ⟨cs, h⟩ := h
    obtain ⟨parts, hparts, -⟩ := bind_ok_iff.1 h
    obtain ⟨shown, hshown⟩ := exists_showItems ⟨parts, hparts⟩
    exact ⟨_, bind_ok_iff.2 ⟨shown, hshown, rfl⟩⟩
  | .object members, h => by
    obtain ⟨cs, h⟩ := h
    obtain ⟨parts, hparts, -⟩ := bind_ok_iff.1 h
    obtain ⟨shown, hshown⟩ := exists_showMembers ⟨parts, hparts⟩
    exact ⟨_, bind_ok_iff.2 ⟨shown, hshown, rfl⟩⟩

theorem exists_showItems : ∀ {items : List (Json τ)}, (∃ parts, writeItems items = .ok parts) →
    ∃ parts, showItems items = .ok parts
  | [], _ => ⟨_, rfl⟩
  | item :: rest, h => by
    obtain ⟨parts, h⟩ := h
    obtain ⟨part, others, hpart, hothers, -⟩ := writeItems_cons_ok h
    obtain ⟨shown, hshown⟩ := exists_showChars ⟨part, hpart⟩
    obtain ⟨more, hmore⟩ := exists_showItems ⟨others, hothers⟩
    exact ⟨_, bind_ok_iff.2 ⟨shown, hshown, bind_ok_iff.2 ⟨more, hmore, rfl⟩⟩⟩

theorem exists_showMembers : ∀ {members : List (τ × Json τ)},
    (∃ parts, writeMembers members = .ok parts) → ∃ parts, showMembers members = .ok parts
  | [], _ => ⟨_, rfl⟩
  | (name, value) :: rest, h => by
    obtain ⟨parts, h⟩ := h
    obtain ⟨part, others, hpart, hothers, -⟩ := writeMembers_cons_ok h
    obtain ⟨shown, hshown⟩ := exists_showChars ⟨part, hpart⟩
    obtain ⟨more, hmore⟩ := exists_showMembers ⟨others, hothers⟩
    exact ⟨_, bind_ok_iff.2 ⟨shown, hshown, bind_ok_iff.2 ⟨more, hmore, rfl⟩⟩⟩

end

theorem Writable.shown {j : Json τ} (h : j.Writable) : ∃ text, j.shown = .ok text := by
  obtain ⟨cs, hcs⟩ := exists_showChars h
  exact ⟨String.ofList cs, map_ok_iff.2 ⟨cs, hcs, rfl⟩⟩

/-! ## Reading -/

/-- A number that is read can be written. -/
theorem writable_amount {written : WrittenNumber} (hdigits : ∀ c ∈ written.whole, c.isDigit = true)
    {a : Amount} (h : written.amount = .ok a) : Writable (.number a : Json τ) := by
  rw [writable_number]
  rintro n rfl
  rw [WrittenNumber.amount] at h
  split at h
  · obtain ⟨m, hm, hn⟩ := map_ok_iff.1 h
    have hlt := Numeral.lt_of_readDigits hdigits hm
    cases hn
    rw [Numeral.withSign]
    split <;> omega
  · cases h

theorem writable_word : ∀ word ∈ words (τ := τ), Writable word.2 := by
  simp only [words, List.forall_mem_cons]
  exact ⟨⟨_, rfl⟩, ⟨_, rfl⟩, ⟨_, rfl⟩, ⟨_, rfl⟩, ⟨_, rfl⟩, ⟨_, rfl⟩,
    List.forall_mem_nil _⟩

theorem inherited_writable : Inherited (fun _ : τ => True) (Writable (τ := τ)) where
  string _ := writable_string _
  word := writable_word
  number hdigits h := writable_amount hdigits h
  array := writable_array
  object h := writable_object.2 fun e he => (h e he).2

/-- What is read can be written. -/
theorem writable_read [DecidableEq τ] {text : τ} {j : Json τ} (h : read text = .ok j) :
    j.Writable :=
  inherited_writable.read (fun _ _ _ _ _ => trivial) h

end Storyline.Json
