import Storyline.Json.Reader
import Storyline.Proofs.Act
import Storyline.Proofs.Table

/-!
# Storyline.Proofs.Json.Inherited

What all values that are read have in common.  A property is *inherited* if words and numbers
have it, a string has it that is fine, an array has it from its items, and an object has it from
its members, of which no two have one name and all names are fine.  Then whatever is read has it,
as long as the reader finds fine strings only.
-/

namespace Storyline.Json

/-! ## Digits -/

theorem isDigit_takeWhile (cs : List Char) : ∀ c ∈ cs.takeWhile Char.isDigit, c.isDigit = true :=
  List.all_eq_true.1 List.all_takeWhile

/-- The digits that stand for a whole number. -/
theorem isDigit_readWhole? {cs whole rest : List Char} (h : readWhole? cs = some (whole, rest)) :
    ∀ c ∈ whole, c.isDigit = true := by
  rw [readWhole?.eq_def] at h
  split at h
  · cases h
    exact List.forall_mem_singleton.2 rfl
  · split at h
    · next hc =>
      cases h
      exact List.forall_mem_cons.2 ⟨hc, isDigit_takeWhile _⟩
    · cases h
  · cases h

theorem isDigit_readNumber? {cs rest : List Char} {written : WrittenNumber}
    (h : readNumber? cs = some (written, rest)) : ∀ c ∈ written.whole, c.isDigit = true := by
  rw [readNumber?] at h
  dsimp only at h
  cases hw : readWhole? (splitMinus cs).2 with
  | none => rw [hw] at h; cases h
  | some found =>
    rw [hw] at h
    cases h
    exact isDigit_readWhole? hw

/-! ## Values -/

variable {τ : Type}

/-- Whether a property passes from what is read first to what is made of it. -/
structure Inherited (fine : τ → Prop) (P : Json τ → Prop) : Prop where
  string : ∀ {s}, fine s → P (.string s)
  word : ∀ word ∈ words, P word.2
  number : ∀ {written : WrittenNumber} {a : Amount}, (∀ c ∈ written.whole, c.isDigit = true) →
    written.amount = .ok a → P (.number a)
  array : ∀ {items : List (Json τ)}, (∀ item ∈ items, P item) → P (.array items)
  object : ∀ {members : Table (Json τ) τ}, (∀ e ∈ members.entries, fine e.1 ∧ P e.2) →
    P (.object members.entries)

/-- Whether all strings that are read in a text are fine. -/
def ReadsFine [Textual τ] (text : WideString) (fine : τ → Prop) : Prop :=
  ∀ opening cs s rest, readString text opening cs = .ok (s, rest) → fine s

namespace Inherited

variable {fine : τ → Prop} {P : Json τ → Prop}

theorem readScalar (inherited : Inherited fine P) {cs rest : List Char} {j : Json τ}
    (h : readScalar cs = .ok (j, rest)) : P j := by
  rw [Json.readScalar] at h
  split at h
  · next word rest' hword =>
    cases h
    obtain ⟨named, hnamed, hfront⟩ := List.exists_of_findSome?_eq_some hword
    obtain ⟨after, -, hfound⟩ := Option.map_eq_some_iff.1 hfront
    cases hfound
    exact inherited.word named hnamed
  · split at h
    · next written rest' hwritten =>
      split at h
      · next a ha =>
        cases h
        exact inherited.number (isDigit_readNumber? hwritten) ha
      · cases h
    · cases h

variable [DecidableEq τ]

/-- Members that have it are those of an object that has it, whichever of one name is kept. -/
theorem ofList (inherited : Inherited fine P) {members : List (τ × Json τ)}
    (each : ∀ e ∈ members, fine e.1 ∧ P e.2) : P (.object (Table.ofList members).entries) :=
  inherited.object fun e he => each e (Table.mem_of_mem_ofList he)

variable [Textual τ] {text : WideString}

mutual

theorem readValue (inherited : Inherited fine P) (strings : ReadsFine text fine) :
    ∀ {fuel : Nat} {cs rest : List Char} {j : Json τ},
    Json.readValue text fuel cs = .ok (j, rest) → P j
  | 0, _, _, _, h => by cases h
  | fuel + 1, cs, _, _, h => by
    rw [readValue.eq_def] at h
    dsimp only at h
    split at h
    · obtain ⟨found, hstring, hfound⟩ := map_ok_iff.1 h
      cases hfound
      exact inherited.string (strings _ _ _ _ hstring)
    · split at h
      · cases h
        exact inherited.array (List.forall_mem_nil _)
      · obtain ⟨found, hitems, hfound⟩ := map_ok_iff.1 h
        cases hfound
        exact inherited.array (inherited.readItems strings hitems)
    · split at h
      · cases h
        exact inherited.ofList (List.forall_mem_nil _)
      · obtain ⟨found, hmembers, hfound⟩ := map_ok_iff.1 h
        cases hfound
        exact inherited.ofList (inherited.readMembers strings hmembers)
    · exact inherited.readScalar h

theorem readItems (inherited : Inherited fine P) (strings : ReadsFine text fine) :
    ∀ {fuel : Nat} {cs rest : List Char} {items : List (Json τ)},
    Json.readItems text fuel cs = .ok (items, rest) → ∀ item ∈ items, P item
  | 0, _, _, _, h => by cases h
  | fuel + 1, cs, _, _, h => by
    rw [Json.readItems] at h
    obtain ⟨⟨item, after⟩, hitem, h⟩ := bind_ok_iff.1 h
    have hfirst := inherited.readValue strings hitem
    dsimp only at h
    split at h
    · cases h
      exact List.forall_mem_singleton.2 hfirst
    · obtain ⟨others, hothers, h⟩ := bind_ok_iff.1 h
      cases h
      exact List.forall_mem_cons.2 ⟨hfirst, inherited.readItems strings hothers⟩
    · cases h

theorem readMembers (inherited : Inherited fine P) (strings : ReadsFine text fine) :
    ∀ {fuel : Nat} {cs rest : List Char} {members : List (τ × Json τ)},
    Json.readMembers text fuel cs = .ok (members, rest) → ∀ e ∈ members, fine e.1 ∧ P e.2
  | 0, _, _, _, h => by cases h
  | fuel + 1, cs, _, _, h => by
    rw [readMembers.eq_def] at h
    dsimp only at h
    split at h
    · obtain ⟨⟨name, after⟩, hname, h⟩ := bind_ok_iff.1 h
      have hfine := strings _ _ _ _ hname
      dsimp only at h
      split at h
      · obtain ⟨⟨value, after⟩, hvalue, h⟩ := bind_ok_iff.1 h
        have hfirst := And.intro hfine (inherited.readValue strings hvalue)
        dsimp only at h
        split at h
        · cases h
          exact List.forall_mem_singleton.2 hfirst
        · obtain ⟨others, hothers, h⟩ := bind_ok_iff.1 h
          cases h
          exact List.forall_mem_cons.2 ⟨hfirst, inherited.readMembers strings hothers⟩
        · cases h
      · cases h
    · cases h

end

/-- What is read has every property that is inherited. -/
theorem read (inherited : Inherited fine P) {text : τ} (strings : ReadsFine (wide text) fine)
    {j : Json τ} (h : read text = .ok j) : P j := by
  rw [Json.read] at h
  cases hread : readText (τ := τ) (wide text) with
  | error refusal => rw [hread] at h; cases h
  | ok value =>
    rw [hread] at h
    cases h
    rw [readText] at hread
    split at hread
    · cases hread
    · obtain ⟨found, hfound, hread⟩ := bind_ok_iff.1 hread
      dsimp only at hread
      split at hread
      · cases hread
        exact inherited.readValue strings hfound
      · cases hread

end Inherited

end Storyline.Json
