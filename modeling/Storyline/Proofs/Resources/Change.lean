import Storyline.Proofs.Overreach

/-!
# Storyline.Proofs.Resources.Change

What becomes of resources that are changed, told entry by entry.  `Adds` says what adding an amount
to a resource comes to and `Assigns` what an assignment does; each entry of a change meets the
resources as they were before all of it.  `Changes` says what the whole comes to: either all the
new values are stored, or nothing is, and the first entry that has no value says why.
-/

namespace Storyline.Resources

/-! ## Entries -/

/-- What adding an amount to what is held under a name comes to. -/
inductive Adds (name : String) : Json → Amount → Except UpdateFault Json → Prop
  /-- What counts as an amount has a sum with it. -/
  | sum {held : Json} {a added total : Amount} (counts : held.amount? = some a)
    (h : a.add added = .ok total) : Adds name held added (.ok (.number total))
  /-- A whole number past the doubles has no sum with a double. -/
  | beyond {held : Json} {a added : Amount} (counts : held.amount? = some a)
    (h : a.OutOfReach added) : Adds name held added (.error (.number .beyondDoubles))
  /-- To a text nothing is added. -/
  | textHeld {held shown : String} {added : Amount} (h : added.text = .ok shown) :
    Adds name (.string held) added (.error (.textHeld name held shown))
  /-- Nor can a whole number that is too long be named in the complaint about it. -/
  | unwritable {held : String} {n : Int} (h : Numeral.firstUnwritable ≤ n.natAbs) :
    Adds name (.string held) (.int n) (.error (.number .unwritable))
  /-- To an array nothing is joined but an array. -/
  | joined {items : List Json} {added : Amount} :
    Adds name (.array items) added (.error (.clash (.joined (Json.number added).kind)))
  /-- All else has no sum with an amount. -/
  | unlike {held : Json} {added : Amount} (h : held = .null ∨ ∃ members, held = .object members) :
    Adds name held added (.error (.clash (.added held.kind (Json.number added).kind)))

/-- What an assignment to what is held under a name comes to. -/
inductive Assigns (name : String) (held : Json) : Json → Except UpdateFault Json → Prop
  /-- What is no delta takes the place of what is held. -/
  | put {value : Json}
    (plain : ∀ s negative digits, value = .string s → ¬Numeral.Spells s negative digits) :
    Assigns name held value (.ok value)
  /-- A delta of too many digits is not read. -/
  | unreadable {s : String} {negative : Bool} {digits : List Char}
    (spells : Numeral.Spells s negative digits) (long : Numeral.digitLimit < digits.length) :
    Assigns name held (.string s) (.error (.number (.unreadable digits.length)))
  /-- Any other delta is added. -/
  | delta {s : String} {negative : Bool} {digits : List Char} {answer : Except UpdateFault Json}
    (spells : Numeral.Spells s negative digits) (short : digits.length ≤ Numeral.digitLimit)
    (adds : Adds name held
      (.int (Numeral.withSign negative (Nat.ofDigitChars 10 digits 0))) answer) :
    Assigns name held (.string s) answer

variable {name : String} {held : Json} {added : Amount} {answer : Except UpdateFault Json}

/-- What counts as an amount is added to, or is out of reach. -/
theorem adds_counting {a : Amount} (counts : held.amount? = some a) :
    Adds name held added (((a.add added).map .number).mapError .number) := by
  obtain ⟨h, hadd⟩ | ⟨-, total, hadd⟩ := a.add_cases added
  · rw [hadd]
    exact .beyond counts h
  · rw [hadd]
    exact .sum counts hadd

theorem adds_plus (name : String) (held : Json) (added : Amount) :
    Adds name held added (plus name held (.number added)) := by
  cases held with
  | null => exact .unlike (.inl rfl)
  | bool b => exact adds_counting rfl
  | number a => exact adds_counting rfl
  | string s =>
    rw [plus, added.plain_number]
    cases added with
    | real x => exact .textHeld rfl
    | int n =>
      by_cases hshort : n.natAbs < Numeral.firstUnwritable
      · rw [Amount.text, Numeral.write_of_lt hshort]
        exact .textHeld (Numeral.write_of_lt hshort)
      · rw [Amount.text, Numeral.write, if_neg hshort]
        exact .unwritable (Nat.le_of_not_lt hshort)
  | array items => exact .joined
  | object members => exact .unlike (.inr ⟨members, rfl⟩)

theorem plus_of_counting {a : Amount} (counts : held.amount? = some a) :
    plus name held (.number added) = ((a.add added).map .number).mapError .number := by
  cases held with
  | bool b => cases counts; rfl
  | number b => cases counts; rfl
  | _ => cases counts

/-- Adding comes to one thing, and to what is computed. -/
theorem adds_iff : Adds name held added answer ↔ plus name held (.number added) = answer := by
  constructor
  · intro h
    cases h with
    | sum counts h => rw [plus_of_counting counts, h]; rfl
    | @beyond _ a _ counts h =>
      obtain ⟨-, hadd⟩ | ⟨hn, -⟩ := a.add_cases added
      · rw [plus_of_counting counts, hadd]; rfl
      · exact absurd h hn
    | textHeld h => rw [plus, added.plain_number, h]
    | unwritable h =>
      rw [plus, Amount.plain_number, Amount.text, Numeral.write, if_neg (Nat.not_lt.2 h)]
    | joined => rfl
    | unlike h =>
      obtain rfl | ⟨members, rfl⟩ := h
      · rfl
      · rfl
  · rintro rfl
    exact adds_plus name held added

theorem assigns_assigned (name : String) (held value : Json) :
    Assigns name held value (assigned name held value) := by
  cases value with
  | string s =>
    rw [assigned]
    by_cases delta : Numeral.isDelta s = true
    · obtain ⟨negative, digits, spells⟩ := Numeral.exists_spells delta
      rw [if_pos delta, Numeral.readDelta_of_spells spells]
      by_cases short : digits.length ≤ Numeral.digitLimit
      · rw [if_pos short]
        exact .delta spells short (adds_plus name held _)
      · rw [if_neg short]
        exact .unreadable spells (Nat.lt_of_not_le short)
    · rw [if_neg delta]
      refine .put fun text negative digits htext spells => delta ?_
      cases htext
      exact (Numeral.spells_iff.1 spells).1
  | _ => exact .put fun _ _ _ h => by cases h

/-- An assignment comes to one thing, and to what is computed. -/
theorem assigns_iff {value : Json} :
    Assigns name held value answer ↔ assigned name held value = answer := by
  constructor
  · intro h
    cases h with
    | put plain =>
      cases value with
      | string s =>
        rw [assigned, if_neg]
        intro delta
        obtain ⟨negative, digits, spells⟩ := Numeral.exists_spells delta
        exact plain s negative digits rfl spells
      | _ => rfl
    | unreadable spells long =>
      rw [assigned, if_pos (Numeral.spells_iff.1 spells).1, Numeral.readDelta_of_spells spells,
        if_neg (Nat.not_le.2 long)]
    | delta spells short adds =>
      rw [assigned, if_pos (Numeral.spells_iff.1 spells).1, Numeral.readDelta_of_spells spells,
        if_pos short]
      exact adds_iff.1 adds
  · rintro rfl
    exact assigns_assigned name held value

/-- To an amount or a text nothing is added that does not go together with it. -/
theorem not_adds_clash (typed : held.isValue = true) (clash : Json.Clash) :
    ¬Adds name held added (.error (.clash clash)) := by
  obtain ⟨v, rfl⟩ := isValue_iff.1 typed
  intro h
  cases v with
  | number a => cases h with
    | unlike h => obtain h | ⟨members, h⟩ := h <;> cases h
  | text s => cases h with
    | unlike h => obtain h | ⟨members, h⟩ := h <;> cases h

theorem not_assigns_clash {value : Json} (typed : held.isValue = true) (clash : Json.Clash) :
    ¬Assigns name held value (.error (.clash clash)) := by
  intro h
  cases h with
  | delta spells short adds => exact not_adds_clash typed clash adds

/-! ## Whole changes -/

/-- What a change comes to as a whole, by what its entries come to. -/
inductive Changes {β : Type} (r : Resources)
    (comes : String × β → Except UpdateFault Json → Prop) (entries : List (String × β)) :
    Except UpdateFault Resources → Prop
  /-- Every entry has a value.  These are held afterwards and nothing else has changed; the names
  there were keep their places, and the new ones come after them in the order of the entries. -/
  | stored {after : Resources}
    (named : ∀ e ∈ entries, ∃ value, comes e (.ok value) ∧ after.find? e.1 = some value)
    (others : ∀ name, name ∉ entries.map Prod.fst → after.find? name = r.find? name)
    (order : after.names =
      r.names ++ (entries.map Prod.fst).filter fun name => decide (name ∉ r.names)) :
    Changes r comes entries (.ok after)
  /-- An entry has none, and the first that has none says why. -/
  | refused {fault : UpdateFault}
    (first : FirstAmiss (fun e => ∃ value, comes e (.ok value))
      (fun e => comes e (.error fault)) entries) :
    Changes r comes entries (.error fault)

variable {α β : Type} {r : Resources} {compute : String → Json → α → Except UpdateFault Json}
  {f : β → α} {comes : String × β → Except UpdateFault Json → Prop} {entries : List (String × β)}

theorem Changes.exists_of_error {fault : UpdateFault} (h : Changes r comes entries (.error fault)) :
    ∃ e ∈ entries, comes e (.error fault) := by
  cases h with
  | refused first =>
    obtain ⟨before, e, rest, rfl, -, he⟩ := first
    exact ⟨e, by simp, he⟩

/-- A change comes to what its entries make of it. -/
theorem changes_change (distinct : (entries.map Prod.fst).Nodup)
    (h : ∀ e answer, comes e answer ↔ compute e.1 (r.value e.1) (f e.2) = answer) :
    Changes r comes entries (r.change compute (entries.map fun e => (e.1, f e.2))) := by
  have hnames : (entries.map fun e => (e.1, f e.2)).map Prod.fst = entries.map Prod.fst := by
    rw [List.map_map]
    rfl
  cases hchange : r.change compute (entries.map fun e => (e.1, f e.2)) with
  | error fault =>
    rw [change_error_iff, firstAmiss_map] at hchange
    simp only [← h] at hchange
    exact .refused hchange
  | ok after =>
    obtain ⟨hnamed, hothers⟩ := change_ok (hnames ▸ distinct) hchange
    have horder := names_change (hnames ▸ distinct) hchange
    rw [hnames] at hothers horder
    refine .stored (fun e he => ?_) hothers horder
    obtain ⟨value, hvalue, hfound⟩ := hnamed _ (List.mem_map_of_mem he)
    exact ⟨value, (h e _).2 hvalue, hfound⟩

/-- A gain changes the resources entry by entry. -/
theorem changes_gain (r : Resources) (amounts : Table Amount) :
    Changes r (fun e => Adds e.1 (r.value e.1) e.2) amounts.entries (r.gain (some amounts)) :=
  changes_change amounts.nodup_names fun _ _ => adds_iff

/-- Assignments change the resources entry by entry. -/
theorem changes_assign (r : Resources) (assignments : Table Json) :
    Changes r (fun e => Assigns e.1 (r.value e.1) e.2) assignments.entries
      (r.assign assignments) := by
  have hentries : assignments.entries.map (fun e => (e.1, id e.2)) = assignments.entries :=
    List.map_id _
  have h : Changes r (fun e => Assigns e.1 (r.value e.1) e.2) assignments.entries
      (r.change assigned (assignments.entries.map fun e => (e.1, id e.2))) :=
    changes_change assignments.nodup_names fun _ _ => assigns_iff
  rwa [hentries] at h

end Storyline.Resources
