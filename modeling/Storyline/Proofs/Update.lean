import Mathlib.Algebra.Ring.Int.Defs
import Storyline.Episode.Basic
import Storyline.Proofs.Resources

/-!
# Storyline.Proofs.Update

What a transition does to the resources, taken by itself: nothing, the assignments of a
node, or the gain of an option.  An update leaves alone what it does not name.  Where it
does nothing to a resource but add a whole number, the resource is exactly that much more
afterwards, however large the numbers are, and a resource that was not there counts as zero.
-/

namespace Storyline

namespace Numeral

/-- The whole number that a delta denotes, however long it is. -/
def denoted (text : String) : Int :=
  let (negative, digits) := splitSign text.toList
  withSign negative (Nat.ofDigitChars 10 digits 0)

/-- A delta that is read is read as what it denotes. -/
theorem denoted_of_readDelta {text : String} {n : Int} (h : readDelta text = .ok n) :
    n = denoted text := by
  rw [readDelta, map_ok_iff] at h
  obtain ⟨magnitude, hread, rfl⟩ := h
  rw [readDigits] at hread
  split at hread
  · cases hread
    rfl
  · cases hread

end Numeral

/-- What a transition does to the resources. -/
inductive Update
  | nothing
  | assign (assignments : Table Value)
  | gain (amounts : Table Amount)
deriving DecidableEq, Repr

/-- What dealing with a node does to the resources. -/
def Node.update : Node → Update
  | .assign assignments _ => .assign assignments
  | _ => .nothing

/-- What picking an option does to the resources. -/
def ChoiceOption.update (o : ChoiceOption) : Update :=
  match o.gain with
  | none => .nothing
  | some amounts => .gain amounts

namespace Update

/-- The resources after an update. -/
def apply (r : Resources) : Update → Except UpdateFault Resources
  | .nothing => .ok r
  | .assign assignments => r.assign (assignments.map Value.toJson)
  | .gain amounts => r.gain (some amounts)

theorem apply_option (r : Resources) (o : ChoiceOption) : o.update.apply r = r.gain o.gain := by
  rw [ChoiceOption.update]
  cases o.gain <;> rfl

/-- The resources that an update names. -/
def names : Update → List String
  | .nothing => []
  | .assign assignments => assignments.names
  | .gain amounts => amounts.names

/-- The whole number that an update adds to a resource, if that is all it does to it.  To a
resource that it does not name it adds zero. -/
def added? (name : String) : Update → Option Int
  | .nothing => some 0
  | .assign assignments =>
    match assignments.find? name with
    | none => some 0
    | some (.text s) => if Numeral.isDelta s then some (Numeral.denoted s) else none
    | some (.number _) => none
  | .gain amounts =>
    match amounts.find? name with
    | none => some 0
    | some (.int n) => some n
    | some (.real _) => none

variable {r after : Resources} {name : String} {n d : Int}

/-- An update leaves alone what it does not name. -/
theorem find?_of_apply {u : Update} (h : u.apply r = .ok after) (hn : name ∉ u.names) :
    after.find? name = r.find? name := by
  cases u with
  | nothing => cases h; rfl
  | assign assignments =>
    refine (Resources.change_ok (Table.nodup_names _) h).2 name ?_
    rwa [Table.names_map]
  | gain amounts =>
    refine (Resources.change_ok (Table.nodup_names _) h).2 name ?_
    rwa [Table.names_map]

theorem value_of_unnamed {u : Update} (h : u.apply r = .ok after) (hn : name ∉ u.names) :
    after.value name = r.value name := by
  rw [Resources.value, find?_of_apply h hn, Resources.value]

/-- Adding a whole number to one. -/
theorem plus_int {value : Json} (h : Resources.plus name (.number (.int n)) (.number (.int d)) =
    .ok value) : value = .number (.int (n + d)) := by
  rw [Resources.plus_number, Amount.add_int] at h
  cases h
  rfl

/-- Assigning a delta to a whole number adds what the delta denotes. -/
theorem assigned_delta {s : String} {value : Json} (hdelta : Numeral.isDelta s = true)
    (h : Resources.assigned name (.number (.int n)) (Value.text s).toJson = .ok value) :
    value = .number (.int (n + Numeral.denoted s)) := by
  simp only [Value.toJson, Resources.assigned, hdelta, if_true] at h
  cases hread : Numeral.readDelta s with
  | error fault => simp only [hread] at h; contradiction
  | ok m =>
    simp only [hread] at h
    rw [plus_int h, Numeral.denoted_of_readDelta hread]

theorem added?_of_unnamed {u : Update} (hn : name ∉ u.names) : u.added? name = some 0 := by
  cases u with
  | nothing => rfl
  | assign assignments => rw [added?, Table.find?_eq_none_iff.2 hn]
  | gain amounts => rw [added?, Table.find?_eq_none_iff.2 hn]

/-- Where an update does no more than add a whole number, the resource is that much more. -/
theorem value_of_apply {u : Update} (h : u.apply r = .ok after)
    (held : r.value name = .number (.int n)) (adds : u.added? name = some d) :
    after.value name = .number (.int (n + d)) := by
  by_cases hn : name ∈ u.names
  · cases u with
    | nothing => cases hn
    | assign assignments =>
      obtain ⟨hnamed, -⟩ := Resources.change_ok (Table.nodup_names _) h
      rw [added?] at adds
      split at adds
      · next hf => exact absurd hn (Table.find?_eq_none_iff.1 hf)
      · next s hf =>
        obtain ⟨value, hvalue, hfound⟩ := hnamed _ (Table.mem_entries_map Value.toJson hf)
        split at adds
        · next hdelta =>
          cases adds
          rw [held] at hvalue
          rw [Resources.value, hfound, assigned_delta hdelta hvalue]
          rfl
        · cases adds
      · cases adds
    | gain amounts =>
      obtain ⟨hnamed, -⟩ := Resources.change_ok (Table.nodup_names _) h
      rw [added?] at adds
      split at adds
      · next hf => exact absurd hn (Table.find?_eq_none_iff.1 hf)
      · next m hf =>
        obtain ⟨value, hvalue, hfound⟩ := hnamed _ (Table.mem_entries_map Json.number hf)
        cases adds
        simp only [held] at hvalue
        rw [Resources.value, hfound, plus_int hvalue]
        rfl
      · cases adds
  · rw [added?_of_unnamed hn] at adds
    cases adds
    rw [value_of_unnamed h hn, held, Int.add_zero]

/-! ## Updates one after the other -/

variable {ledger : List Update}

theorem foldlM_cons_ok {u : Update} (h : (u :: ledger).foldlM apply r = .ok after) :
    ∃ mid, u.apply r = .ok mid ∧ ledger.foldlM apply mid = .ok after := by
  rw [List.foldlM_cons] at h
  exact bind_ok_iff.1 h

/-- What no update names stays as it was. -/
theorem find?_of_foldlM (h : ledger.foldlM apply r = .ok after)
    (hn : ∀ u ∈ ledger, name ∉ u.names) : after.find? name = r.find? name := by
  induction ledger generalizing r with
  | nil => cases h; rfl
  | cons u rest ih =>
    obtain ⟨hu, hrest⟩ := List.forall_mem_cons.1 hn
    obtain ⟨mid, hmid, hafter⟩ := foldlM_cons_ok h
    rw [ih hafter hrest, find?_of_apply hmid hu]

/-- Where all updates do no more than add whole numbers, the resource is their sum more. -/
theorem value_of_foldlM (h : ledger.foldlM apply r = .ok after)
    (held : r.value name = .number (.int n)) (adds : ∀ u ∈ ledger, (u.added? name).isSome = true) :
    after.value name = .number (.int (n + (ledger.filterMap (added? name)).sum)) := by
  -- Both what is held and how much of it move with each update.
  induction ledger generalizing r n with
  | nil =>
    cases h
    rw [held]
    simp
  | cons u rest ih =>
    obtain ⟨hu, hrest⟩ := List.forall_mem_cons.1 adds
    obtain ⟨mid, hmid, hafter⟩ := foldlM_cons_ok h
    obtain ⟨d, hd⟩ := Option.isSome_iff_exists.1 hu
    rw [ih hafter (value_of_apply hmid held hd) hrest, List.filterMap_cons, hd]
    simp [Int.add_assoc]

end Update

end Storyline
