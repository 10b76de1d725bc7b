/-!
# Storyline.Table

Tables from names to values that remember the order in which the names came
in.  Storing under a name that is already there keeps its place; a new name goes
to the end.  No name occurs twice, and that invariant is part of the type.

Everything a story keeps by name is such a table: resources, the nodes of an
episode, the thresholds of a requirement, a player's settings.  Names are strings
unless another type is given for them.
-/

namespace Storyline

/-- An insertion-ordered table whose names are all different. -/
structure Table (α : Type) (κ : Type := String) where
  /-- The entries, oldest name first. -/
  entries : List (κ × α)
  /-- No name occurs twice. -/
  nodup_names : (entries.map Prod.fst).Nodup
deriving DecidableEq, Repr

namespace Table

variable {α β κ : Type}

/-! ## Entry lists -/

section Entries

variable [DecidableEq κ]

/-- Stores a value under a name: in place if the name is there, else at the end. -/
def put (name : κ) (value : α) : List (κ × α) → List (κ × α)
  | [] => [(name, value)]
  | (other, old) :: rest =>
    if other = name then (name, value) :: rest else (other, old) :: put name value rest

/-- The value under a name. -/
def lookup (name : κ) : List (κ × α) → Option α
  | [] => none
  | (other, value) :: rest => if other = name then some value else lookup name rest

/-- Drops the entry of a name. -/
def drop (name : κ) : List (κ × α) → List (κ × α)
  | [] => []
  | (other, value) :: rest =>
    if other = name then rest else (other, value) :: drop name rest

/-- Storing keeps the names there are, and adds the new one at the end if it is missing. -/
theorem map_fst_put (name : κ) (value : α) (l : List (κ × α)) :
    (put name value l).map Prod.fst =
      if name ∈ l.map Prod.fst then l.map Prod.fst else l.map Prod.fst ++ [name] := by
  induction l with
  | nil => simp [put]
  | cons e l ih =>
    obtain ⟨other, old⟩ := e
    by_cases h : other = name
    · simp [put, h]
    · have h' : ¬name = other := fun e => h e.symm
      simp only [put, h, h', if_false, List.map_cons, ih, List.mem_cons, false_or]
      split <;> simp

theorem nodup_put (name : κ) (value : α) {l : List (κ × α)}
    (h : (l.map Prod.fst).Nodup) : ((put name value l).map Prod.fst).Nodup := by
  rw [map_fst_put]
  split
  · exact h
  · next hn => exact List.nodup_append.2 ⟨h, by simp, by
      intro a ha b hb e
      simp only [List.mem_singleton] at hb
      exact hn (hb ▸ e ▸ ha)⟩

theorem drop_sublist (name : κ) (l : List (κ × α)) : (drop name l).Sublist l := by
  induction l with
  | nil => exact List.Sublist.refl _
  | cons e l ih =>
    obtain ⟨other, old⟩ := e
    by_cases h : other = name
    · simp [drop, h]
    · simpa [drop, h] using ih

theorem nodup_drop (name : κ) {l : List (κ × α)}
    (h : (l.map Prod.fst).Nodup) : ((drop name l).map Prod.fst).Nodup :=
  h.sublist ((drop_sublist name l).map Prod.fst)

end Entries

/-! ## Tables -/

/-- The table without entries. -/
def empty : Table α κ := ⟨[], by simp⟩

instance : Inhabited (Table α κ) := ⟨empty⟩

instance : EmptyCollection (Table α κ) := ⟨empty⟩

/-- The names, oldest first. -/
def names (t : Table α κ) : List κ := t.entries.map Prod.fst

/-- The number of names. -/
def size (t : Table α κ) : Nat := t.entries.length

/-- The oldest entry, and the table without it. -/
def popFirst? (t : Table α κ) : Option ((κ × α) × Table α κ) :=
  match h : t.entries with
  | [] => none
  | e :: rest => some (e, ⟨rest, by
      have := t.nodup_names
      rw [h, List.map_cons, List.nodup_cons] at this
      exact this.2⟩)

/-- The same names with each value changed. -/
def map (f : α → β) (t : Table α κ) : Table β κ :=
  ⟨t.entries.map fun e => (e.1, f e.2), by
    simpa [List.map_map, Function.comp_def] using t.nodup_names⟩

theorem ext_entries {s t : Table α κ} (h : s.entries = t.entries) : s = t := by
  cases s; cases t; simp_all

variable [DecidableEq κ]

/-- The value under a name, if the name is there. -/
def find? (t : Table α κ) (name : κ) : Option α := lookup name t.entries

/-- Whether a name is there. -/
def contains (t : Table α κ) (name : κ) : Bool := (t.find? name).isSome

/-- Stores a value: an old name keeps its place, a new one goes to the end. -/
def insert (t : Table α κ) (name : κ) (value : α) : Table α κ :=
  ⟨put name value t.entries, nodup_put name value t.nodup_names⟩

/-- Drops a name and its value; a name that is not there is no matter. -/
def erase (t : Table α κ) (name : κ) : Table α κ :=
  ⟨drop name t.entries, nodup_drop name t.nodup_names⟩

/-- Stores a list of entries, one after the other. -/
def insertAll (t : Table α κ) (l : List (κ × α)) : Table α κ :=
  l.foldl (fun t e => t.insert e.1 e.2) t

/-- The table of a list of entries: a repeated name keeps its first place and its last value. -/
def ofList (l : List (κ × α)) : Table α κ := empty.insertAll l

/-! ## Laws of the operations -/

theorem lookup_put (name other : κ) (value : α) (l : List (κ × α)) :
    lookup other (put name value l) = if name = other then some value else lookup other l := by
  induction l with
  | nil => simp [put, lookup]
  | cons e l ih =>
    obtain ⟨n, v⟩ := e
    by_cases h : n = name
    · subst h; by_cases h' : n = other <;> simp [put, lookup, h']
    · by_cases h' : n = other
      · subst h'
        have : ¬name = n := fun e => h e.symm
        simp [put, lookup, h, this]
      · simp [put, lookup, h, h', ih]

@[simp] theorem find?_empty (name : κ) : (empty : Table α κ).find? name = none := rfl

/-- After a store the name holds the new value, and no other name changed. -/
theorem find?_insert (t : Table α κ) (name other : κ) (value : α) :
    (t.insert name value).find? other = if name = other then some value else t.find? other :=
  lookup_put name other value t.entries

@[simp] theorem find?_insert_self (t : Table α κ) (name : κ) (value : α) :
    (t.insert name value).find? name = some value := by
  simp [find?_insert]

/-- A store keeps the order of the names there are; a new name comes last. -/
theorem names_insert (t : Table α κ) (name : κ) (value : α) :
    (t.insert name value).names = if name ∈ t.names then t.names else t.names ++ [name] :=
  map_fst_put name value t.entries

theorem lookup_eq_none_iff {name : κ} {l : List (κ × α)} :
    lookup name l = none ↔ name ∉ l.map Prod.fst := by
  induction l with
  | nil => simp [lookup]
  | cons e l ih =>
    obtain ⟨other, v⟩ := e
    by_cases h : other = name
    · simp [lookup, h]
    · have h' : ¬name = other := fun e => h e.symm
      simp only [lookup, h, if_false, ih, List.map_cons, List.mem_cons, h', false_or]

/-- A name without a value is a name that is not there. -/
theorem find?_eq_none_iff {t : Table α κ} {name : κ} :
    t.find? name = none ↔ name ∉ t.names :=
  lookup_eq_none_iff

theorem mem_of_lookup {name : κ} {value : α} {l : List (κ × α)}
    (h : lookup name l = some value) : (name, value) ∈ l := by
  induction l with
  | nil => simp [lookup] at h
  | cons e l ih =>
    obtain ⟨other, v⟩ := e
    by_cases hn : other = name
    · simp_all [lookup]
    · simp only [lookup, hn, if_false] at h
      exact List.mem_cons_of_mem _ (ih h)

theorem lookup_of_mem {name : κ} {value : α} {l : List (κ × α)}
    (hl : (l.map Prod.fst).Nodup) (h : (name, value) ∈ l) : lookup name l = some value := by
  induction l with
  | nil => simp at h
  | cons e l ih =>
    obtain ⟨other, v⟩ := e
    rw [List.map_cons, List.nodup_cons] at hl
    rcases List.mem_cons.1 h with h | h
    · cases h; simp [lookup]
    · have hn : ¬other = name := fun e => hl.1 (List.mem_map.2 ⟨_, h, e.symm⟩)
      simp [lookup, hn, ih hl.2 h]

/-- Looking a name up answers its one entry. -/
theorem find?_eq_some_iff {t : Table α κ} {name : κ} {value : α} :
    t.find? name = some value ↔ (name, value) ∈ t.entries :=
  ⟨mem_of_lookup, lookup_of_mem t.nodup_names⟩

end Table

end Storyline
