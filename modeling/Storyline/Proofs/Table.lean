import Storyline.Sorted
import Storyline.Table
import Storyline.Text.Wide

/-!
# Storyline.Proofs.Table

Tables as mappings.  Two tables are the *same* if every name has the same value in
both, whatever the order in which the names came in.  The operations keep that,
and tables that are the same hold the same entries in some other order.
-/

namespace Storyline.Table

variable {α β κ : Type} [DecidableEq κ]

theorem lookup_drop (name other : κ) {l : List (κ × α)} (hl : (l.map Prod.fst).Nodup) :
    lookup other (drop name l) = if name = other then none else lookup other l := by
  induction l with
  | nil => rw [drop, lookup]; split <;> rfl
  | cons e l ih =>
    obtain ⟨n, v⟩ := e
    rw [List.map_cons, List.nodup_cons] at hl
    by_cases hn : n = name
    · subst hn
      rw [drop, if_pos rfl]
      by_cases ho : n = other
      · subst ho
        rw [if_pos rfl]
        exact lookup_eq_none_iff.2 hl.1
      · rw [if_neg ho, lookup, if_neg ho]
    · rw [drop, if_neg hn, lookup, lookup, ih hl.2]
      by_cases ho : n = other
      · subst ho
        rw [if_pos rfl, if_pos rfl, if_neg fun e => hn e.symm]
      · rw [if_neg ho, if_neg ho]

/-- After a name is dropped it has no value, and no other name changed. -/
theorem find?_erase (t : Table α κ) (name other : κ) :
    (t.erase name).find? other = if name = other then none else t.find? other :=
  lookup_drop name other t.nodup_names

omit [DecidableEq κ] in
theorem nodup_entries (t : Table α κ) : t.entries.Nodup := by
  have hne : ∀ d e : κ × α, d.1 ≠ e.1 → d ≠ e := fun _ _ hne e => hne (congrArg Prod.fst e)
  exact List.Pairwise.of_map Prod.fst hne t.nodup_names

/-! ## Entry lists as tables -/

theorem put_of_not_mem {name : κ} {value : α} {l : List (κ × α)}
    (h : name ∉ l.map Prod.fst) : put name value l = l ++ [(name, value)] := by
  induction l with
  | nil => rfl
  | cons e l ih =>
    obtain ⟨other, old⟩ := e
    simp only [List.map_cons, List.mem_cons, not_or] at h
    rw [put, if_neg fun e => h.1 e.symm, ih h.2]
    rfl

theorem entries_insertAll {t : Table α κ} {l : List (κ × α)}
    (h : ((t.entries ++ l).map Prod.fst).Nodup) : (t.insertAll l).entries = t.entries ++ l := by
  induction l generalizing t with
  | nil => exact (List.append_nil _).symm
  | cons e l ih =>
    have hput : (t.insert e.1 e.2).entries = t.entries ++ [e] := by
      rw [List.map_append, List.map_cons, List.nodup_append] at h
      have hnew : e.1 ∉ t.entries.map Prod.fst := fun hm => h.2.2 _ hm _ List.mem_cons_self rfl
      exact put_of_not_mem hnew
    have hrest := ih (t := t.insert e.1 e.2) (by rw [hput]; simpa using h)
    rw [hput, List.append_assoc] at hrest
    exact hrest

/-- The entries of a table of entries whose names all differ are those entries. -/
theorem entries_ofList {l : List (κ × α)} (h : (l.map Prod.fst).Nodup) :
    (ofList l).entries = l :=
  entries_insertAll (t := empty) h

/-- Storing entries keeps the names there are; the new ones come after them, in the order of the
entries. -/
theorem names_insertAll {t : Table α κ} {l : List (κ × α)} (h : (l.map Prod.fst).Nodup) :
    (t.insertAll l).names =
      t.names ++ (l.map Prod.fst).filter fun name => decide (name ∉ t.names) := by
  induction l generalizing t with
  | nil => exact (List.append_nil _).symm
  | cons e l ih =>
    rw [List.map_cons, List.nodup_cons] at h
    have hrest : (t.insertAll (e :: l)).names = _ := ih (t := t.insert e.1 e.2) h.2
    rw [hrest, names_insert, List.map_cons, List.filter_cons]
    by_cases hold : e.1 ∈ t.names
    · simp only [hold, if_true, not_true_eq_false, decide_false, Bool.false_eq_true, if_false]
    · have hothers : ∀ name ∈ l.map Prod.fst,
          decide (name ∉ t.names ++ [e.1]) = decide (name ∉ t.names) := by
        intro name hname
        have hne : name ≠ e.1 := fun heq => h.1 (heq ▸ hname)
        simp [hne]
      simp only [hold, if_false, not_false_eq_true, decide_true, if_true]
      rw [List.filter_congr hothers, List.append_assoc]
      rfl

theorem put_of_lookup {name : κ} {value : α} {l : List (κ × α)}
    (h : lookup name l = some value) : put name value l = l := by
  induction l with
  | nil => cases h
  | cons e l ih =>
    obtain ⟨other, old⟩ := e
    rw [lookup] at h
    rw [put]
    split at h
    · next heq =>
      cases h
      rw [if_pos heq, heq]
    · next hne => rw [if_neg hne, ih h]

/-- Storing what is held already changes nothing. -/
theorem insertAll_of_find? {t : Table α κ} {l : List (κ × α)}
    (h : ∀ e ∈ l, t.find? e.1 = some e.2) : t.insertAll l = t := by
  induction l with
  | nil => rfl
  | cons e l ih =>
    obtain ⟨he, hrest⟩ := List.forall_mem_cons.1 h
    have hput : t.insert e.1 e.2 = t := ext_entries (put_of_lookup he)
    show (t.insert e.1 e.2).insertAll l = t
    rw [hput, ih hrest]

theorem mem_put {name : κ} {value : α} {e : κ × α} {l : List (κ × α)}
    (h : e ∈ put name value l) : e = (name, value) ∨ e ∈ l := by
  induction l with
  | nil => exact .inl (List.mem_singleton.1 h)
  | cons d l ih =>
    obtain ⟨other, old⟩ := d
    rw [put] at h
    split at h
    · exact (List.mem_cons.1 h).imp_right (List.mem_cons_of_mem _)
    · obtain rfl | h := List.mem_cons.1 h
      · exact .inr List.mem_cons_self
      · exact (ih h).imp_right (List.mem_cons_of_mem _)

theorem mem_insertAll {t : Table α κ} {l : List (κ × α)} {e : κ × α}
    (h : e ∈ (t.insertAll l).entries) : e ∈ t.entries ∨ e ∈ l := by
  induction l generalizing t with
  | nil => exact .inl h
  | cons d l ih =>
    obtain h | h := ih (t := t.insert d.1 d.2) h
    · obtain rfl | h := mem_put h
      · exact .inr List.mem_cons_self
      · exact .inl h
    · exact .inr (List.mem_cons_of_mem _ h)

/-- What stands in a table of entries is among the entries. -/
theorem mem_of_mem_ofList {l : List (κ × α)} {e : κ × α} (h : e ∈ (ofList l).entries) : e ∈ l :=
  (mem_insertAll (t := empty) h).elim (fun h => by cases h) id

/-! ## Sameness -/

/-- Two tables are the same as mappings. -/
def Same (s t : Table α κ) : Prop := ∀ name, s.find? name = t.find? name

theorem Same.refl (t : Table α κ) : t.Same t := fun _ => rfl

theorem Same.symm {s t : Table α κ} (h : s.Same t) : t.Same s := fun name => (h name).symm

theorem Same.trans {r s t : Table α κ} (h : r.Same s) (h' : s.Same t) : r.Same t :=
  fun name => (h name).trans (h' name)

theorem Same.insert {s t : Table α κ} (h : s.Same t) (name : κ) (value : α) :
    (s.insert name value).Same (t.insert name value) := by
  intro other
  rw [find?_insert, find?_insert, h other]

theorem Same.insertAll {s t : Table α κ} (h : s.Same t) (l : List (κ × α)) :
    (s.insertAll l).Same (t.insertAll l) := by
  induction l generalizing s t with
  | nil => exact h
  | cons e l ih => exact ih (h.insert e.1 e.2)

/-- Tables that are the same hold the same entries. -/
theorem Same.perm {s t : Table α κ} (h : s.Same t) : s.entries.Perm t.entries := by
  have hmem : ∀ e, e ∈ s.entries ↔ e ∈ t.entries := by
    intro e
    rw [← find?_eq_some_iff, ← find?_eq_some_iff, h e.1]
  exact (List.perm_ext_iff_of_nodup (nodup_entries s) (nodup_entries t)).2 hmem

theorem same_of_perm {s t : Table α κ} (h : s.entries.Perm t.entries) : s.Same t := by
  intro name
  apply Option.ext
  intro value
  rw [find?_eq_some_iff, find?_eq_some_iff, h.mem_iff]

theorem find?_ofList {l : List (κ × α)} (h : (l.map Prod.fst).Nodup) (name : κ) :
    (ofList l).find? name = lookup name l := by
  rw [find?, entries_ofList h]

/-! ## Order -/

section Order

variable [Textual κ]

omit [DecidableEq κ] in
/-- A table with its entries in the order of their names' code points. -/
def inOrder (t : Table α κ) : Table α κ :=
  ⟨sortBy (fun e => wide e.1) t.entries,
    ((perm_sortBy _ t.entries).map Prod.fst).nodup_iff.2 t.nodup_names⟩

theorem inOrder_same (t : Table α κ) : t.inOrder.Same t :=
  same_of_perm (perm_sortBy _ t.entries)

end Order

/-! ## Values -/

omit [DecidableEq κ] in
theorem names_map (f : α → β) (t : Table α κ) : (t.map f).entries.map Prod.fst = t.names := by
  rw [map, List.map_map]
  rfl

theorem mem_entries_map (f : α → β) {t : Table α κ} {name : κ} {value : α}
    (h : t.find? name = some value) : (name, f value) ∈ (t.map f).entries :=
  List.mem_map.2 ⟨(name, value), find?_eq_some_iff.1 h, rfl⟩

/-- Whether all values of a table have a property. -/
def Holds (P : α → Prop) (t : Table α κ) : Prop := ∀ name value, t.find? name = some value → P value

variable {P : α → Prop}

theorem Holds.insert {t : Table α κ} (h : t.Holds P) (name : κ) {value : α} (hv : P value) :
    (t.insert name value).Holds P := by
  intro other found hf
  rw [find?_insert] at hf
  split at hf
  · cases hf; exact hv
  · exact h other found hf

theorem Holds.erase {t : Table α κ} (h : t.Holds P) (name : κ) : (t.erase name).Holds P := by
  intro other found hf
  rw [find?_erase] at hf
  split at hf
  · cases hf
  · exact h other found hf

theorem Holds.insertAll {t : Table α κ} (h : t.Holds P) {l : List (κ × α)}
    (hl : ∀ e ∈ l, P e.2) : (t.insertAll l).Holds P := by
  induction l generalizing t with
  | nil => exact h
  | cons e l ih =>
    obtain ⟨he, hrest⟩ := List.forall_mem_cons.1 hl
    exact ih (h.insert e.1 he) hrest

theorem holds_ofList {l : List (κ × α)} (hl : ∀ e ∈ l, P e.2) : (ofList l).Holds P :=
  Holds.insertAll (fun _ _ h => by cases h) hl

theorem Same.holds {s t : Table α κ} (h : s.Same t) (hs : s.Holds P) : t.Holds P :=
  fun name value hf => hs name value ((h name).trans hf)

theorem holds_iff {t : Table α κ} : t.Holds P ↔ ∀ e ∈ t.entries, P e.2 := by
  constructor
  · intro h e he
    exact h e.1 e.2 (find?_eq_some_iff.2 he)
  · intro h name value hf
    exact h (name, value) (find?_eq_some_iff.1 hf)

end Storyline.Table
