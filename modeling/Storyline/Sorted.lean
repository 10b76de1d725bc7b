/-!
# Storyline.Sorted

Putting things in the order of their names.  Things of one name stay in the order
they came in.  The result is a rearrangement in which no name comes before a
smaller one, and where all names differ it depends only on which things there are.
Names can be whatever has a linear order.
-/

namespace Storyline

variable {α κ : Type} [LT κ] [DecidableLT κ] (name : α → κ)

/-- Puts a thing in its place among things in order, before those of its own name. -/
def insertBy (a : α) : List α → List α
  | [] => [a]
  | b :: rest => if name b < name a then b :: insertBy a rest else a :: b :: rest

/-- The things in the order of their names. -/
def sortBy (things : List α) : List α := things.foldr (insertBy name) []

theorem perm_insertBy (a : α) (things : List α) : (insertBy name a things).Perm (a :: things) := by
  induction things with
  | nil => exact .refl _
  | cons b rest ih =>
    rw [insertBy]
    split
    · exact (ih.cons b).trans (.swap a b rest)
    · exact .refl _

/-- Sorting only rearranges. -/
theorem perm_sortBy (things : List α) : (sortBy name things).Perm things := by
  induction things with
  | nil => exact .refl _
  | cons a rest ih => exact (perm_insertBy name a (sortBy name rest)).trans (ih.cons a)

omit [LT κ] [DecidableLT κ] in
/-- Where all names differ, a thing is known by its name. -/
theorem eq_of_name_eq {things : List α} (distinct : (things.map name).Nodup) {a b : α}
    (ha : a ∈ things) (hb : b ∈ things) (h : name a = name b) : a = b := by
  induction things with
  | nil => cases ha
  | cons c rest ih =>
    obtain ⟨hc, hrest⟩ := List.nodup_cons.1 distinct
    rcases List.mem_cons.1 ha with rfl | ha' <;> rcases List.mem_cons.1 hb with rfl | hb'
    · rfl
    · exact absurd (h ▸ List.mem_map_of_mem hb') hc
    · exact absurd (h ▸ List.mem_map_of_mem ha') hc
    · exact ih hrest ha' hb'

section Order

variable [LE κ] [Std.IsLinearOrder κ] [Std.LawfulOrderLT κ]

theorem pairwise_insertBy (a : α) {things : List α}
    (h : things.Pairwise fun a b => name a ≤ name b) :
    (insertBy name a things).Pairwise fun a b => name a ≤ name b := by
  induction things with
  | nil => exact List.pairwise_singleton _ a
  | cons b rest ih =>
    obtain ⟨hb, hrest⟩ := List.pairwise_cons.1 h
    rw [insertBy]
    split
    · next hlt =>
      refine List.pairwise_cons.2 ⟨fun c hc => ?_, ih hrest⟩
      rcases List.mem_cons.1 ((perm_insertBy name a rest).mem_iff.1 hc) with rfl | hc
      · exact Std.le_of_lt hlt
      · exact hb c hc
    · next hlt =>
      have hab : name a ≤ name b := Std.not_lt.1 hlt
      refine List.pairwise_cons.2 ⟨fun c hc => ?_, h⟩
      rcases List.mem_cons.1 hc with rfl | hc
      · exact hab
      · exact Std.le_trans hab (hb c hc)

/-- Sorted things are in order. -/
theorem pairwise_sortBy (things : List α) :
    (sortBy name things).Pairwise fun a b => name a ≤ name b := by
  induction things with
  | nil => exact .nil
  | cons a rest ih => exact pairwise_insertBy name a ih

/-- Where all names differ, things in any arrangement sort to the same list. -/
theorem sortBy_eq_of_perm {things others : List α} (h : things.Perm others)
    (distinct : (things.map name).Nodup) : sortBy name things = sortBy name others := by
  refine List.Perm.eq_of_pairwise (fun a b ha hb hab hba => ?_) (pairwise_sortBy name things)
    (pairwise_sortBy name others)
    ((perm_sortBy name things).trans (h.trans (perm_sortBy name others).symm))
  exact eq_of_name_eq name distinct ((perm_sortBy name things).mem_iff.1 ha)
    (h.mem_iff.2 ((perm_sortBy name others).mem_iff.1 hb)) (Std.le_antisymm hab hba)

/-- Things in order stay as they are. -/
theorem sortBy_of_pairwise {things : List α} (h : things.Pairwise fun a b => name a ≤ name b) :
    sortBy name things = things := by
  induction things with
  | nil => rfl
  | cons a rest ih =>
    obtain ⟨ha, hrest⟩ := List.pairwise_cons.1 h
    show insertBy name a (sortBy name rest) = a :: rest
    rw [ih hrest]
    cases rest with
    | nil => rfl
    | cons b rest => rw [insertBy, if_neg (Std.not_lt.2 (ha b List.mem_cons_self))]

end Order

/-- Changing things but not their names does not change their order. -/
theorem sortBy_map {β : Type} {name' : β → κ} {f : α → β} (h : ∀ a, name' (f a) = name a)
    (things : List α) : sortBy name' (things.map f) = (sortBy name things).map f := by
  have hinsert : ∀ a l, insertBy name' (f a) (l.map f) = (insertBy name a l).map f := by
    intro a l
    induction l with
    | nil => rfl
    | cons b l ih =>
      rw [List.map_cons, insertBy, insertBy, h, h, ih]
      split <;> rfl
  induction things with
  | nil => rfl
  | cons a rest ih =>
    show insertBy name' (f a) (sortBy name' (rest.map f)) =
      (insertBy name a (sortBy name rest)).map f
    rw [ih, hinsert]

end Storyline
