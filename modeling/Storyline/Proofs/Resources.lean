import Storyline.Proofs.Act
import Storyline.Proofs.Table
import Storyline.Resources

/-!
# Storyline.Proofs.Resources

Laws of resources.  None of the three rules that touch them depends on the order
in which the names came in, or tells a zero that is held from one that is not.  None
puts anything but amounts and texts among amounts and texts.
-/

namespace Storyline

/-- The first member of a list that is not fine is amiss in a given way. -/
def FirstAmiss {α : Type} (fine amiss : α → Prop) (l : List α) : Prop :=
  ∃ before a rest, l = before ++ a :: rest ∧ (∀ b ∈ before, fine b) ∧ amiss a

theorem firstAmiss_map {α β : Type} {fine amiss : α → Prop} {g : β → α} {l : List β} :
    FirstAmiss fine amiss (l.map g) ↔
      FirstAmiss (fun b => fine (g b)) (fun b => amiss (g b)) l := by
  constructor
  · rintro ⟨before, a, rest, h, hbefore, ha⟩
    obtain ⟨first, others, rfl, rfl, hothers⟩ := List.map_eq_append_iff.1 h
    obtain ⟨b, after, rfl, rfl, rfl⟩ := List.map_eq_cons_iff.1 hothers
    exact ⟨first, b, after, rfl, fun c hc => hbefore _ (List.mem_map_of_mem hc), ha⟩
  · rintro ⟨before, b, rest, rfl, hbefore, hb⟩
    refine ⟨before.map g, g b, rest.map g, by rw [List.map_append, List.map_cons], ?_, hb⟩
    exact List.forall_mem_map.2 hbefore

theorem exists_firstAmiss_iff {α β : Type} {fine : α → Prop} {amiss : β → α → Prop} {l : List α} :
    (∃ b, FirstAmiss fine (amiss b) l) ↔ FirstAmiss fine (fun a => ∃ b, amiss b a) l := by
  constructor
  · rintro ⟨b, before, a, rest, h, hbefore, ha⟩
    exact ⟨before, a, rest, h, hbefore, b, ha⟩
  · rintro ⟨before, a, rest, h, hbefore, b, ha⟩
    exact ⟨b, before, a, rest, h, hbefore, ha⟩

/-- What is first amiss depends only on the members of the list. -/
theorem firstAmiss_congr {α : Type} {fine fine' amiss amiss' : α → Prop} {l : List α}
    (hfine : ∀ a ∈ l, fine a ↔ fine' a) (hamiss : ∀ a ∈ l, amiss a ↔ amiss' a) :
    FirstAmiss fine amiss l ↔ FirstAmiss fine' amiss' l := by
  constructor
  · rintro ⟨before, a, rest, rfl, hbefore, ha⟩
    exact ⟨before, a, rest, rfl,
      fun b hb => (hfine b (List.mem_append_left _ hb)).1 (hbefore b hb), (hamiss a (by simp)).1 ha⟩
  · rintro ⟨before, a, rest, rfl, hbefore, ha⟩
    exact ⟨before, a, rest, rfl,
      fun b hb => (hfine b (List.mem_append_left _ hb)).2 (hbefore b hb), (hamiss a (by simp)).2 ha⟩

namespace Resources

variable {α : Type} {r s after : Resources}

/-! ## Changes -/

section Change

variable {ε β : Type} {f : α → Except ε β} {l : List α} {values : List β}

theorem mapM_cons_ok {a : α} (h : (a :: l).mapM f = .ok values) :
    ∃ b rest, f a = .ok b ∧ l.mapM f = .ok rest ∧ values = b :: rest := by
  rw [List.mapM_cons] at h
  cases ha : f a with
  | error e => simp only [ha] at h; contradiction
  | ok b =>
    cases hl : l.mapM f with
    | error e => simp only [ha, hl] at h; contradiction
    | ok rest => rw [ha, hl] at h; cases h; exact ⟨b, rest, rfl, rfl, rfl⟩

theorem mem_of_mapM_ok (h : l.mapM f = .ok values) {a : α} (ha : a ∈ l) :
    ∃ b ∈ values, f a = .ok b := by
  induction l generalizing values with
  | nil => cases ha
  | cons c l ih =>
    obtain ⟨b, rest, hc, hl, rfl⟩ := mapM_cons_ok h
    rcases List.mem_cons.1 ha with rfl | ha
    · exact ⟨b, List.mem_cons_self, hc⟩
    · obtain ⟨d, hd, hf⟩ := ih hl ha
      exact ⟨d, List.mem_cons_of_mem _ hd, hf⟩

theorem exists_mapM_ok (h : ∀ a ∈ l, ∃ b, f a = .ok b) : ∃ values, l.mapM f = .ok values := by
  induction l with
  | nil => exact ⟨[], rfl⟩
  | cons a l ih =>
    obtain ⟨b, hb⟩ := h a List.mem_cons_self
    obtain ⟨rest, hl⟩ := ih fun a ha => h a (List.mem_cons_of_mem _ ha)
    exact ⟨b :: rest, by rw [List.mapM_cons, hb, hl]; rfl⟩

/-- Of a list the first member that fails decides. -/
theorem mapM_error_iff {e : ε} :
    l.mapM f = .error e ↔
      FirstAmiss (fun a => ∃ value, f a = .ok value) (fun a => f a = .error e) l := by
  constructor
  · intro h
    induction l with
    | nil => cases h
    | cons a rest ih =>
      rw [List.mapM_cons, bind_error_iff] at h
      obtain ha | ⟨value, ha, h⟩ := h
      · exact ⟨[], a, rest, rfl, nofun, ha⟩
      · rw [bind_error_iff] at h
        obtain h | ⟨values, -, h⟩ := h
        · obtain ⟨before, b, after, rfl, hbefore, hb⟩ := ih h
          exact ⟨a :: before, b, after, rfl, List.forall_mem_cons.2 ⟨⟨value, ha⟩, hbefore⟩, hb⟩
        · cases h
  · rintro ⟨before, a, rest, rfl, hbefore, ha⟩
    induction before with
    | nil => rw [List.nil_append, List.mapM_cons, ha]; rfl
    | cons b before ih =>
      obtain ⟨⟨value, hb⟩, hbefore⟩ := List.forall_mem_cons.1 hbefore
      rw [List.cons_append, List.mapM_cons, hb, ih hbefore]
      rfl

theorem exists_mapM_error_iff :
    (∃ e, l.mapM f = .error e) ↔ ∃ a ∈ l, ∃ e, f a = .error e := by
  constructor
  · rintro ⟨e, h⟩
    obtain ⟨before, a, rest, rfl, -, ha⟩ := mapM_error_iff.1 h
    exact ⟨a, by simp, e, ha⟩
  · rintro ⟨a, hmem, e, ha⟩
    cases h : l.mapM f with
    | error e => exact ⟨e, rfl⟩
    | ok values =>
      obtain ⟨b, -, hb⟩ := mem_of_mapM_ok h hmem
      rw [ha] at hb
      cases hb

end Change

variable {compute : String → Json → α → Except UpdateFault Json} {changes : List (String × α)}

/-- The value of a change, with its name. -/
def computed (r : Resources) (compute : String → Json → α → Except UpdateFault Json)
    (c : String × α) : Except UpdateFault (String × Json) :=
  (compute c.1 (r.value c.1) c.2).map fun value => (c.1, value)

theorem change_eq (r : Resources) (compute : String → Json → α → Except UpdateFault Json)
    (changes : List (String × α)) :
    r.change compute changes = (changes.mapM (r.computed compute)).map r.insertAll := by
  have hf : (fun c : String × α => (do
      return (c.1, ← compute c.1 (r.value c.1) c.2) : Except UpdateFault (String × Json))) =
      r.computed compute := by
    funext c
    rw [computed]
    cases compute c.1 (r.value c.1) c.2 <;> rfl
  show (changes.mapM (fun c : String × α => (do
      return (c.1, ← compute c.1 (r.value c.1) c.2) :
        Except UpdateFault (String × Json))) >>= _) = _
  rw [hf]
  cases changes.mapM (r.computed compute) <;> rfl

theorem computed_ok {c : String × α} {e : String × Json} (h : r.computed compute c = .ok e) :
    e.1 = c.1 ∧ compute c.1 (r.value c.1) c.2 = .ok e.2 := by
  rw [computed] at h
  cases hc : compute c.1 (r.value c.1) c.2 with
  | error fault => simp only [hc] at h; contradiction
  | ok value => rw [hc] at h; cases h; exact ⟨rfl, rfl⟩

theorem names_of_mapM {values : List (String × Json)}
    (h : changes.mapM (r.computed compute) = .ok values) :
    values.map Prod.fst = changes.map Prod.fst := by
  induction changes generalizing values with
  | nil => cases h; rfl
  | cons c changes ih =>
    obtain ⟨e, rest, he, hl, rfl⟩ := mapM_cons_ok h
    rw [List.map_cons, List.map_cons, ih hl, (computed_ok he).1]

theorem find?_insertAll {t : Resources} {l : List (String × Json)} (hl : (l.map Prod.fst).Nodup)
    (name : String) :
    (t.insertAll l).find? name = ((Table.lookup name l).or (t.find? name)) := by
  induction l generalizing t with
  | nil => rfl
  | cons e l ih =>
    rw [List.map_cons, List.nodup_cons] at hl
    show ((t.insert e.1 e.2).insertAll l).find? name = _
    rw [ih hl.2, Table.find?_insert, Table.lookup]
    split
    · next he =>
      rw [← he, Table.lookup_eq_none_iff.2 hl.1]
      rfl
    · rfl

/-- What a change comes to: each value is computed from the resources as they were, and
whatever is not named stays. -/
theorem change_ok (distinct : (changes.map Prod.fst).Nodup)
    (h : r.change compute changes = .ok after) :
    (∀ c ∈ changes, ∃ value, compute c.1 (r.value c.1) c.2 = .ok value ∧
      after.find? c.1 = some value) ∧
    ∀ name, name ∉ changes.map Prod.fst → after.find? name = r.find? name := by
  rw [change_eq] at h
  cases hm : changes.mapM (r.computed compute) with
  | error fault => simp only [hm] at h; contradiction
  | ok values =>
    rw [hm] at h
    cases h
    have hnames := names_of_mapM hm
    have hnodup : (values.map Prod.fst).Nodup := hnames ▸ distinct
    constructor
    · intro c hc
      obtain ⟨e, he, hcomp⟩ := mem_of_mapM_ok hm hc
      obtain ⟨hname, hvalue⟩ := computed_ok hcomp
      have hfound : (r.insertAll values).find? c.1 = some e.2 := by
        rw [find?_insertAll hnodup, ← hname, Table.lookup_of_mem hnodup he]
        rfl
      exact ⟨e.2, hvalue, hfound⟩
    · intro name hn
      rw [find?_insertAll hnodup, Table.lookup_eq_none_iff.2 (hnames ▸ hn)]
      rfl

/-- A change keeps the names there are; the new ones come after them, in the order of the
changes. -/
theorem names_change (distinct : (changes.map Prod.fst).Nodup)
    (h : r.change compute changes = .ok after) :
    after.names =
      r.names ++ (changes.map Prod.fst).filter fun name => decide (name ∉ r.names) := by
  rw [change_eq] at h
  obtain ⟨values, hm, rfl⟩ := map_ok_iff.1 h
  rw [← names_of_mapM hm] at distinct ⊢
  exact Table.names_insertAll distinct

/-- A change comes about if every one of its values can be computed. -/
theorem exists_change_ok
    (h : ∀ c ∈ changes, ∃ value, compute c.1 (r.value c.1) c.2 = .ok value) :
    ∃ after, r.change compute changes = .ok after := by
  have hcomputed : ∀ c ∈ changes, ∃ e, r.computed compute c = .ok e := by
    intro c hc
    obtain ⟨value, hvalue⟩ := h c hc
    exact ⟨(c.1, value), by rw [computed, hvalue]; rfl⟩
  obtain ⟨values, hv⟩ := exists_mapM_ok hcomputed
  exact ⟨r.insertAll values, by rw [change_eq, hv]; rfl⟩

theorem computed_error_iff {c : String × α} {fault : UpdateFault} :
    r.computed compute c = .error fault ↔ compute c.1 (r.value c.1) c.2 = .error fault :=
  map_error_iff

theorem exists_computed_iff {c : String × α} :
    (∃ e, r.computed compute c = .ok e) ↔ ∃ value, compute c.1 (r.value c.1) c.2 = .ok value := by
  rw [computed]
  cases compute c.1 (r.value c.1) c.2 <;> simp [Except.map]

/-- The first of the changes that cannot be made decides why the whole change is not. -/
theorem change_error_iff {fault : UpdateFault} : r.change compute changes = .error fault ↔
    FirstAmiss (fun c => ∃ value, compute c.1 (r.value c.1) c.2 = .ok value)
      (fun c => compute c.1 (r.value c.1) c.2 = .error fault) changes := by
  rw [change_eq, map_error_iff, mapM_error_iff]
  simp only [exists_computed_iff, computed_error_iff]

/-! ## Likeness -/

/-- Resources tally if every name has the same value in both.  A name that was never set has
the value zero, so the one may hold a zero where the other holds nothing. -/
def Tally (r s : Resources) : Prop := ∀ name, r.value name = s.value name

theorem value_insert (r : Resources) (name other : String) (held : Json) :
    value (r.insert name held) other = if name = other then held else r.value other := by
  rw [value, Table.find?_insert]
  split
  · rfl
  · rw [value]

theorem tally_of_same (h : r.Same s) : r.Tally s := by
  intro name
  rw [value, value, h name]

theorem Tally.insertAll (h : r.Tally s) (l : List (String × Json)) :
    Tally (r.insertAll l) (s.insertAll l) := by
  induction l generalizing r s with
  | nil => exact h
  | cons e l ih =>
    apply ih
    intro name
    simp only [value_insert, h name]

/-- Resources that tally differ at most in zeros that only one of them holds. -/
theorem tally_iff : r.Tally s ↔ ∀ name, r.find? name = s.find? name ∨
    r.find? name = some unset ∧ s.find? name = none ∨
    r.find? name = none ∧ s.find? name = some unset := by
  constructor
  · intro h name
    have hname := h name
    rw [value, value] at hname
    cases hr : r.find? name with
    | none =>
      cases hs : s.find? name with
      | none => simp
      | some held => simp_all
    | some held =>
      cases hs : s.find? name with
      | none => simp_all
      | some other => simp_all
  · intro h name
    rw [value, value]
    obtain h | ⟨hr, hs⟩ | ⟨hr, hs⟩ := h name
    · rw [h]
    · simp [hr, hs]
    · simp [hr, hs]

/-- A likeness of resources that tally which the rules keep. -/
structure Tallying (E : Resources → Resources → Prop) : Prop where
  tally : ∀ {r s}, E r s → r.Tally s
  insertAll : ∀ {r s}, E r s → ∀ l, E (r.insertAll l) (s.insertAll l)

theorem tallying_tally : Tallying Tally := ⟨id, Tally.insertAll⟩

/-- A likeness of resources that the rules keep and cannot tell from equality. -/
structure Likeness (E : Resources → Resources → Prop) : Prop where
  same : ∀ {r s}, E r s → r.Same s
  insertAll : ∀ {r s}, E r s → ∀ l, E (r.insertAll l) (s.insertAll l)

theorem likeness_same : Likeness Table.Same := ⟨id, Table.Same.insertAll⟩

theorem likeness_eq : Likeness Eq := ⟨fun h => h ▸ .refl _, fun h _ => h ▸ rfl⟩

theorem Likeness.tallying {E : Resources → Resources → Prop} (likeness : Likeness E) :
    Tallying E :=
  ⟨fun h => tally_of_same (likeness.same h), likeness.insertAll⟩

section Tallying

variable {E : Resources → Resources → Prop} (tallying : Tallying E) (h : E r s)

include tallying h

theorem change_agree (compute : String → Json → α → Except UpdateFault Json)
    (changes : List (String × α)) :
    Agree E (r.change compute changes) (s.change compute changes) := by
  have hc : r.computed compute = s.computed compute := by
    funext c
    rw [computed, computed, tallying.tally h]
  rw [change_eq, change_eq, hc]
  cases changes.mapM (s.computed compute) with
  | error fault => exact .error fault
  | ok values => exact .ok (tallying.insertAll h values)

theorem gain_agree (g : Option (Table Amount)) : Agree E (r.gain g) (s.gain g) := by
  cases g with
  | none => exact .ok h
  | some amounts => exact change_agree tallying h plus _

theorem assign_agree (assignments : Table Json) :
    Agree E (r.assign assignments) (s.assign assignments) :=
  change_agree tallying h assigned _

end Tallying

theorem judge_of_tally (h : r.Tally s) (thresholds : List (String × Json)) :
    r.judge thresholds = s.judge thresholds := by
  induction thresholds with
  | nil => rfl
  | cons e rest ih =>
    obtain ⟨name, threshold⟩ := e
    rw [judge, judge, h name, ih]

theorem verdict_of_tally (h : r.Tally s) (requirement : Option (Table Amount)) :
    r.verdict requirement = s.verdict requirement := by
  cases requirement with
  | none => rfl
  | some requirement => exact judge_of_tally h _

theorem meets_of_tally (h : r.Tally s) (requirement : Option (Table Amount)) :
    r.meets requirement = s.meets requirement := by
  rw [meets, meets, verdict_of_tally h]

theorem fillChars_of_tally (h : r.Tally s) (filled : Nat) (cs : List Char) :
    r.fillChars filled cs = s.fillChars filled cs := by
  induction cs generalizing filled with
  | nil => cases filled <;> rfl
  | cons c rest ih =>
    cases filled with
    | zero =>
      rw [fillChars, fillChars]
      split
      · next name _ _ => rw [h (String.ofList name), ih]
      · rw [ih]
    | succ filled => rw [fillChars, fillChars, ih]

theorem interpolate_of_tally (h : r.Tally s) (template : String) :
    r.interpolate template = s.interpolate template := by
  rw [interpolate, interpolate, fillChars_of_tally h]

/-! ## Assigning again -/

/-- Assignments made again change nothing just if each of them leaves its own resource
as it is. -/
theorem assign_again {assignments : Table Json} {settled : Resources}
    (h : r.assign assignments = .ok settled) :
    (∃ again, settled.assign assignments = .ok again ∧ again.Same settled) ↔
      ∀ e ∈ assignments.entries,
        assigned e.1 (settled.value e.1) e.2 = .ok (settled.value e.1) := by
  have stored : ∀ e ∈ assignments.entries, settled.find? e.1 = some (settled.value e.1) := by
    intro e he
    obtain ⟨v, -, hv⟩ := (change_ok assignments.nodup_names h).1 e he
    rw [value, hv]
    rfl
  constructor
  · rintro ⟨again, ha, hsame⟩ e he
    obtain ⟨v, hv, hfound⟩ := (change_ok assignments.nodup_names ha).1 e he
    rw [hsame e.1, stored e he] at hfound
    cases hfound
    exact hv
  · intro hkeep
    obtain ⟨again, ha⟩ := exists_change_ok fun e he => ⟨_, hkeep e he⟩
    obtain ⟨hnamed, hother⟩ := change_ok assignments.nodup_names ha
    have hsame : again.Same settled := by
      intro name
      by_cases hn : name ∈ assignments.entries.map Prod.fst
      · obtain ⟨e, he, rfl⟩ := List.mem_map.1 hn
        obtain ⟨v, hv, hfound⟩ := hnamed e he
        rw [hkeep e he] at hv
        cases hv
        rw [hfound, stored e he]
      · exact hother name hn
    exact ⟨again, ha, hsame⟩

/-! ## Amounts and texts -/

/-- The JSON values that are amounts or texts. -/
theorem isValue_iff {τ : Type} {j : Json τ} :
    j.isValue = true ↔ ∃ v : Value τ, j = v.toJson := by
  constructor
  · intro h
    cases j with
    | number a => exact ⟨.number a, rfl⟩
    | string s => exact ⟨.text s, rfl⟩
    | _ => cases h
  · rintro ⟨v, rfl⟩
    exact v.isValue_toJson

/-- Whether all that is held are amounts and texts. -/
def Typed {τ : Type} [DecidableEq τ] (r : Resources τ) : Prop :=
  r.Holds fun value => value.isValue = true

theorem typed_inOrder {τ : Type} [Textual τ] [DecidableEq τ] {r : Resources τ} (h : r.Typed) :
    Typed r.inOrder :=
  r.inOrder_same.symm.holds h

theorem value_typed (h : r.Typed) (name : String) : (r.value name).isValue = true := by
  rw [value]
  cases hf : r.find? name with
  | none => rfl
  | some v => exact h name v hf

/-- Amounts and texts go together with every threshold. -/
theorem exists_judge (h : r.Typed) (thresholds : List (String × Amount)) :
    ∃ verdict, r.judge (thresholds.map fun e => (e.1, .number e.2)) = .ok verdict := by
  induction thresholds with
  | nil => exact ⟨.met, rfl⟩
  | cons e rest ih =>
    obtain ⟨v, hv⟩ := isValue_iff.1 (value_typed h e.1)
    rw [List.map_cons, judge, hv]
    cases v with
    | text s => exact ⟨_, rfl⟩
    | number a =>
      simp only [Value.toJson, Json.less_number]
      cases a.less e.2 with
      | true => exact ⟨.unmet, rfl⟩
      | false => exact ih

theorem exists_meets (h : r.Typed) (requirement : Option (Table Amount)) :
    ∃ met, r.meets requirement = .ok met := by
  cases requirement with
  | none => exact ⟨_, rfl⟩
  | some thresholds =>
    obtain ⟨verdict, hverdict⟩ := exists_judge h thresholds.entries
    exact ⟨_, map_ok_iff.2 ⟨verdict, hverdict, rfl⟩⟩

/-- To an amount or a text only amounts can be added, and they leave an amount. -/
theorem plus_typed {name : String} {held added value : Json} (hh : held.isValue = true)
    (ha : added.isValue = true) (h : plus name held added = .ok value) : value.isValue = true := by
  cases held with
  | number a =>
    cases added with
    | number b =>
      rw [plus_number] at h
      cases hab : a.add b with
      | error fault => simp only [hab] at h; contradiction
      | ok c => rw [hab] at h; cases h; rfl
    | string s => cases h
    | _ => cases ha
  | string s =>
    rw [plus] at h
    cases hp : added.plain with
    | ok shown => simp only [hp] at h; contradiction
    | error fault => simp only [hp] at h; contradiction
  | _ => cases hh

theorem assigned_typed {name : String} {held value : Json} (hh : held.isValue = true) (v : Value)
    (h : assigned name held v.toJson = .ok value) : value.isValue = true := by
  cases v with
  | number a => cases h; rfl
  | text s =>
    rw [Value.toJson, assigned] at h
    split at h
    · cases hd : Numeral.readDelta s with
      | error fault => simp only [hd] at h; contradiction
      | ok n => rw [hd] at h; exact plus_typed hh rfl h
    · cases h; rfl

theorem change_typed (hr : r.Typed) (distinct : (changes.map Prod.fst).Nodup)
    (hc : ∀ c ∈ changes, ∀ held value, held.isValue = true →
      compute c.1 held c.2 = .ok value → value.isValue = true)
    (h : r.change compute changes = .ok after) : after.Typed := by
  obtain ⟨hnamed, hother⟩ := change_ok distinct h
  intro name value hf
  by_cases hn : name ∈ changes.map Prod.fst
  · obtain ⟨c, hmem, rfl⟩ := List.mem_map.1 hn
    obtain ⟨computed, hcomp, hfound⟩ := hnamed c hmem
    rw [hf] at hfound
    cases hfound
    exact hc c hmem _ _ (value_typed hr c.1) hcomp
  · exact hr name value ((hother name hn).symm.trans hf)

theorem gain_typed (hr : r.Typed) {g : Option (Table Amount)} (h : r.gain g = .ok after) :
    after.Typed := by
  cases g with
  | none => cases h; exact hr
  | some amounts =>
    have hadded : ∀ c ∈ (amounts.map Json.number).entries, ∀ held value, held.isValue = true →
        plus c.1 held c.2 = .ok value → value.isValue = true := by
      intro c hc held value hh hplus
      obtain ⟨e, -, rfl⟩ := List.mem_map.1 hc
      exact plus_typed hh rfl hplus
    exact change_typed hr (amounts.map Json.number).nodup_names hadded h

theorem assign_typed (hr : r.Typed) {assignments : Table Value}
    (h : r.assign (assignments.map Value.toJson) = .ok after) : after.Typed := by
  have hassigned : ∀ c ∈ (assignments.map Value.toJson).entries, ∀ held value,
      held.isValue = true → assigned c.1 held c.2 = .ok value → value.isValue = true := by
    intro c hc held value hh hvalue
    obtain ⟨e, -, rfl⟩ := List.mem_map.1 hc
    exact assigned_typed hh e.2 hvalue
  exact change_typed hr (assignments.map Value.toJson).nodup_names hassigned h

end Resources

end Storyline
