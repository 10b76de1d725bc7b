import Storyline.Event
import Storyline.Proofs.Amount
import Storyline.Proofs.Update

/-!
# Storyline.Proofs.Overreach

Where numbers get too large.  Among amounts and texts an update fails for two reasons only.
It adds to a text, which is the story's mistake; or it *overreaches*: two amounts have no
sum, or a number is too long to be read or named.  A note on costs and a summary fail only
for a number that is too long to be shown.
-/

namespace Storyline

namespace Numeral

/-- Whether a delta is short enough to be read. -/
def Legible (text : String) : Prop := (splitSign text.toList).2.length ≤ digitLimit

theorem readDelta_cases (text : String) :
    ¬Legible text ∧ (∃ fault, readDelta text = .error fault) ∨
      Legible text ∧ readDelta text = .ok (denoted text) := by
  rw [Legible, readDelta, denoted]
  cases splitSign text.toList with
  | mk negative digits =>
    simp only [readDigits]
    split
    · next h => exact .inr ⟨h, rfl⟩
    · next h => exact .inl ⟨h, _, rfl⟩

end Numeral

namespace Resources

/-! ## Updates -/

/-- What is held takes an amount: it is an amount itself, and the two are within reach of each
other. -/
def Takes (held : Json) (added : Amount) : Prop :=
  ∃ a, held = .number a ∧ ¬a.OutOfReach added

/-- An addition overreaches: two amounts have no sum, or a text is held and the amount is too
long to be named in the complaint. -/
inductive Overreaches : Json → Amount → Prop
  | sum {a added : Amount} (h : a.OutOfReach added) : Overreaches (.number a) added
  | complaint {held : String} {added : Amount} (h : ¬Json.Writable (.number added : Json)) :
    Overreaches (.string held) added

/-- What is held takes an assignment: only a delta may be turned down. -/
def TakesAssigned (held : Json) : Value → Prop
  | .number _ => True
  | .text s => Numeral.isDelta s = true →
    Numeral.Legible s ∧ Takes held (.int (Numeral.denoted s))

/-- An assignment overreaches: it is a delta that cannot be read, or that overreaches when it is
added. -/
def OverreachesAssigned (held : Json) : Value → Prop
  | .number _ => False
  | .text s => Numeral.isDelta s = true ∧
    (Numeral.Legible s → Overreaches held (.int (Numeral.denoted s)))

section Parts

variable {held : Json} (typed : held.isValue = true) (name : String)

include typed

/-- To an amount or a text an amount is added, or the addition overreaches, or it is one to a
text. -/
theorem plus_cases (added : Amount) :
    (Takes held added ∧ ¬Overreaches held added ∧
        ∃ value, plus name held (.number added) = .ok value) ∨
      (¬Takes held added ∧ Overreaches held added ∧
        ∃ fault, plus name held (.number added) = .error (.number fault)) ∨
      ¬Takes held added ∧ ¬Overreaches held added ∧
        ∃ text shown, plus name held (.number added) = .error (.textHeld name text shown) := by
  obtain ⟨v, rfl⟩ := isValue_iff.1 typed
  cases v with
  | number a =>
    rw [Value.toJson, plus_number]
    obtain ⟨h, hadd⟩ | ⟨h, sum, hadd⟩ := a.add_cases added
    · rw [hadd]
      refine .inr (.inl ⟨?_, .sum h, _, rfl⟩)
      rintro ⟨_, ⟨⟩, hn⟩
      exact hn h
    · rw [hadd]
      refine .inl ⟨⟨a, rfl, h⟩, ?_, _, rfl⟩
      rintro (hn | _)
      exact h hn
  | text s =>
    have ntakes : ¬Takes (Value.text s).toJson added := by
      rintro ⟨a, ha, -⟩
      cases ha
    rw [Value.toJson, plus, added.plain_number]
    obtain ⟨h, htext⟩ | ⟨h, shown, htext⟩ := added.text_cases
    · rw [htext]
      exact .inr (.inl ⟨ntakes, .complaint h, _, rfl⟩)
    · rw [htext]
      refine .inr (.inr ⟨ntakes, ?_, s, shown, rfl⟩)
      rintro (_ | hlong)
      exact hlong h

/-- So it is with assignments. -/
theorem assigned_cases (v : Value) :
    (TakesAssigned held v ∧ ¬OverreachesAssigned held v ∧
        ∃ value, assigned name held v.toJson = .ok value) ∨
      (¬TakesAssigned held v ∧ OverreachesAssigned held v ∧
        ∃ fault, assigned name held v.toJson = .error (.number fault)) ∨
      ¬TakesAssigned held v ∧ ¬OverreachesAssigned held v ∧
        ∃ text shown, assigned name held v.toJson = .error (.textHeld name text shown) := by
  cases v with
  | number a => exact .inl ⟨trivial, id, _, rfl⟩
  | text s =>
    by_cases delta : Numeral.isDelta s = true
    · rw [Value.toJson, assigned, if_pos delta]
      simp only [TakesAssigned, OverreachesAssigned, delta, true_and, forall_const]
      obtain ⟨h, fault, hread⟩ | ⟨h, hread⟩ := Numeral.readDelta_cases s
      · rw [hread]
        exact .inr (.inl ⟨fun hl => h hl.1, fun hl => absurd hl h, fault, rfl⟩)
      · rw [hread]
        simp only [h, true_and, forall_const]
        exact plus_cases typed name _
    · rw [Value.toJson, assigned, if_neg delta]
      exact .inl ⟨fun h => absurd h delta, fun h => delta h.1, _, rfl⟩

end Parts

section Change

variable {α β : Type} {r : Resources} {fine bad : β → Prop}
  {compute : String → Json → α → Except UpdateFault Json} {g : β → String × α} {l : List β}

/-- If each part of a change comes about, or overreaches, or adds to a text, then so does the
whole, as the first part does that does not come about. -/
theorem change_cases (parts : ∀ c ∈ l,
      (fine c ∧ ¬bad c ∧ ∃ value, compute (g c).1 (r.value (g c).1) (g c).2 = .ok value) ∨
        (¬fine c ∧ bad c ∧
          ∃ fault, compute (g c).1 (r.value (g c).1) (g c).2 = .error (.number fault)) ∨
        ¬fine c ∧ ¬bad c ∧ ∃ text shown,
          compute (g c).1 (r.value (g c).1) (g c).2 = .error (.textHeld (g c).1 text shown)) :
    ((∃ fault, r.change compute (l.map g) = .error (.number fault)) ↔ FirstAmiss fine bad l) ∧
      ∀ clash, r.change compute (l.map g) ≠ .error (.clash clash) := by
  have hfine : ∀ c ∈ l,
      (∃ value, compute (g c).1 (r.value (g c).1) (g c).2 = .ok value) ↔ fine c := by
    intro c hc
    obtain ⟨h, -, hcomp⟩ | ⟨h, -, fault, hcomp⟩ | ⟨h, -, text, shown, hcomp⟩ := parts c hc
    · exact iff_of_true hcomp h
    · exact iff_of_false (by rw [hcomp]; nofun) h
    · exact iff_of_false (by rw [hcomp]; nofun) h
  have hbad : ∀ c ∈ l,
      (∃ fault, compute (g c).1 (r.value (g c).1) (g c).2 = .error (.number fault)) ↔ bad c := by
    intro c hc
    obtain ⟨-, h, value, hcomp⟩ | ⟨-, h, hcomp⟩ | ⟨-, h, text, shown, hcomp⟩ := parts c hc
    · exact iff_of_false (by rw [hcomp]; nofun) h
    · exact iff_of_true hcomp h
    · exact iff_of_false (by rw [hcomp]; nofun) h
  constructor
  · simp only [change_error_iff, firstAmiss_map, exists_firstAmiss_iff]
    exact firstAmiss_congr hfine hbad
  · intro clash h
    rw [change_error_iff, firstAmiss_map] at h
    obtain ⟨before, c, rest, rfl, -, hcomp⟩ := h
    obtain ⟨-, -, value, hc⟩ | ⟨-, -, fault, hc⟩ | ⟨-, -, text, shown, hc⟩ := parts c (by simp)
    · rw [hc] at hcomp
      cases hcomp
    · rw [hc] at hcomp
      cases hcomp
    · rw [hc] at hcomp
      cases hcomp

end Change

end Resources

namespace Update

/-- An update overreaches: the first of its entries that is not taken does. -/
def Overreaches (r : Resources) : Update → Prop
  | .nothing => False
  | .assign assignments =>
    FirstAmiss (fun e => Resources.TakesAssigned (r.value e.1) e.2)
      (fun e => Resources.OverreachesAssigned (r.value e.1) e.2) assignments.entries
  | .gain amounts =>
    FirstAmiss (fun e => Resources.Takes (r.value e.1) e.2)
      (fun e => Resources.Overreaches (r.value e.1) e.2) amounts.entries

/-- Among amounts and texts an update fails for its numbers just if it overreaches, and never
for what goes together with what. -/
theorem apply_cases {r : Resources} (typed : r.Typed) (u : Update) :
    ((∃ fault, u.apply r = .error (.number fault)) ↔ u.Overreaches r) ∧
      ∀ clash, u.apply r ≠ .error (.clash clash) := by
  cases u with
  | nothing => exact ⟨iff_of_false nofun id, nofun⟩
  | assign assignments =>
    exact Resources.change_cases fun e _ =>
      Resources.assigned_cases (Resources.value_typed typed e.1) e.1 e.2
  | gain amounts =>
    exact Resources.change_cases fun e _ =>
      Resources.plus_cases (Resources.value_typed typed e.1) e.1 e.2

end Update

/-! ## Texts -/

namespace Resources

/-- The names in the placeholders of a template, in order.  The first characters, so many as are
told, belong to a placeholder that is passed already. -/
def placeholders : Nat → List Char → List String
  | _, [] => []
  | passed + 1, _ :: rest => placeholders passed rest
  | 0, c :: rest =>
    match if c = '\x7b' then splitBrace? rest else none with
    | some (name, _) => String.ofList name :: placeholders (name.length + 1) rest
    | none => placeholders 0 rest

variable {r : Resources}

theorem display_cases {held : Json} (typed : held.isValue = true) :
    ¬held.Writable ∧ (∃ fault, held.display = .error fault) ∨
      held.Writable ∧ ∃ shown, held.display = .ok shown := by
  obtain ⟨v, rfl⟩ := isValue_iff.1 typed
  cases v with
  | number a =>
    obtain ⟨h, hshown⟩ | h := a.display_cases
    · exact .inl ⟨h, _, hshown⟩
    · exact .inr h
  | text s => exact .inr ⟨Json.writable_string s, _, rfl⟩

theorem fillChars_error_iff (typed : r.Typed) {passed : Nat} {cs : List Char} :
    (∃ fault, r.fillChars passed cs = .error fault) ↔
      ∃ name ∈ placeholders passed cs, ¬(r.value name).Writable := by
  induction cs generalizing passed with
  | nil => cases passed <;> exact iff_of_false nofun nofun
  | cons c rest ih =>
    cases passed with
    | succ passed => rw [fillChars, placeholders]; exact ih
    | zero =>
      rw [fillChars, placeholders]
      cases (if c = '\x7b' then splitBrace? rest else none) with
      | none =>
        simp only [← ih]
        exact exists_congr fun fault => bind_pure_error_iff
      | some split =>
        obtain ⟨name, after⟩ := split
        obtain ⟨hlong, fault, hf⟩ | ⟨hshort, shown, hs⟩ :=
          display_cases (value_typed typed (String.ofList name))
        · exact iff_of_true ⟨fault, by simp only [hf]; rfl⟩ ⟨_, List.mem_cons_self, hlong⟩
        · simp only [hs, List.mem_cons, exists_eq_or_imp, hshort, not_true_eq_false, false_or, ← ih]
          exact exists_congr fun fault => bind_pure_error_iff

/-- A template names a number that is too long to be shown. -/
def Outgrows (r : Resources) (template : String) : Prop :=
  ∃ name ∈ placeholders 0 template.toList, ¬(r.value name).Writable

theorem interpolate_error_iff (typed : r.Typed) {template : String} :
    (∃ fault, r.interpolate template = .error fault) ↔ r.Outgrows template := by
  simp only [interpolate, map_error_iff]
  exact fillChars_error_iff typed

end Resources

/-- An option asks for more than can be shown: a cost that is announced is too long. -/
def ChoiceOption.Overpriced (o : ChoiceOption) : Prop :=
  ∃ amounts, o.gain = some amounts ∧ ∃ name ∈ announcedCosts, ∃ a,
    amounts.find? name = some a ∧ a.less (.int 0) = true ∧ ¬Json.Writable (.number a : Json)

theorem priceOf_error_iff {amounts : Table Amount} {name : String} :
    (∃ fault, priceOf amounts name = .error fault) ↔ ∃ a,
      amounts.find? name = some a ∧ a.less (.int 0) = true ∧ ¬Json.Writable (.number a : Json) := by
  rw [priceOf]
  cases amounts.find? name with
  | none => exact iff_of_false nofun nofun
  | some a =>
    simp only [Option.some.injEq, exists_eq_left']
    split
    · next hless =>
      simp only [hless, true_and, map_error_iff]
      obtain ⟨h, hf⟩ | ⟨h, shown, hs⟩ := a.neg.display_cases
      · exact iff_of_true ⟨_, hf⟩ (fun hw => h (Amount.writable_neg.2 hw))
      · exact iff_of_false (by rw [hs]; nofun) (fun hn => hn (Amount.writable_neg.1 h))
    · next hless => exact iff_of_false nofun fun h => hless h.1

/-- The note on a cost fails just if a cost is too long to be shown. -/
theorem costNote_error_iff {o : ChoiceOption} :
    (∃ fault, costNote o.gain o.remark = .error fault) ↔ o.Overpriced := by
  have hprices : ∀ amounts, (∃ fault, announcedCosts.mapM (priceOf amounts) = .error fault) ↔
      ∃ name ∈ announcedCosts, ∃ a,
        amounts.find? name = some a ∧ a.less (.int 0) = true ∧
          ¬Json.Writable (.number a : Json) := by
    intro amounts
    rw [Resources.exists_mapM_error_iff]
    simp only [priceOf_error_iff]
  rw [ChoiceOption.Overpriced]
  unfold costNote
  cases o.gain with
  | none =>
    apply iff_of_false
    · rintro ⟨fault, h⟩
      cases h
    · rintro ⟨amounts, h, -⟩
      cases h
  | some amounts =>
    simp only [Option.some.injEq, exists_eq_left', ← hprices]
    exact exists_congr fun fault => bind_pure_error_iff

end Storyline
