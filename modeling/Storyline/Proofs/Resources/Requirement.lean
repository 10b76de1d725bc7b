import Storyline.Proofs.Binary64.Nearest
import Storyline.Proofs.Resources
import Storyline.Run.Step

/-!
# Storyline.Proofs.Resources.Requirement

When a requirement is met.  An amount *reaches* another if it is at least as large, by the exact
values of both.  A threshold counts as reached unless what is held is less, and on NaN the two part:
NaN is not less than anything and reaches nothing, and so it is with a threshold that is NaN.
-/

namespace Storyline

/-! ## Reaching -/

namespace Amount

/-- The exact value of an amount that is finite. -/
def rational? : Amount → Option Rat
  | .int n => some n
  | .real (.finite negative rank) =>
    some ((Binary64.signed negative (Binary64.units rank) : Rat) / (Binary64.one : Rat))
  | .real _ => none

/-- An amount is at least as large as another.  NaN is not as large as anything, nor is anything as
large as NaN. -/
inductive Reaches : Amount → Amount → Prop
  | finite {a b : Amount} {p q : Rat} (ha : a.rational? = some p) (hb : b.rational? = some q)
    (h : q ≤ p) : Reaches a b
  | infinite {b : Amount} (hb : b ≠ .real .nan) : Reaches (.real (.infinity false)) b
  | boundless {a : Amount} (ha : a ≠ .real .nan) : Reaches a (.real (.infinity true))

/-- One of two amounts is NaN. -/
def Unordered (a b : Amount) : Prop := a = .real .nan ∨ b = .real .nan

instance (a b : Amount) : Decidable (a.Unordered b) := inferInstanceAs (Decidable (_ ∨ _))

variable {a b : Amount}

theorem Reaches.not_unordered (h : a.Reaches b) : ¬a.Unordered b := by
  rintro (rfl | rfl)
  · cases h with
    | finite ha => cases ha
    | boundless ha => exact ha rfl
  · cases h with
    | finite _ hb => cases hb
    | infinite hb => exact hb rfl

theorem extent_cases (a : Amount) :
    a = .real .nan ∨ (∃ negative, a = .real (.infinity negative)) ∨ ∃ p, a.rational? = some p := by
  cases a with
  | int n => exact .inr (.inr ⟨_, rfl⟩)
  | real x =>
    cases x with
    | nan => exact .inl rfl
    | infinity negative => exact .inr (.inl ⟨negative, rfl⟩)
    | finite negative rank => exact .inr (.inr ⟨_, rfl⟩)

/-- A finite amount stands at its value, told in units. -/
theorem standing_of_rational {p : Rat} (h : a.rational? = some p) :
    ∃ units : Int, a.standing = .at units ∧ p * (Binary64.one : Rat) = units := by
  have hone : (Binary64.one : Rat) ≠ 0 := Rat.ne_of_gt (Rat.natCast_pos.2 Binary64.one_pos)
  cases a with
  | int n =>
    cases h
    exact ⟨n * Binary64.one, rfl, (Rat.intCast_mul n Binary64.one).symm⟩
  | real x =>
    cases x with
    | finite negative rank =>
      cases h
      exact ⟨_, rfl, Rat.div_mul_cancel hone⟩
    | nan | infinity negative => cases h

/-- A double whose value is a whole number is that number. -/
theorem toInt?_of_rational {x : Binary64} {n : Int} (h : (real x).rational? = some (n : Rat)) :
    x.toInt? = some n := by
  obtain ⟨units, hstanding, hunits⟩ := standing_of_rational h
  have hvalue : n * (Binary64.one : Int) = units := by
    rw [← Rat.intCast_inj, ← hunits, Rat.intCast_mul]
    rfl
  rw [Binary64.toInt?_eq_some_iff, hvalue]
  exact hstanding

/-- Finite amounts compare by their values. -/
theorem less_of_rational {p q : Rat} (ha : a.rational? = some p) (hb : b.rational? = some q) :
    a.less b = decide (p < q) := by
  obtain ⟨m, hm, hp⟩ := standing_of_rational ha
  obtain ⟨n, hn, hq⟩ := standing_of_rational hb
  have hlt : m < n ↔ p < q := by
    rw [← Rat.intCast_lt_intCast, ← hp, ← hq]
    exact Rat.mul_lt_mul_right (Rat.natCast_pos.2 Binary64.one_pos)
  rw [less, hm, hn]
  exact decide_eq_decide.2 hlt

theorem reaches_of_rational {p q : Rat} (ha : a.rational? = some p) (hb : b.rational? = some q) :
    a.Reaches b ↔ q ≤ p := by
  constructor
  · intro h
    cases h with
    | finite ha' hb' h =>
      obtain rfl := Option.some.inj (ha.symm.trans ha')
      obtain rfl := Option.some.inj (hb.symm.trans hb')
      exact h
    | infinite => cases ha
    | boundless => cases hb
  · exact .finite ha hb

theorem less_of_unordered (h : a.Unordered b) : a.less b = false := by
  obtain rfl | rfl := h
  · rfl
  · rw [less]
    cases a.standing <;> rfl

theorem not_less_infinity_iff {negative : Bool} (h : ¬a.Unordered (.real (.infinity negative))) :
    a.less (.real (.infinity negative)) = false ↔ a.Reaches (.real (.infinity negative)) := by
  cases negative with
  | true =>
    refine iff_of_true ?_ (.boundless fun ha => h (.inl ha))
    rw [less]
    cases a.standing <;> rfl
  | false =>
    obtain rfl | ⟨negative, rfl⟩ | ⟨p, hp⟩ := a.extent_cases
    · exact absurd (.inl rfl) h
    · cases negative with
      | false => exact iff_of_true rfl (.infinite (by decide))
      | true =>
        refine iff_of_false (by decide) fun h => ?_
        cases h with
        | finite ha => cases ha
    · obtain ⟨n, hn, -⟩ := standing_of_rational hp
      rw [less, hn]
      refine iff_of_false Bool.true_eq_false.mp fun h => ?_
      cases h with
      | finite _ hb => cases hb
      | infinite => cases hp

theorem infinity_not_less_iff {negative : Bool} {q : Rat} (hb : b.rational? = some q) :
    less (.real (.infinity negative)) b = false ↔ Reaches (.real (.infinity negative)) b := by
  have hnan : b ≠ .real .nan := by
    rintro rfl
    cases hb
  obtain ⟨n, hn, -⟩ := standing_of_rational hb
  rw [less, hn]
  cases negative with
  | false => exact iff_of_true rfl (.infinite hnan)
  | true =>
    refine iff_of_false Bool.true_eq_false.mp fun h => ?_
    cases h with
    | finite ha => cases ha
    | boundless => cases hb

/-- An amount is not less than another just if it reaches it, or one of them is NaN. -/
theorem not_less_iff : a.less b = false ↔ a.Reaches b ∨ a.Unordered b := by
  by_cases h : a.Unordered b
  · exact iff_of_true (less_of_unordered h) (.inr h)
  · simp only [h, or_false]
    obtain rfl | ⟨negative, rfl⟩ | ⟨q, hq⟩ := b.extent_cases
    · exact absurd (.inr rfl) h
    · exact not_less_infinity_iff h
    · obtain rfl | ⟨negative, rfl⟩ | ⟨p, hp⟩ := a.extent_cases
      · exact absurd (.inl rfl) h
      · exact infinity_not_less_iff hq
      · rw [less_of_rational hp hq, reaches_of_rational hp hq, decide_eq_false_iff_not, Rat.not_lt]

end Amount

/-! ## Requirements -/

namespace Json

/-- What is held is an amount, and it reaches a threshold. -/
def Reaches : Json → Amount → Prop
  | .number a, threshold => a.Reaches threshold
  | _, _ => False

/-- What is held is an amount, and it or the threshold is NaN. -/
def Unordered : Json → Amount → Prop
  | .number a, threshold => a.Unordered threshold
  | _, _ => False

variable {a threshold : Amount} {s : String}

@[simp] theorem reaches_number : (number a).Reaches threshold ↔ a.Reaches threshold := Iff.rfl

@[simp] theorem unordered_number : (number a).Unordered threshold ↔ a.Unordered threshold := Iff.rfl

@[simp] theorem not_reaches_string : ¬(string s).Reaches threshold := id

@[simp] theorem not_unordered_string : ¬(string s).Unordered threshold := id

instance : (held : Json) → (threshold : Amount) → Decidable (held.Unordered threshold)
  | .number a, threshold => inferInstanceAs (Decidable (a.Unordered threshold))
  | .null, _ | .bool _, _ | .string _, _ | .array _, _ | .object _, _ => .isFalse id

theorem Reaches.not_unordered {held : Json} (h : held.Reaches threshold) :
    ¬held.Unordered threshold := by
  cases held with
  | number a => exact Amount.Reaches.not_unordered h
  | _ => exact id

end Json

namespace Resources

/-- The thresholds that a requirement sets. -/
def thresholds : Option (Table Amount) → List (String × Amount)
  | none => []
  | some requirement => requirement.entries

section Typed

variable {r : Resources} (typed : r.Typed)

include typed

/-- Among amounts and texts, thresholds are met if each is reached or no matter of order. -/
theorem judge_met_iff {asked : List (String × Amount)} :
    r.judge (asked.map fun e => (e.1, .number e.2)) = .ok .met ↔
      ∀ e ∈ asked, (r.value e.1).Reaches e.2 ∨ (r.value e.1).Unordered e.2 := by
  -- Judging stops at the first threshold that is missed; the others make no difference then.
  induction asked with
  | nil => simp [judge]
  | cons e rest ih =>
    obtain ⟨v, hv⟩ := isValue_iff.1 (value_typed typed e.1)
    rw [List.map_cons, List.forall_mem_cons, judge, hv]
    cases v with
    | text s => simp [Value.toJson]
    | number a =>
      simp only [Value.toJson, Json.less_number, Json.reaches_number, Json.unordered_number,
        ← Amount.not_less_iff]
      cases a.less e.2 with
      | true => simp
      | false => simpa using ih

theorem meets_iff {requirement : Option (Table Amount)} :
    r.meets requirement = .ok true ↔ ∀ e ∈ thresholds requirement,
      (r.value e.1).Reaches e.2 ∨ (r.value e.1).Unordered e.2 := by
  cases requirement with
  | none => simp [meets, verdict, thresholds, Except.map]
  | some requirement =>
    rw [thresholds, ← judge_met_iff typed, meets, map_ok_iff]
    constructor
    · rintro ⟨verdict, hverdict, hmet⟩
      obtain rfl : verdict = .met := by simpa using hmet
      exact hverdict
    · intro h
      exact ⟨.met, h, rfl⟩

/-- The order of the thresholds does not matter. -/
theorem meets_of_perm {requirement other : Option (Table Amount)}
    (h : (thresholds requirement).Perm (thresholds other)) :
    r.meets other = r.meets requirement := by
  obtain ⟨met, hmet⟩ := exists_meets typed requirement
  obtain ⟨met', hmet'⟩ := exists_meets typed other
  have hiff : r.meets other = .ok true ↔ r.meets requirement = .ok true := by
    simp only [meets_iff typed, h.mem_iff]
  rw [hmet, hmet', Except.ok.injEq, Except.ok.injEq] at hiff
  rw [hmet, hmet', Bool.eq_iff_iff.2 hiff]

/-- Whether a requirement is met always has an answer, and finding it leaves the resources alone.
The requirement is met if what is held under each of its names reaches the threshold, or the two
cannot be compared because one of them is NaN; the order of the thresholds does not matter.  So it
is met just if all its thresholds are reached, unless some cannot be compared and none is missed. -/
theorem requirement_met_iff (requirement : Option (Table Amount)) :
    ∃ met : Bool, r.meets requirement = .ok met ∧
      (met = true ↔ ∀ e ∈ thresholds requirement,
        (r.value e.1).Reaches e.2 ∨ (r.value e.1).Unordered e.2) ∧
      ((met = true ↔ ∀ e ∈ thresholds requirement, (r.value e.1).Reaches e.2) ↔
        ((∃ e ∈ thresholds requirement, (r.value e.1).Unordered e.2) →
          ∃ e ∈ thresholds requirement,
            ¬((r.value e.1).Reaches e.2 ∨ (r.value e.1).Unordered e.2))) ∧
      (∀ other, (thresholds requirement).Perm (thresholds other) → r.meets other = .ok met) ∧
      ∀ {ε : Type} (id onPass onFail : String),
        (Node.check requirement onPass onFail).beat (ε := ε) id r =
          .ok ⟨r, [], .go (if met then onPass else onFail)⟩ := by
  obtain ⟨met, hmet⟩ := exists_meets typed requirement
  have hiff : met = true ↔ ∀ e ∈ thresholds requirement,
      (r.value e.1).Reaches e.2 ∨ (r.value e.1).Unordered e.2 := by
    rw [← meets_iff typed, hmet, Except.ok.injEq]
  refine ⟨met, hmet, hiff, ?_, fun other h => (meets_of_perm typed h).trans hmet,
    fun id onPass onFail => by rw [Node.beat, hmet]⟩
  rw [hiff]
  constructor
  · rintro h ⟨e, he, unordered⟩
    by_cases missed : ∃ e ∈ thresholds requirement,
        ¬((r.value e.1).Reaches e.2 ∨ (r.value e.1).Unordered e.2)
    · exact missed
    · have all : ∀ e ∈ thresholds requirement,
          (r.value e.1).Reaches e.2 ∨ (r.value e.1).Unordered e.2 :=
        fun e he => Classical.byContradiction fun hn => missed ⟨e, he, hn⟩
      exact absurd unordered (h.1 all e he).not_unordered
  · intro h
    refine ⟨fun all e he => ?_, fun reached e he => .inl (reached e he)⟩
    refine (all e he).resolve_right fun unordered => ?_
    obtain ⟨m, hm, missed⟩ := h ⟨e, he, unordered⟩
    exact missed (all m hm)

end Typed

/-- A purse opens a gate in either order of what it asks for.  The gold in it is one more than the
fee, and no double. -/
theorem purse_opens_gate :
    let r : Resources := Table.ofList [("gold", .number (.int 9007199254740993)),
      ("mood", .string "calm"), ("luck", .number (.real (.infinity false)))]
    let fee : Amount := .real (Binary64.ofDecimal false 9007199254740992 0)
    let gate : Table Amount := Table.ofList [("gold", fee), ("luck", .int 1), ("debt", .int 0)]
    let back : Table Amount := Table.ofList [("debt", .int 0), ("luck", .int 1), ("gold", fee)]
    r.Typed ∧ r.meets (some gate) = .ok true ∧ r.meets (some back) = .ok true ∧
      (∀ e ∈ gate.entries, (r.value e.1).Reaches e.2) ∧
      r.meets (some (Table.ofList [("luck", .int 1), ("mood", .int 0)])) = .ok false := by
  intro r fee gate back
  have typed : r.Typed := Table.holds_iff.2 (by decide +kernel)
  have perm : (thresholds (some gate)).Perm (thresholds (some back)) := by decide +kernel
  have ordered : ¬∃ e ∈ thresholds (some gate), (r.value e.1).Unordered e.2 := by decide +kernel
  have opens : r.meets (some gate) = .ok true := by decide +kernel
  obtain ⟨met, hmet, -, hreached, horder, -⟩ := requirement_met_iff typed (some gate)
  obtain rfl : met = true := Except.ok.inj (hmet.symm.trans opens)
  have reached := (hreached.2 fun unordered => absurd unordered ordered).1 rfl
  exact ⟨typed, opens, horder _ perm, reached, by decide +kernel⟩

/-- NaN meets a threshold that it does not reach, and so does what is held where NaN is asked
for. -/
theorem nan_opens_gate :
    let gold (a : Amount) : Resources := Table.ofList [("gold", .number a)]
    let gate (a : Amount) : Table Amount := Table.ofList [("gold", a)]
    ((gold (.real .nan)).Typed ∧ (gold (.real .nan)).meets (some (gate (.int 1))) = .ok true ∧
      ¬∀ e ∈ (gate (.int 1)).entries, ((gold (.real .nan)).value e.1).Reaches e.2) ∧
    (gold (.int 5)).Typed ∧ (gold (.int 5)).meets (some (gate (.real .nan))) = .ok true ∧
      ¬∀ e ∈ (gate (.real .nan)).entries, ((gold (.int 5)).value e.1).Reaches e.2 := by
  intro gold gate
  refine ⟨⟨Table.holds_iff.2 (by decide), by decide, fun h => ?_⟩,
    Table.holds_iff.2 (by decide), by decide, fun h => ?_⟩
  · exact (h ("gold", .int 1) List.mem_cons_self).not_unordered (.inl rfl)
  · exact (h ("gold", .real .nan) List.mem_cons_self).not_unordered (.inr rfl)

end Resources

end Storyline
