import Storyline.Proofs.Overreach

/-!
# Storyline.Proofs.Resources.Delta

The two ways to assign.  A delta is added to what is held and all else takes its place, so
assignments that are all deltas are a gain, and assignments of which none is a delta can be made
again without effect.  Where both kinds stand side by side each keeps to its own way, however
often the assignments are made.
-/

namespace Storyline

namespace Numeral

/-- The text of a whole number with a given sign, and with so many zeros before its digits. -/
def decimal (sign : List Char) (zeros : Nat) (n : Int) : String :=
  String.ofList (sign ++ (List.replicate zeros '0' ++ Nat.toDigits 10 n.natAbs))

variable {sign : List Char} {zeros : Nat} {n : Int}

theorem spells_decimal (zeros : Nat) (hsign : sign ∈ signs (decide (n < 0))) :
    Spells (decimal sign zeros n) (decide (n < 0))
      (List.replicate zeros '0' ++ Nat.toDigits 10 n.natAbs) := by
  refine ⟨⟨sign, hsign, String.toList_ofList⟩, ?_, fun c hc => ?_⟩
  · simp [Nat.toDigits_ne_nil]
  · obtain hc | hc := List.mem_append.1 hc
    · rw [List.eq_of_mem_replicate hc]
      rfl
    · exact isDigit_of_mem hc

/-- The text of a whole number is a delta and denotes that number. -/
theorem denoted_decimal (hsign : sign ∈ signs (decide (n < 0))) :
    denoted (decimal sign zeros n) = n := by
  rw [denoted, (spells_iff.1 (spells_decimal zeros hsign)).2]
  show withSign _ (Nat.ofDigitChars 10 _ 0) = n
  rw [ofDigitChars_zeros, Nat.ofDigitChars_ten_toDigits, withSign_natAbs]

theorem legible_decimal (hsign : sign ∈ signs (decide (n < 0)))
    (short : zeros + (Nat.toDigits 10 n.natAbs).length ≤ digitLimit) :
    Legible (decimal sign zeros n) := by
  rw [Legible, (spells_iff.1 (spells_decimal zeros hsign)).2]
  simpa using short

instance : DecidablePred Legible := fun text =>
  inferInstanceAs (Decidable ((splitSign text.toList).2.length ≤ digitLimit))

theorem readDelta_of_legible {text : String} (h : Legible text) :
    readDelta text = .ok (denoted text) := by
  obtain ⟨hn, -⟩ | ⟨-, hread⟩ := readDelta_cases text
  · exact absurd h hn
  · exact hread

end Numeral

/-- The whole number that a value adds when it is assigned, if it is a delta. -/
def Json.delta? : Json → Option Int
  | .string s => if Numeral.isDelta s then some (Numeral.denoted s) else none
  | _ => none

/-- Whether a value can be read when it is assigned: it is no delta, or one that is not too long. -/
def Json.Assignable : Json → Prop
  | .string s => Numeral.isDelta s = true → Numeral.Legible s
  | _ => True

instance : DecidablePred Json.Assignable
  | .string s => inferInstanceAs (Decidable (Numeral.isDelta s = true → Numeral.Legible s))
  | .null | .bool _ | .number _ | .array _ | .object _ => .isTrue trivial

namespace Resources

variable {name : String} {held value : Json} {d m : Int}

/-- A delta is added. -/
theorem assigned_of_delta (assignable : value.Assignable) (h : value.delta? = some d) :
    assigned name held value = plus name held (.number (.int d)) := by
  cases value with
  | string s =>
    rw [Json.delta?] at h
    split at h
    · next delta =>
      cases h
      rw [assigned, if_pos delta, Numeral.readDelta_of_legible (assignable delta)]
    · cases h
  | _ => cases h

/-- What is no delta takes the place of what is held. -/
theorem assigned_of_plain (h : value.delta? = none) : assigned name held value = .ok value := by
  cases value with
  | string s =>
    rw [Json.delta?] at h
    split at h
    · cases h
    · next delta => rw [assigned, if_neg delta]
  | _ => rfl

/-! ## Deltas only -/

/-- Changes whose values are computed alike come to the same. -/
theorem change_congr {α β γ : Type} {r : Resources} {l : List γ} {f : γ → String × α}
    {g : γ → String × β} {compute : String → Json → α → Except UpdateFault Json}
    {compute' : String → Json → β → Except UpdateFault Json}
    (h : ∀ c ∈ l, r.computed compute (f c) = r.computed compute' (g c)) :
    r.change compute (l.map f) = r.change compute' (l.map g) := by
  have hvalues : (l.map f).mapM (r.computed compute) = (l.map g).mapM (r.computed compute') := by
    induction l with
    | nil => rfl
    | cons c l ih =>
      obtain ⟨hc, hl⟩ := List.forall_mem_cons.1 h
      rw [List.map_cons, List.map_cons, List.mapM_cons, List.mapM_cons, hc, ih hl]
  rw [change_eq, change_eq, hvalues]

/-- Assigning deltas is gaining what they denote. -/
theorem assign_deltas (r : Resources) (literals : Table String)
    (delta : ∀ e ∈ literals.entries, Numeral.isDelta e.2 = true)
    (legible : ∀ e ∈ literals.entries, Numeral.Legible e.2) :
    r.assign (literals.map Json.string) =
      r.gain (some (literals.map fun s => .int (Numeral.denoted s))) := by
  have hgain : ((literals.map fun s => Amount.int (Numeral.denoted s)).map Json.number).entries =
      literals.entries.map fun e => (e.1, (Json.number (.int (Numeral.denoted e.2)) : Json)) :=
    List.map_map
  show r.change assigned (literals.entries.map _) = r.change plus _
  rw [hgain]
  refine change_congr fun e he => ?_
  have hdelta : (Json.string e.2).delta? = some (Numeral.denoted e.2) := if_pos (delta e he)
  have assignable : (Json.string e.2).Assignable := fun _ => legible e he
  rw [computed, computed, assigned_of_delta assignable hdelta]

/-! ## No deltas -/

/-- Where there are no deltas, all that is assigned is stored. -/
theorem assign_plain (r : Resources) {vars : Table Json}
    (plain : ∀ e ∈ vars.entries, e.2.delta? = none) :
    r.assign vars = .ok (r.insertAll vars.entries) := by
  have hvalues : ∀ {l : List (String × Json)}, (∀ e ∈ l, e.2.delta? = none) →
      l.mapM (r.computed assigned) = .ok l := by
    intro l hl
    induction l with
    | nil => rfl
    | cons e l ih =>
      obtain ⟨he, hl⟩ := List.forall_mem_cons.1 hl
      rw [List.mapM_cons, computed, assigned_of_plain he, ih hl]
      rfl
  rw [assign, change_eq, hvalues plain]
  rfl

/-- What is stored once can be stored again without effect. -/
theorem insertAll_again (r : Resources) (vars : Table Json) :
    (r.insertAll vars.entries).insertAll vars.entries = r.insertAll vars.entries := by
  refine Table.insertAll_of_find? fun e he => ?_
  rw [find?_insertAll vars.nodup_names, Table.lookup_of_mem vars.nodup_names he]
  rfl

/-! ## Deltas and others -/

/-- Assignments made so many times, one after the other. -/
def assignTimes (r : Resources) (vars : Table Json) : Nat → Except UpdateFault Resources
  | 0 => .ok r
  | n + 1 => do (← r.assignTimes vars n).assign vars

/-- What resources come to by assignments made `n` times. -/
structure AssignedTimes (vars : Table Json) (r : Resources) (n : Nat) (after : Resources) :
    Prop where
  /-- A whole number is `n` times the delta more. -/
  added : ∀ {name v d m}, vars.find? name = some v → v.delta? = some d →
    r.value name = .number (.int m) → after.value name = .number (.int (m + n * d))
  /-- What is no delta is held, as it was given. -/
  put : ∀ {name v}, vars.find? name = some v → v.delta? = none → 0 < n →
    after.find? name = some v
  /-- What is not named stays. -/
  others : ∀ {name}, name ∉ vars.names → after.find? name = r.find? name

section Times

variable {vars : Table Json} {r s : Resources} {n : Nat}

theorem assignedTimes_zero : AssignedTimes vars r 0 r :=
  ⟨fun _ _ held => by simpa using held, fun _ _ h => absurd h (Nat.lt_irrefl 0), fun _ => rfl⟩

variable (assignable : ∀ e ∈ vars.entries, e.2.Assignable)

include assignable

/-- To a whole number that took the deltas `n` times the delta can be added once more. -/
theorem AssignedTimes.assigned_delta (h : AssignedTimes vars r n s)
    (found : vars.find? name = some value) (delta : value.delta? = some d)
    (held : r.value name = .number (.int m)) :
    assigned name (s.value name) value = .ok (.number (.int (m + (n + 1 : Nat) * d))) := by
  have hsum : m + n * d + d = m + (n + 1 : Nat) * d := by
    rw [Int.natCast_succ, Int.add_mul, Int.one_mul, Int.add_assoc]
  rw [assigned_of_delta (assignable _ (Table.find?_eq_some_iff.1 found)) delta,
    h.added found delta held, plus_number, Amount.add_int, hsum]
  rfl

variable (counted : ∀ e ∈ vars.entries, e.2.delta? ≠ none → ∃ m, r.value e.1 = .number (.int m))

include counted

/-- Where the deltas meet whole numbers the assignments can be made once more. -/
theorem AssignedTimes.succ (h : AssignedTimes vars r n s) :
    ∃ after, s.assign vars = .ok after ∧ AssignedTimes vars r (n + 1) after := by
  have comes : ∀ e ∈ vars.entries, ∃ value, assigned e.1 (s.value e.1) e.2 = .ok value := by
    intro e he
    cases delta : e.2.delta? with
    | none => exact ⟨_, assigned_of_plain delta⟩
    | some d =>
      obtain ⟨m, held⟩ := counted e he (by simp [delta])
      exact ⟨_, h.assigned_delta assignable (Table.find?_eq_some_iff.2 he) delta held⟩
  obtain ⟨after, hassign⟩ := exists_change_ok comes
  obtain ⟨hnamed, hothers⟩ := change_ok vars.nodup_names hassign
  refine ⟨after, hassign, ?_, ?_, fun hn => (hothers _ hn).trans (h.others hn)⟩
  · intro name v d m found delta held
    obtain ⟨stored, hvalue, hfound⟩ := hnamed _ (Table.find?_eq_some_iff.1 found)
    rw [h.assigned_delta assignable found delta held] at hvalue
    cases hvalue
    rw [Resources.value, hfound]
    rfl
  · intro name v found plain _
    obtain ⟨stored, hvalue, hfound⟩ := hnamed _ (Table.find?_eq_some_iff.1 found)
    rw [assigned_of_plain plain] at hvalue
    cases hvalue
    exact hfound

theorem exists_assignTimes (n : Nat) :
    ∃ after, r.assignTimes vars n = .ok after ∧ AssignedTimes vars r n after := by
  -- Whole numbers are asked for at the start only: the deltas leave whole numbers.
  induction n with
  | zero => exact ⟨r, rfl, assignedTimes_zero⟩
  | succ n ih =>
    obtain ⟨s, hs, htimes⟩ := ih
    obtain ⟨after, hassign, hafter⟩ := htimes.succ assignable counted
    exact ⟨after, by rw [assignTimes, hs]; exact hassign, hafter⟩

end Times

/-- Deltas that are assigned are added, and all else is put in place.  Assignments of deltas alone
are the gain of what they denote, be it made or refused, and the text of a whole number, with or
without a plus and with zeros before it, denotes that number.  Assignments without deltas are
always made, and made again they change nothing.  Where deltas meet whole numbers or nothing, the
assignments can be made any number of times: each number is then so many times its delta more, and
what is no delta is held as it was given. -/
theorem assign_adds_or_puts (r : Resources) {vars : Table Json}
    (assignable : ∀ e ∈ vars.entries, e.2.Assignable) :
    (∀ literals : Table String, vars = literals.map Json.string →
      (∀ e ∈ literals.entries, Numeral.isDelta e.2 = true) →
        r.assign vars = r.gain (some (literals.map fun s => .int (Numeral.denoted s)))) ∧
    ((∀ e ∈ vars.entries, e.2.delta? = none) →
      ∃ after, r.assign vars = .ok after ∧ after.assign vars = .ok after) ∧
    ((∀ e ∈ vars.entries, e.2.delta? ≠ none → ∃ m, r.value e.1 = .number (.int m)) →
      ∀ n, ∃ after, r.assignTimes vars n = .ok after ∧ AssignedTimes vars r n after) ∧
    ∀ (name : String) (n : Int) (zeros : Nat), ∀ sign ∈ Numeral.signs (decide (n < 0)),
      zeros + (Nat.toDigits 10 n.natAbs).length ≤ Numeral.digitLimit →
        r.assign (Table.ofList [(name, .string (Numeral.decimal sign zeros n))]) =
          r.gain (some (Table.ofList [(name, .int n)])) := by
  refine ⟨?_, ?_, exists_assignTimes assignable, ?_⟩
  · rintro literals rfl delta
    exact assign_deltas r literals delta fun e he => assignable (e.1, .string e.2)
      (List.mem_map_of_mem he) (delta e he)
  · intro plain
    refine ⟨_, assign_plain r plain, ?_⟩
    rw [assign_plain _ plain, insertAll_again]
  · intro name n zeros sign hsign short
    have spells := Numeral.spells_iff.1 (Numeral.spells_decimal zeros hsign)
    calc r.assign (Table.ofList [(name, .string (Numeral.decimal sign zeros n))])
        = r.gain (some (Table.ofList
            [(name, .int (Numeral.denoted (Numeral.decimal sign zeros n)))])) :=
          assign_deltas r (Table.ofList [(name, Numeral.decimal sign zeros n)])
            (List.forall_mem_singleton.2 spells.1)
            (List.forall_mem_singleton.2 (Numeral.legible_decimal hsign short))
      _ = r.gain (some (Table.ofList [(name, .int n)])) := by
          rw [Numeral.denoted_decimal hsign]

/-- A potion that is drunk three times; and one that is spilt over a text, as a loss would be. -/
theorem potion_drunk_thrice :
    let r : Resources := Table.ofList [("gold", .number (.int 2)), ("mood", .string "calm")]
    let vars : Table Json := Table.ofList
      [("gold", .string "+3"), ("mood", .string "keen"), ("energy", .string "-010")]
    let spilt : Table String := Table.ofList [("gold", "-2"), ("mood", "+1")]
    (∀ e ∈ vars.entries, e.2.Assignable) ∧
      (∃ after, r.assignTimes vars 3 = .ok after ∧ after.value "gold" = .number (.int 11) ∧
        after.find? "mood" = some (.string "keen") ∧
        after.value "energy" = .number (.int (-30))) ∧
      r.assign (spilt.map Json.string) =
        r.gain (some (spilt.map fun s => .int (Numeral.denoted s))) ∧
      r.assign (spilt.map Json.string) = .error (.textHeld "mood" "calm" "1") ∧
      r.assign (Table.ofList [("gold", .string (Numeral.decimal ['+'] 2 7))]) =
        r.gain (some (Table.ofList [("gold", .int 7)])) ∧
      Numeral.decimal ['+'] 2 7 = "+007" := by
  intro r vars spilt
  have assignable : ∀ e ∈ vars.entries, e.2.Assignable := by decide +kernel
  have readable : ∀ e ∈ (spilt.map Json.string).entries, e.2.Assignable := by decide +kernel
  obtain ⟨-, -, times, decimals⟩ := assign_adds_or_puts r assignable
  obtain ⟨gains, -⟩ := assign_adds_or_puts r readable
  have counted : ∀ e ∈ vars.entries, e.2.delta? ≠ none → ∃ m, r.value e.1 = .number (.int m) := by
    refine List.forall_mem_cons.2 ⟨fun _ => ⟨2, rfl⟩, ?_⟩
    refine List.forall_mem_cons.2 ⟨fun delta => absurd rfl delta, ?_⟩
    exact List.forall_mem_singleton.2 fun _ => ⟨0, rfl⟩
  obtain ⟨after, hafter, h⟩ := times counted 3
  have gold : after.value "gold" = .number (.int 11) :=
    h.added (v := .string "+3") (d := 3) (m := 2) rfl (by decide +kernel) rfl
  have energy : after.value "energy" = .number (.int (-30)) :=
    h.added (v := .string "-010") (d := -10) (m := 0) rfl (by decide +kernel) rfl
  have mood : after.find? "mood" = some (.string "keen") :=
    h.put rfl (by decide +kernel) (by decide)
  exact ⟨assignable, ⟨after, hafter, gold, mood, energy⟩, gains spilt rfl (by decide +kernel),
    by decide +kernel, decimals "gold" 7 2 ['+'] (by decide) (by decide), by decide⟩

end Resources

end Storyline
