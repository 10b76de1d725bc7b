import Storyline.Proofs.Resources.Change
import Storyline.Proofs.Run.Pick
import Storyline.Proofs.Run.Retry

/-!
# Storyline.Proofs.Run.Change

Changes of the resources in the course of a run.  A call makes at most one: the assignments of
the node that the run stands at, or the gain of the option that is picked.  If that is refused,
the call stops with its fault and the run stays as it was, with its resources and their order.
-/

namespace Storyline

/-- The update that a call is to make, as the run stands. -/
inductive Run.Makes (r : Run) : Call → Update → Prop
  /-- A step at a node of assignments makes them. -/
  | assign {assignments : Table Value} {next : String} (running : r.status = .running)
    (found : r.episode.node? r.current = some (.assign assignments next)) :
    Makes r .step (.assign assignments)
  /-- A pick makes the gain of the option, if its requirement is met. -/
  | gain {option : String} {picked : ChoiceOption} {amounts : Table Amount}
    (waiting : r.status = .awaitingChoice) (offered : r.offered? option = some picked)
    (met : r.resources.meets picked.requirement = .ok true) (gains : picked.gain = some amounts) :
    Makes r (.choose option) (.gain amounts)

namespace Stage

variable {σ ε : Type} {s : Stage σ} {c : Call} {u : Update} {fault : UpdateFault}

/-- A call whose update is refused stops, and leaves the run alone. -/
theorem on_call_refused (host : Host σ ε) (makes : s.run.Makes c u)
    (refused : u.apply s.run.resources = .error fault) :
    ∃ world, (call host c).on s = (.error (.ofUpdate s.run.current fault), s.inWorld world) := by
  cases makes with
  | assign running found =>
    rw [Update.apply] at refused
    rw [call, on_step_assign host running found, refused]
    exact ⟨_, rfl⟩
  | gain waiting offered met gains =>
    rw [Update.apply, ← gains] at refused
    obtain ⟨world, h⟩ := on_choose_met waiting offered host met
    rw [refused] at h
    exact ⟨world, h⟩

end Stage

namespace Resources

/-- Resources change as a whole or not at all.  What a gain and what assignments come to follows
from their entries: if each has a value by the resources as they were, these values are what is
held afterwards; if not, the first one that has none is why nothing changes.  Among amounts and
texts that is an addition to a text, or a number that is too large or too long.  A call on a run
that is to make such a change then stops with that fault, and the run is as it was before. -/
theorem change_whole_or_nothing (r : Resources) :
    r.gain none = .ok r ∧
    (∀ amounts : Table Amount, Changes r (fun e => Adds e.1 (r.value e.1) e.2) amounts.entries
      (r.gain (some amounts))) ∧
    (∀ assignments : Table Json, Changes r (fun e => Assigns e.1 (r.value e.1) e.2)
      assignments.entries (r.assign assignments)) ∧
    (r.Typed → ∀ clash, (∀ amounts, r.gain (some amounts) ≠ .error (.clash clash)) ∧
      ∀ assignments, r.assign assignments ≠ .error (.clash clash)) ∧
    ∀ {σ ε : Type} (host : Host σ ε) (s : Stage σ) (c : Call) (u : Update) (fault : UpdateFault),
      s.run.resources = r → s.run.Makes c u → u.apply r = .error fault →
        ((Stage.call host c).on s).1 = .error (.ofUpdate s.run.current fault) ∧
          ((Stage.call host c).on s).2.run = s.run := by
  refine ⟨rfl, changes_gain r, changes_assign r, fun typed clash => ⟨fun amounts h => ?_,
    fun assignments h => ?_⟩, fun host s c u fault held makes refused => ?_⟩
  · have changes := changes_gain r amounts
    rw [h] at changes
    obtain ⟨e, -, he⟩ := changes.exists_of_error
    exact not_adds_clash (value_typed typed e.1) clash he
  · have changes := changes_assign r assignments
    rw [h] at changes
    obtain ⟨e, -, he⟩ := changes.exists_of_error
    exact not_assigns_clash (value_typed typed e.1) clash he
  · subst held
    obtain ⟨world, h⟩ := Stage.on_call_refused host makes refused
    rw [h]
    exact ⟨rfl, rfl⟩

/-- A spell that is to be cast at the start. -/
def spell : Episode :=
  ⟨"spell", "Spell", "cast", Table.ofList [("cast", .assign (Table.ofList
    [("gold", .text "+3"), ("energy", .number (.int 4)), ("mood", .text "-1")]) "")]⟩

/-- The last of three assignments is refused, and none of them is made. -/
theorem calm_mood_breaks_spell :
    let r : Resources := Table.ofList [("gold", .number (.int 2)), ("mood", .string "calm")]
    let s := Rehearsal.opening spell r [] []
    let u : Update := .assign (Table.ofList
      [("gold", .text "+3"), ("energy", .number (.int 4)), ("mood", .text "-1")])
    let host := (Rehearsal.inMemory [] []).toHost
    r.Typed ∧ s.run.resources = r ∧ s.run.Makes .step u ∧
      u.apply r = .error (.textHeld "mood" "calm" "-1") ∧
      ((Stage.call host .step).on s).1 = .error (.update (.textHeld "mood" "calm" "-1") "cast") ∧
      ((Stage.call host .step).on s).2.run = s.run ∧
      r.assign (Table.ofList [("mood", .string "keen"), ("energy", .string "+04"),
          ("gold", .string "-10")]) =
        .ok (Table.ofList [("gold", .number (.int (-8))), ("mood", .string "keen"),
          ("energy", .number (.int 4))]) := by
  intro r s u host
  have typed : r.Typed := Table.holds_iff.2 (by decide +kernel)
  have found : s.run.episode.node? s.run.current = some (.assign (Table.ofList
      [("gold", .text "+3"), ("energy", .number (.int 4)), ("mood", .text "-1")]) "") := by
    decide +kernel
  have makes : s.run.Makes .step u := .assign rfl found
  have refused : u.apply r = .error (.textHeld "mood" "calm" "-1") := by decide +kernel
  obtain ⟨-, -, -, -, stops⟩ := change_whole_or_nothing r
  obtain ⟨hanswer, hrun⟩ := stops host s .step u _ rfl makes refused
  exact ⟨typed, rfl, makes, refused, hanswer, hrun, by decide +kernel⟩

end Resources

end Storyline
