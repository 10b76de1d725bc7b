import Storyline.Proofs.Run.Mirror
import Storyline.Proofs.Update

/-!
# Storyline.Proofs.Run.Ledger

The ledger of a run: what its completed transitions do to the resources, in order.  Each
call that leads to a node puts one update there and every other call none, and the resources
are at any moment those at the start with the ledger applied.  So nothing that is gained or
spent is lost, counted twice, or left over from a call that came to nothing.
-/

namespace Storyline

/-- What a call does to the resources as the run stands, if it leads to a node: the
assignments of the node, or the gain of the option that is picked. -/
def Run.update (r : Run) : Call → Update
  | .step => ((r.episode.node? r.current).map Node.update).getD .nothing
  | .choose option => ((r.offered? option).map ChoiceOption.update).getD .nothing

/-- What a node leaves of the resources is its update of them. -/
theorem update_of_beat {ε : Type} {id : String} {resources : Resources} {node : Node} {beat : Beat}
    (beats : node.beat (ε := ε) id resources = .ok beat) :
    node.update.apply resources = .ok beat.resources := by
  cases node with
  | assign assignments next =>
    rw [Node.update, Update.apply]
    simp only [Node.beat] at beats
    split at beats
    · next after ha =>
      cases beats
      exact ha
    · cases beats
  | _ =>
    rw [Stage.beat_resources beats fun _ _ h => by cases h]
    rfl

/-- What a run intends to hold is what its update leaves. -/
theorem Run.Intends.update {ε : Type} {r : Run} {c : Call} {resources : Resources}
    {pending : List ChoiceView} {events : List Event} {next : String}
    (h : r.Intends ε c (.move resources pending events next)) :
    (r.update c).apply r.resources = .ok resources := by
  cases h with
  | move running found beats leads =>
    rw [Run.update, found]
    exact update_of_beat beats
  | pick waiting offered met gained =>
    rw [Run.update, offered]
    exact (Update.apply_option _ _).trans gained

namespace Stage

variable {σ ε : Type} {host : Host σ ε} {s : Stage σ}

/-- What a call that has led to a node has done to the resources. -/
def Passage.update? (p : Passage σ ε) : Option Update :=
  match p.answer with
  | .ok result => result.next.map fun _ => p.before.run.update p.call
  | .error _ => none

/-- The ledger of calls made one after the other. -/
def ledger (host : Host σ ε) (made : List Call) (s : Stage σ) : List Update :=
  (passages host made s).filterMap Passage.update?

theorem ledger_cons (host : Host σ ε) (c : Call) (rest : List Call) (s : Stage σ) :
    ledger host (c :: rest) s =
      (passage host c s).update?.toList ++ ledger host rest (passage host c s).after := by
  rw [ledger, passages, List.filterMap_cons]
  cases (passage host c s).update? <;> rfl

/-- A call that no save stops changes the resources by what it puts on the ledger. -/
theorem foldlM_passage {c : Call}
    (unfailing : ∀ fault, ((call host c).on s).1 = .error fault → fault.ofSave = false) :
    (passage host c s).update?.toList.foldlM Update.apply s.run.resources =
      .ok (passage host c s).after.run.resources := by
  have h := outcome_call (spares_nothing host) c s
  rw [Passage.update?, passage]
  generalize (call host c).on s = came at h unfailing ⊢
  cases h with
  | stopped reason spared => rfl
  | suspended intends spared => rfl
  | unsaved intends => cases unfailing _ rfl
  | moved intends spared encoded written =>
    show [s.run.update c].foldlM Update.apply s.run.resources = _
    rw [List.foldlM_cons, intends.update]
    rfl

/-- So do calls made one after the other. -/
theorem foldlM_ledger {made : List Call}
    (unfailing : ∀ fault, .error fault ∈ (calls host made s).1 → fault.ofSave = false) :
    (ledger host made s).foldlM Update.apply s.run.resources =
      .ok (calls host made s).2.run.resources := by
  induction made generalizing s with
  | nil => rfl
  | cons c rest ih =>
    obtain ⟨hfirst, hrest⟩ := unfailing_cons unfailing
    rw [ledger_cons, List.foldlM_append, foldlM_passage hfirst]
    exact ih (s := (passage host c s).after) hrest

/-- The resources of a run are at any moment those it started with and the ledger applied to
them, whatever calls are made as long as no save fails.  A resource that starts as a whole
number or not at all, and to which the ledger does nothing but add whole numbers, is exactly
their sum more, and a resource that the ledger does not name stays as it was. -/
theorem ledger_accounts_for_resources (gateway : Save.Gateway σ) (e : Episode)
    (node : Option String) (initial : Resources) {made : List Call}
    {answers : List (Except (RunFault ε) StepResult)}
    (goes : calls host made (start host gateway e node initial) = (answers, s))
    (unfailing : ∀ fault, .error fault ∈ answers → fault.ofSave = false) :
    let updates := ledger host made (start host gateway e node initial)
    updates.foldlM Update.apply initial = .ok s.run.resources ∧
    ∀ name,
      (∀ n, initial.value name = .number (.int n) →
        (∀ u ∈ updates, (u.added? name).isSome = true) →
        s.run.resources.value name =
          .number (.int (n + (updates.filterMap (Update.added? name)).sum))) ∧
      ((∀ u ∈ updates, name ∉ u.names) → s.run.resources.find? name = initial.find? name) := by
  intro updates
  have applied : updates.foldlM Update.apply initial = .ok s.run.resources := by
    have unfailing' : ∀ fault,
        .error fault ∈ (calls host made (start host gateway e node initial)).1 →
          fault.ofSave = false := by
      rw [goes]
      exact unfailing
    have h := foldlM_ledger unfailing'
    rw [goes] at h
    exact h
  exact ⟨applied, fun name => ⟨fun n held adds => Update.value_of_foldlM applied held adds,
    fun unnamed => Update.find?_of_foldlM applied unnamed⟩⟩

/-- A day's work at a mill, which may be done again before the way home is paid for. -/
def mill : Episode := ⟨"mill", "The mill", "work", Table.ofList [
  ("work", .assign (Table.ofList [("coins", .text "+2"), ("mood", .text "tired")]) "gate"),
  ("gate", .choice "Go home?" [
    ⟨"pay", "Pay", "", some (Table.ofList [("coins", .int (-3))]),
      some (Table.ofList [("coins", .int 3)]), none⟩,
    ⟨"stay", "Stay", "work", none, none, none⟩])]⟩

/-- Two days' wages and one fare, though the fare was tried once before there was enough, and
a step made out of turn; the lamp is never touched. -/
theorem mill_accounts :
    let host := (Rehearsal.inMemory [] []).toHost
    let purse : Resources := Table.ofList [("lamp", .string "lit")]
    let fresh := start host ⟨none, ⟨Table.empty, 0, 0, [], [], []⟩⟩ mill none purse
    let made := [.step, .step, .step, .choose "pay", .choose "stay", .step, .step, .choose "pay"]
    let s := (calls host made fresh).2
    (calls host made fresh).1.map Except.isOk =
        [true, true, false, false, true, true, true, true] ∧
      (ledger host made fresh).map (Update.added? "coins") = [some 2, some 0, some 2, some (-3)] ∧
      s.run.resources.value "coins" = .number (.int 1) ∧
      s.run.resources.find? "lamp" = some (.string "lit") := by
  intro host purse fresh made s
  have answered : (calls host made fresh).1.map Except.isOk =
      [true, true, false, false, true, true, true, true] := by decide +kernel
  have unstopped : (calls host made fresh).1.all unstopped = true := by decide +kernel
  have goes : calls host made fresh = ((calls host made fresh).1, s) :=
    (Prod.eta (calls host made fresh)).symm
  obtain ⟨-, haccounts⟩ := ledger_accounts_for_resources _ mill none purse goes
    (unfailing_of_all unstopped)
  have adds : (ledger host made fresh).map (Update.added? "coins") =
      [some 2, some 0, some 2, some (-3)] := by decide +kernel
  have whole : ∀ u ∈ ledger host made fresh, (u.added? "coins").isSome = true := by decide +kernel
  have unnamed : ∀ u ∈ ledger host made fresh, "lamp" ∉ u.names := by decide +kernel
  have total : ((ledger host made fresh).filterMap (Update.added? "coins")).sum = 1 := by
    decide +kernel
  refine ⟨answered, adds, ?_, ?_⟩
  · rw [(haccounts "coins").1 0 rfl whole, total]
    rfl
  · rw [(haccounts "lamp").2 unnamed]
    rfl

end Stage

end Storyline
