import Storyline.Proofs.Rehearsal
import Storyline.Proofs.Run.Alike

/-!
# Storyline.Proofs.Run.Retry

Calls that stop at a save, made again.  When the save is asked for, the resources are
settled already and, for a pick, the options are off the table.  So a step made again
assigns again what a node of assignments assigns, and a pick made again finds nothing
to pick.
-/

namespace Storyline

/-- Whether a call that has stopped at a save comes, made again, to what it would have come
to in one go. -/
def Run.Repeatable (r : Run) : Call → Prop
  | .step => ∀ assignments next settled,
    r.episode.node? r.current = some (.assign assignments next) →
    r.resources.assign (assignments.map Value.toJson) = .ok settled →
    ∀ e ∈ assignments.entries,
      Resources.assigned e.1 (settled.value e.1) e.2.toJson = .ok (settled.value e.1)
  | .choose _ => False

namespace Stage

variable {σ ε : Type} {host once later : Host σ ε} {c : Call} {s failed done : Stage σ}
  {fault : Save.GatewayFault ε} {result : StepResult} {rel : σ → σ → Prop}

/-- After a call that stops at a save the resources are settled and the options on offer
are what they will be, but the run stands where it stood. -/
theorem failed_save (h : (call host c).on s = (.error (.save fault), failed)) :
    ∃ resources pending events next, s.run.Intends ε c (.move resources pending events next) ∧
      failed.run = { s.run with resources, pending } := by
  have outcome := outcome_call (spares_nothing host) c s
  rw [h] at outcome
  cases outcome with
  | stopped reason spared => cases reason
  | unsaved intends => exact ⟨_, _, _, _, intends, rfl⟩

/-- A step at a node of assignments. -/
theorem on_step_assign (host : Host σ ε) {assignments : Table Value} {next : String}
    (running : s.run.status = .running)
    (found : s.run.episode.node? s.run.current = some (.assign assignments next)) :
    (step host).on s =
      let noted := s.inWorld (host.note (.dispatching s.run.current "SetNodeDef") s.gateway.world)
      match s.run.resources.assign (assignments.map Value.toJson) with
      | .error fault => (.error (.ofUpdate s.run.current fault), noted)
      | .ok settled =>
        (advance host s.run.current next []).on (noted.settle settled s.run.pending) := by
  rw [step_eq, Act.on_bind]
  simp only [resolveStep, resolveNode, Act.on_bind, on_theRun, running, found, on_note, Node.tested,
    noteConflict, Resources.verdict, Act.on_pure, Node.beat]
  cases s.run.resources.assign (assignments.map Value.toJson) with
  | error fault => rfl
  | ok settled =>
    simp only [Act.on_known, mapError_ok, emitAll, Act.on_pure, on_commit_move, run_inWorld,
      Node.kindName]

theorem run_of_advance {node next : String} {events : List Event}
    (h : ((advance host node next events).on s).1 = .ok result) :
    ((advance host node next events).on s).2.run =
      { s.run with current := next, status := Status.at next } := by
  obtain ⟨fault, world, ha⟩ | ⟨world, ha⟩ := advance_cases host node next events s
  · rw [ha] at h; cases h
  · rw [ha]; rfl

/-- A step at a node of assignments that has stopped at its save comes, made again, to the
same just if the assignments made again change nothing. -/
theorem retried_assign_iff {assignments : Table Value} {next : String} {settled : Resources}
    (running : s.run.status = .running)
    (found : s.run.episode.node? s.run.current = some (.assign assignments next))
    (assigned : s.run.resources.assign (assignments.map Value.toJson) = .ok settled)
    (stopped : failed.run = { s.run with resources := settled })
    (ok : (step once).on s = (.ok result, done)) (alike : Alike Table.Same rel later once)
    (hrel : rel failed.gateway.world s.gateway.world) :
    (((step later).on failed).1 = .ok result ∧
        ((step later).on failed).2.Like Table.Same rel done) ↔
      ∃ again, settled.assign (assignments.map Value.toJson) = .ok again ∧ again.Same settled := by
  have running' : failed.run.status = .running := by rw [stopped]; exact running
  have found' : failed.run.episode.node? failed.run.current = some (.assign assignments next) := by
    rw [stopped]
    exact found
  rw [on_step_assign once running found, assigned] at ok
  rw [on_step_assign later running' found']
  simp only [stopped]
  simp only at ok
  cases ha : settled.assign (assignments.map Value.toJson) with
  | error e =>
    constructor
    · rintro ⟨h, -⟩
      cases h
    · rintro ⟨again, h, -⟩
      cases h
  | ok again =>
    simp only
    constructor
    · rintro ⟨h, hlike⟩
      have hdone := run_of_advance (congrArg Prod.fst ok)
      have hsame := hlike.run.resources
      rw [ok] at hdone
      rw [run_of_advance h, hdone] at hsame
      exact ⟨again, rfl, hsame⟩
    · rintro ⟨_, h, hsame⟩
      cases h
      have hrun : ((failed.inWorld (later.note (.dispatching s.run.current "SetNodeDef")
          failed.gateway.world)).settle again s.run.pending).run.Like Table.Same
          ((s.inWorld (once.note (.dispatching s.run.current "SetNodeDef")
            s.gateway.world)).settle settled s.run.pending).run := by
        simp only [run_settle, run_inWorld, stopped]
        exact ⟨rfl, rfl, rfl, rfl, hsame⟩
      have saved := savedAlong_of_likeness Resources.likeness_same
      have hlike := tracks_advance saved alike.upTo s.run.current next [] _ _
        ⟨hrun, alike.note _ _ _ hrel⟩
      rw [ok] at hlike
      exact ⟨Agree.eq_iff.1 hlike.1, hlike.2⟩

theorem retried_step_iff (stopped : (step host).on s = (.error (.save fault), failed))
    (ok : (step once).on s = (.ok result, done)) (alike : Alike Table.Same rel later once)
    (hrel : rel failed.gateway.world s.gateway.world) :
    (((step later).on failed).1 = .ok result ∧
        ((step later).on failed).2.Like Table.Same rel done) ↔ s.run.Repeatable .step := by
  obtain ⟨resources, pending, events, next, hi, hrun⟩ := failed_save (c := .step) stopped
  generalize hcall : Call.step = c at hi
  cases hi with
  | pick waiting offered met gained => cases hcall
  | move running found beats leads =>
    rename_i node beat
    by_cases hn : ∃ assignments next, node = .assign assignments next
    · obtain ⟨assignments, next', rfl⟩ := hn
      rw [Node.beat] at beats
      split at beats <;> cases beats
      next settled hsettled =>
      rw [retried_assign_iff running found hsettled hrun ok alike hrel,
        Resources.assign_again hsettled]
      constructor
      · intro hkeep assignments' next'' settled' hfound hassign e he
        rw [found] at hfound
        cases hfound
        rw [hsettled] at hassign
        cases hassign
        exact hkeep (e.1, e.2.toJson) (List.mem_map_of_mem he)
      · intro hkeep e he
        obtain ⟨d, hd, rfl⟩ := List.mem_map.1 he
        exact hkeep assignments next' settled found hsettled d hd
    · -- Nothing was changed, so it is the same step on the same run.
      have hsame : failed.run = s.run := by
        rw [hrun, beat_resources beats fun assignments next h => hn ⟨assignments, next, h⟩]
      have hlike := tracks_call Resources.likeness_same alike .step failed s
        ⟨by rw [hsame]; exact ⟨rfl, rfl, rfl, rfl, .refl _⟩, hrel⟩
      rw [call, call, ok] at hlike
      have hrepeat : s.run.Repeatable .step := by
        intro assignments next' _ hfound
        rw [found] at hfound
        cases hfound
        exact absurd ⟨assignments, next', rfl⟩ hn
      exact iff_of_true ⟨Agree.eq_iff.1 hlike.1, hlike.2⟩ hrepeat

/-- A run that waits for a choice without an option can do nothing at all. -/
theorem call_of_nothing_on_offer (host : Host σ ε) (c : Call)
    (waiting : s.run.status = .awaitingChoice) (nothing : s.run.pending = []) :
    ∃ fault, (call host c).on s = (.error fault, s) := by
  cases c with
  | step =>
    have hstep : (step host).on s = (.error (.awaitingChoice s.run.current), s) := by
      rw [step_eq, resolveStep, Act.on_bind, Act.on_bind, on_theRun]
      simp only [waiting, Act.on_throw]
    exact ⟨_, hstep⟩
  | choose option =>
    have hoffered : s.run.offered? option = none := by rw [Run.offered?, nothing]; rfl
    have hchoose : (choose host option).on s =
        (.error (.rejected (.notOffered option s.run.current)), s) := by
      rw [choose_eq, resolvePick, Act.on_bind, Act.on_bind, on_theRun]
      simp only [waiting, hoffered, if_true, Act.on_throw]
    exact ⟨_, hchoose⟩

theorem calls_of_nothing_on_offer (host : Host σ ε) (made : List Call)
    (waiting : s.run.status = .awaitingChoice) (nothing : s.run.pending = []) :
    (∀ answer ∈ (calls host made s).1, ∃ fault, answer = .error fault) ∧
      (calls host made s).2 = s := by
  induction made with
  | nil => exact ⟨nofun, rfl⟩
  | cons c rest ih =>
    obtain ⟨fault, hc⟩ := call_of_nothing_on_offer host c waiting nothing
    simp only [calls, hc]
    exact ⟨List.forall_mem_cons.2 ⟨⟨fault, rfl⟩, ih.1⟩, ih.2⟩

/-- A pick that has stopped at its save has taken the options off the table, and the run
still waits. -/
theorem nothing_on_offer_of_failed_pick {option : String}
    (stopped : (choose host option).on s = (.error (.save fault), failed)) :
    failed.run.status = .awaitingChoice ∧ failed.run.pending = [] := by
  obtain ⟨resources, pending, events, next, hi, hrun⟩ := failed_save (c := .choose option) stopped
  cases hi with
  | pick waiting offered met gained =>
    rw [hrun]
    exact ⟨waiting, rfl⟩

/-- A call that has stopped because its save was not written is made again on a host that now
writes.  It comes to what the call would have come to in one go just if the run is
`Repeatable`: a step has to be one whose assignments, made again, change nothing, and a pick
never is.  After a pick the run is stuck: every later call stops and changes nothing, on
whatever host. -/
theorem retry_after_failed_save
    (stopped : (call host c).on s = (.error (.save fault), failed))
    (ok : (call once c).on s = (.ok result, done)) (alike : Alike Table.Same rel later once)
    (hrel : rel failed.gateway.world s.gateway.world) :
    ((((call later c).on failed).1 = .ok result ∧
        ((call later c).on failed).2.Like Table.Same rel done) ↔ s.run.Repeatable c) ∧
      ∀ option, c = .choose option → ∀ (any : Host σ ε) (made : List Call),
        (∀ answer ∈ (calls any made failed).1, ∃ fault, answer = .error fault) ∧
          (calls any made failed).2 = failed := by
  cases c with
  | step => exact ⟨retried_step_iff stopped ok alike hrel, nofun⟩
  | choose option =>
    obtain ⟨waiting, nothing⟩ := nothing_on_offer_of_failed_pick stopped
    have hstops : ((call later (.choose option)).on failed).1 ≠ .ok result := by
      intro h
      obtain ⟨fault, hc⟩ := call_of_nothing_on_offer later (.choose option) waiting nothing
      rw [hc] at h
      cases h
    exact ⟨iff_of_false (fun h => hstops h.1) id, fun _ _ any made =>
      calls_of_nothing_on_offer any made waiting nothing⟩

/-- A night in a camp: a line, and a rest that gives energy. -/
def camp : Episode where
  id := "camp"
  title := "Camp"
  start := "fire"
  nodes := Table.ofList [
    ("fire", .say "Mara" "Rest now." "rest"),
    ("rest", .assign (Table.ofList [("energy", .text "+5")]) "")]

/-- The line at the fire is said again, and all is as it would have been. -/
theorem retry_at_fire :
    let s := Rehearsal.opening camp Table.empty [] []
    let failed := ((call (Rehearsal.inMemory [0] []).toHost .step).on s).2
    let done := (call (Rehearsal.inMemory [] []).toHost .step).on s
    ((call (Rehearsal.inMemory [0] []).toHost .step).on s).1 =
        .error (.save (.store .diskFull)) ∧
      ((call (Rehearsal.inMemory [0] []).toHost .step).on failed).1 = done.1 ∧
      ((call (Rehearsal.inMemory [0] []).toHost .step).on failed).2.run.Like Table.Same
        done.2.run := by
  intro s failed done
  have stopped : ((call (Rehearsal.inMemory [0] []).toHost .step).on s).1 =
      .error (.save (.store .diskFull)) := by decide +kernel
  have ok : done.1 = .ok ⟨"fire", .running, some "rest", [.dialogue "Mara" "Rest now."], []⟩ := by
    decide +kernel
  have hrel : Rehearsal.Progress.Even ⟨[0], [], [], true, none⟩ ⟨[], [], [], true, none⟩
      failed.gateway.world s.gateway.world := by
    have hstore : failed.gateway.world.store = Table.empty := by decide +kernel
    have houtcomes : failed.gateway.world.outcomes = [] := by decide +kernel
    have hwrites : failed.gateway.world.writes = 1 := by decide +kernel
    exact ⟨hstore, houtcomes, fun k => by simp [hwrites, Nat.add_comm 1 k]⟩
  have hrepeat : s.run.Repeatable .step := by
    intro assignments next settled hfound
    have hsay : s.run.episode.node? s.run.current = some (.say "Mara" "Rest now." "rest") := by
      decide +kernel
    rw [hsay] at hfound
    cases hfound
  have hstopped : (call (Rehearsal.inMemory [0] []).toHost .step).on s =
      (.error (.save (.store .diskFull)), failed) :=
    Act.eq_of_answer stopped
  have hok : (call (Rehearsal.inMemory [] []).toHost .step).on s =
      (.ok ⟨"fire", .running, some "rest", [.dialogue "Mara" "Rest now."], []⟩, done.2) :=
    Act.eq_of_answer ok
  have alike : Alike Table.Same
      (Rehearsal.Progress.Even ⟨[0], [], [], true, none⟩ ⟨[], [], [], true, none⟩)
      (Rehearsal.inMemory [0] []).toHost (Rehearsal.inMemory [] []).toHost :=
    Rehearsal.alike_of_even Save.memoryStore rfl rfl rfl
  have h := (retry_after_failed_save hstopped hok alike hrel).1.2 hrepeat
  exact ⟨stopped, h.1.trans ok.symm, h.2.run⟩

/-- The rest gives its energy twice if its first save fails. -/
theorem rested_twice :
    let s := Rehearsal.opening ⟨"camp", "Camp", "rest", camp.nodes⟩ Table.empty [] []
    let failed := (call (Rehearsal.inMemory [0] []).toHost .step).on s
    let again := (call (Rehearsal.inMemory [0] []).toHost .step).on failed.2
    let done := (call (Rehearsal.inMemory [] []).toHost .step).on s
    failed.1 = .error (.save (.store .diskFull)) ∧
      again.1 = .ok ⟨"rest", .terminated, some "", [], []⟩ ∧ done.1 = again.1 ∧
      again.2.run.resources.find? "energy" = some (.number (.int 10)) ∧
      done.2.run.resources.find? "energy" = some (.number (.int 5)) := by
  decide +kernel

end Stage

end Storyline
