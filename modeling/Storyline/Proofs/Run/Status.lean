import Storyline.Proofs.Rehearsal
import Storyline.Proofs.Run.Trace

/-!
# Storyline.Proofs.Run.Status

The status of a run, the node it stands at and what it has on offer go together.
Every call keeps that as long as no save fails, and so does a host that changes the
resources between the calls.  The status decides which calls are turned down, and a
run that has ended stays as it is.
-/

namespace Storyline

/-! ## What a call stops for -/

/-- Whether a fault is met in dealing with a node: the node's own, or the host's. -/
def RunFault.ofNode {ε : Type} : RunFault ε → Bool
  | .unknownKind _ _ | .update _ _ | .clash _ | .number _ | .host _ => true
  | _ => false

/-- Whether a fault says that the call does not fit the status of the run. -/
def RunFault.ofStatus {ε : Type} : RunFault ε → Bool
  | .ended | .awaitingChoice _ | .noChoice => true
  | _ => false

theorem ofStatus_of_ofNode {ε : Type} {fault : RunFault ε} (h : fault.ofNode = true) :
    fault.ofStatus = false := by
  cases fault with
  | ended | awaitingChoice node | noChoice => cases h
  | _ => rfl

theorem ofStatus_of_ofSave {ε : Type} {fault : RunFault ε} (h : fault.ofSave = true) :
    fault.ofStatus = false := by
  cases fault with
  | ended | awaitingChoice node | noChoice => cases h
  | _ => rfl

theorem ofNode_ofUpdate {ε : Type} (node : String) (fault : UpdateFault) :
    (RunFault.ofUpdate (ε := ε) node fault).ofNode = true := by
  cases fault <;> rfl

/-- What a deed of the host's own does to resources; calls are left aside. -/
def Deed.edit (r : Resources) : Deed → Resources
  | .call _ => r
  | .put name value => r.insert name value
  | .drop name => r.erase name

namespace Stage

variable {σ ε : Type} {host : Host σ ε} {s : Stage σ}

/-- What a host stops for when it shows an event or decides a minigame. -/
structure StopsFor (host : Host σ ε) (Q : ε → Prop) : Prop where
  render : ∀ event world e, ((host.render event).on world).1 = .error e → Q e
  minigame : ∀ decide, host.minigame = some decide →
    ∀ game resources world e, ((decide game resources).on world).1 = .error e → Q e

theorem stopsFor_any {host : Host σ ε} {Q : ε → Prop} (h : ∀ e, Q e) : StopsFor host Q :=
  ⟨fun _ _ e _ => h e, fun _ _ _ _ _ e _ => h e⟩

/-- An action that stops, if it does, only for faults of a sort. -/
def StopsOnly {α : Type} (P : RunFault ε → Prop) (act : Act (Stage σ) (RunFault ε) α) : Prop :=
  ∀ s fault, (act.on s).1 = .error fault → P fault

/-- An action that stops, if it does, for what is met in dealing with a node. -/
def StopsAtNode {α : Type} (act : Act (Stage σ) (RunFault ε) α) : Prop :=
  ∀ s fault, (act.on s).1 = .error fault → fault.ofNode = true

section StopsOnly

variable {α β : Type} {P : RunFault ε → Prop}

theorem stopsOnly_of_ok {act : Act (Stage σ) (RunFault ε) α}
    (h : ∀ s, ∃ a, (act.on s).1 = .ok a) : StopsOnly P act := by
  intro s fault hf
  obtain ⟨a, ha⟩ := h s
  rw [ha] at hf
  cases hf

theorem stopsOnly_pure (a : α) : StopsOnly P (pure a : Act (Stage σ) (RunFault ε) α) :=
  stopsOnly_of_ok fun _ => ⟨a, rfl⟩

theorem stopsOnly_throw {fault : RunFault ε} (h : P fault) :
    StopsOnly P (throw fault : Act (Stage σ) (RunFault ε) α) :=
  fun _ _ e => by cases e; exact h

theorem stopsOnly_theRun : StopsOnly P (theRun : Act (Stage σ) (RunFault ε) Run) :=
  stopsOnly_of_ok fun s => ⟨s.run, rfl⟩

theorem stopsOnly_note (host : Host σ ε) (n : Note) : StopsOnly P (note host n) :=
  stopsOnly_of_ok fun _ => ⟨(), rfl⟩

theorem stopsOnly_known {ε' : Type} {fault : ε' → RunFault ε} {answer : Except ε' α}
    (h : ∀ e, answer = .error e → P (fault e)) :
    StopsOnly P (Act.known fault answer : Act (Stage σ) (RunFault ε) α) := by
  cases answer with
  | ok a => exact stopsOnly_pure a
  | error e => exact stopsOnly_throw (h e rfl)

theorem stopsOnly_bind {act : Act (Stage σ) (RunFault ε) α}
    {next : α → Act (Stage σ) (RunFault ε) β} (h : StopsOnly P act)
    (hnext : ∀ a, StopsOnly P (next a)) : StopsOnly P (act >>= next) := by
  intro s fault hf
  rw [Act.on_bind] at hf
  cases ha : act.on s with
  | mk answer after =>
    rw [ha] at hf
    cases answer with
    | ok a => exact hnext a after fault hf
    | error other => cases hf; exact h s _ (congrArg Prod.fst ha)

theorem stopsOnly_noteConflict (host : Host σ ε) (resources : Resources)
    (requirement : Option (Table Amount)) :
    StopsOnly P (noteConflict host resources requirement) := by
  refine stopsOnly_of_ok fun s => ?_
  obtain ⟨world, h⟩ := on_noteConflict host resources requirement s
  exact ⟨(), congrArg Prod.fst h⟩

theorem stopsOnly_offer (host : Host σ ε) {resources : Resources} {options : List ChoiceOption}
    (h : ∀ o ∈ options, ∀ fault, o.view resources = .error fault → P fault) :
    StopsOnly P (offer host resources options) := by
  induction options with
  | nil => exact stopsOnly_pure []
  | cons o rest ih =>
    obtain ⟨hview, hrest⟩ := List.forall_mem_cons.1 h
    refine stopsOnly_bind (stopsOnly_noteConflict host resources o.requirement) fun _ => ?_
    refine stopsOnly_bind (stopsOnly_known hview) fun view => ?_
    exact stopsOnly_bind (ih hrest) fun views => stopsOnly_pure (view :: views)

theorem stopsOnly_ofHost {act : Act σ ε α}
    (h : ∀ world e, (act.on world).1 = .error e → P (.host e)) :
    StopsOnly P (ofHost act) := by
  intro s fault hf
  rw [on_ofHost] at hf
  cases ha : (act.on s.gateway.world).1 with
  | ok a => simp only [ha] at hf; contradiction
  | error e => rw [ha] at hf; cases hf; exact h _ _ ha

variable (stops : StopsFor host fun e => P (.host e))

include stops

theorem stopsOnly_emitAll (events : List Event) : StopsOnly P (emitAll host events) := by
  induction events with
  | nil => exact stopsOnly_pure ()
  | cons event rest ih =>
    refine stopsOnly_bind (stopsOnly_bind (stopsOnly_ofHost (stops.render event)) fun shown => ?_)
      fun _ => ih
    cases shown with
    | none => exact stopsOnly_pure ()
    | some reason => exact stopsOnly_note host _

theorem stopsOnly_contest (game : String) : StopsOnly P (contest host game) := by
  rw [contest]
  split
  · next decide hd =>
    exact stopsOnly_bind stopsOnly_theRun fun run =>
      stopsOnly_ofHost (stops.minigame decide hd game run.resources)
  · exact stopsOnly_pure true

/-- To resolve a node stops only for what its beat, its options or the host stop for. -/
theorem stopsOnly_resolveNode {node : Node}
    (ofBeat : ∀ id resources fault, node.beat id resources = .error fault → P fault)
    (ofView : ∀ resources (o : ChoiceOption) fault, o.view resources = .error fault → P fault) :
    StopsOnly P (resolveNode host node) := by
  refine stopsOnly_bind stopsOnly_theRun fun run => ?_
  refine stopsOnly_bind (stopsOnly_note host _) fun _ => ?_
  refine stopsOnly_bind (stopsOnly_noteConflict host run.resources node.tested) fun _ => ?_
  refine stopsOnly_bind (stopsOnly_known (ofBeat _ _)) fun beat => ?_
  refine stopsOnly_bind (stopsOnly_emitAll stops beat.events) fun _ => ?_
  split
  · exact stopsOnly_pure _
  · exact stopsOnly_bind (stopsOnly_offer host fun o _ => ofView _ o) fun _ => stopsOnly_pure _
  · exact stopsOnly_bind (stopsOnly_contest stops _) fun _ => stopsOnly_pure _

end StopsOnly

theorem ofNode_of_beat {id : String} {resources : Resources} {node : Node} {fault : RunFault ε}
    (h : node.beat id resources = .error fault) : fault.ofNode = true := by
  obtain ⟨cause, rfl⟩ | ⟨clash, rfl⟩ | ⟨number, rfl⟩ | ⟨kind, -, rfl⟩ := fault_of_beat h
  · exact ofNode_ofUpdate id cause
  · rfl
  · rfl
  · rfl

theorem ofNode_of_view {resources : Resources} {o : ChoiceOption} {fault : RunFault ε}
    (h : o.view resources = .error fault) : fault.ofNode = true := by
  obtain ⟨clash, rfl⟩ | ⟨number, rfl⟩ := fault_of_view h
  · rfl
  · rfl

theorem stopsAtNode_resolveNode (host : Host σ ε) (node : Node) :
    StopsAtNode (resolveNode host node) :=
  stopsOnly_resolveNode (stopsFor_any fun _ => rfl) (fun _ _ _ => ofNode_of_beat)
    fun _ _ _ => ofNode_of_view

/-- A call stops for the status of the run just if resolving it does. -/
theorem ofStatus_call_iff (host : Host σ ε) (c : Call) (s : Stage σ) :
    (∃ fault, ((call host c).on s).1 = .error fault ∧ fault.ofStatus = true) ↔
      ∃ fault, ((resolve host c).on s).1 = .error fault ∧ fault.ofStatus = true := by
  obtain ⟨world, -, ⟨fault, -, hr, hc⟩ | ⟨intent, -, hr, hc⟩⟩ :=
    call_cases (spares_nothing host) c s
  · rw [hr, hc]
    exact ⟨fun ⟨_, hf, h⟩ => ⟨fault, rfl, by cases hf; exact h⟩,
      fun ⟨_, hf, h⟩ => ⟨fault, rfl, by cases hf; exact h⟩⟩
  · rw [hr, hc]
    constructor
    · rintro ⟨fault, hf, h⟩
      have hsave := commit_fault (Act.eq_of_answer hf)
      rw [ofStatus_of_ofSave hsave] at h
      cases h
    · rintro ⟨fault, hf, -⟩
      cases hf

/-- A step is turned down just if the run is not running. -/
theorem step_turned_down_iff (host : Host σ ε) (s : Stage σ) :
    (∃ fault, ((step host).on s).1 = .error fault ∧ fault.ofStatus = true) ↔
      s.run.status ≠ .running := by
  have hcall := ofStatus_call_iff host .step s
  rw [call] at hcall
  rw [hcall, resolve, resolveStep, Act.on_bind, on_theRun]
  cases hs : s.run.status with
  | terminated => exact ⟨fun _ => by decide, fun _ => ⟨.ended, by simp only [hs]; rfl, rfl⟩⟩
  | awaitingChoice =>
    exact ⟨fun _ => by decide,
      fun _ => ⟨.awaitingChoice s.run.current, by simp only [hs]; rfl, rfl⟩⟩
  | running =>
    constructor
    · rintro ⟨fault, hf, h⟩
      simp only [hs] at hf
      cases hn : s.run.episode.node? s.run.current with
      | none => simp only [hn] at hf; cases hf; cases h
      | some node =>
        simp only [hn] at hf
        rw [ofStatus_of_ofNode (stopsAtNode_resolveNode host node s fault hf)] at h
        cases h
    · exact fun h => absurd rfl h

/-- A pick is turned down, whatever the option, just if the run does not wait for a choice. -/
theorem choose_turned_down_iff (host : Host σ ε) (option : String) (s : Stage σ) :
    (∃ fault, ((choose host option).on s).1 = .error fault ∧ fault.ofStatus = true) ↔
      s.run.status ≠ .awaitingChoice := by
  have hcall := ofStatus_call_iff host (.choose option) s
  rw [call] at hcall
  rw [hcall, resolve, resolvePick, Act.on_bind, on_theRun]
  by_cases hs : s.run.status = .awaitingChoice
  · constructor
    · rintro ⟨fault, hf, h⟩
      simp only [if_pos hs] at hf
      cases ho : s.run.offered? option with
      | none => simp only [ho] at hf; cases hf; cases h
      | some picked =>
        obtain ⟨world, hw⟩ := on_noteConflict host s.run.resources picked.requirement s
        simp only [ho, Act.on_bind, hw, Act.on_known] at hf
        cases hm : s.run.resources.meets picked.requirement with
        | error clash => rw [hm] at hf; cases hf; cases h
        | ok met =>
          cases met with
          | false => rw [hm] at hf; cases hf; cases h
          | true =>
            simp only [hm, mapError_ok, if_true, Act.on_bind, Act.on_known] at hf
            cases hg : s.run.resources.gain picked.gain with
            | ok resources => rw [hg] at hf; cases hf
            | error e =>
              rw [hg] at hf
              cases hf
              rw [ofStatus_of_ofNode (ofNode_ofUpdate _ e)] at h
              cases h
    · exact fun h => absurd hs h
  · exact ⟨fun _ => hs, fun _ => ⟨.noChoice, by simp only [if_neg hs]; rfl, rfl⟩⟩

end Stage

/-! ## How a run goes together -/

/-- How the parts of a run of an episode go together.  It has ended just if it stands at the
empty id.  While it waits it stands at a choice and has that choice's options on offer, in
their order; else nothing is on offer. -/
structure Run.Coherent (e : Episode) (r : Run) : Prop where
  episode : r.episode = e
  ended : r.status = .terminated ↔ r.current = ""
  waiting : r.status = .awaitingChoice → ∃ prompt options,
    e.node? r.current = some (.choice prompt options) ∧
      r.pending.map ChoiceView.option = options
  idle : r.status ≠ .awaitingChoice → r.pending = []

theorem Status.at_eq_terminated_iff {node : String} : Status.at node = .terminated ↔ node = "" := by
  rw [Status.at]
  split
  · next h => exact iff_of_true rfl h
  · next h => exact iff_of_false (by decide) h

theorem Status.at_eq_running_iff {node : String} : Status.at node = .running ↔ node ≠ "" := by
  rw [Status.at]
  split
  · next h => exact iff_of_false (by decide) (absurd h)
  · next h => exact iff_of_true rfl h

theorem Status.at_ne_awaitingChoice (node : String) : Status.at node ≠ .awaitingChoice := by
  rw [Status.at]
  split <;> decide

namespace Run.Coherent

variable {e : Episode} {r : Run}

theorem start (e : Episode) (node : Option String) (resources : Resources) :
    (Run.start e node resources).Coherent e where
  episode := rfl
  ended := Status.at_eq_terminated_iff
  waiting h := absurd h (Status.at_ne_awaitingChoice _)
  idle _ := rfl

/-- The resources do not matter. -/
theorem change (h : r.Coherent e) (resources : Resources) :
    Run.Coherent e { r with resources } :=
  ⟨h.episode, h.ended, h.waiting, h.idle⟩

/-- A running run that comes to a choice may wait there. -/
theorem suspend (h : r.Coherent e) {prompt : String} {options : List ChoiceOption}
    {views : List ChoiceView} (running : r.status = .running)
    (found : r.episode.node? r.current = some (.choice prompt options))
    (offer : views.map ChoiceView.option = options) :
    Run.Coherent e { r with pending := views, status := .awaitingChoice } where
  episode := h.episode
  ended := iff_of_false (by simp) fun hc => by
    rw [h.ended.2 hc] at running
    cases running
  waiting _ := ⟨prompt, options, h.episode ▸ found, offer⟩
  idle hs := absurd rfl hs

/-- With nothing on offer a run may move on anywhere. -/
theorem arrive (h : r.Coherent e) (next : String) (resources : Resources) :
    Run.Coherent e
      { r with current := next, status := Status.at next, pending := [], resources } where
  episode := h.episode
  ended := Status.at_eq_terminated_iff
  waiting hs := absurd hs (Status.at_ne_awaitingChoice next)
  idle _ := rfl

end Run.Coherent

/-- What goes together in a run of an episode even if saves fail.  Unless it waits, its status
is that of the node it stands at; while it waits it stands at a choice, and what is on offer
are options of that choice. -/
structure Run.Grounded (e : Episode) (r : Run) : Prop where
  episode : r.episode = e
  placed : r.status ≠ .awaitingChoice → r.status = Status.at r.current
  waiting : r.status = .awaitingChoice → r.current ≠ "" ∧ ∃ prompt options,
    e.node? r.current = some (.choice prompt options) ∧ ∀ v ∈ r.pending, v.option ∈ options

theorem Run.Coherent.grounded {e : Episode} {r : Run} (h : r.Coherent e) : r.Grounded e where
  episode := h.episode
  placed hs := by
    rw [Status.at]
    split
    · next hc => exact h.ended.2 hc
    · next hc =>
      cases hr : r.status with
      | running => rfl
      | awaitingChoice => exact absurd hr hs
      | terminated => exact absurd (h.ended.1 hr) hc
  waiting hs := by
    obtain ⟨prompt, options, found, hoptions⟩ := h.waiting hs
    refine ⟨fun hc => ?_, prompt, options, found, fun v hv => ?_⟩
    · rw [h.ended.2 hc] at hs
      cases hs
    · exact hoptions ▸ List.mem_map_of_mem hv

namespace Run.Grounded

variable {e : Episode} {r : Run}

theorem start (e : Episode) (node : Option String) (resources : Resources) :
    (Run.start e node resources).Grounded e := (Coherent.start e node resources).grounded

/-- A run that has not ended stands at an id. -/
theorem current_ne_empty (h : r.Grounded e) (going : r.status ≠ .terminated) : r.current ≠ "" := by
  by_cases hs : r.status = .awaitingChoice
  · exact (h.waiting hs).1
  · intro hc
    exact going ((h.placed hs).trans (Status.at_eq_terminated_iff.2 hc))

theorem suspend (h : r.Grounded e) {prompt : String} {options : List ChoiceOption}
    {views : List ChoiceView} (running : r.status = .running)
    (found : r.episode.node? r.current = some (.choice prompt options))
    (offer : views.map ChoiceView.option = options) :
    Run.Grounded e { r with pending := views, status := .awaitingChoice } where
  episode := h.episode
  placed hs := absurd rfl hs
  waiting _ := by
    refine ⟨h.current_ne_empty (by rw [running]; decide), prompt, options, h.episode ▸ found,
      fun v hv => ?_⟩
    exact offer ▸ List.mem_map_of_mem hv

/-- Less may be on offer, and the resources do not matter. -/
theorem settle (h : r.Grounded e) (resources : Resources) {pending : List ChoiceView}
    (fewer : ∀ v ∈ pending, v ∈ r.pending) : Run.Grounded e { r with resources, pending } where
  episode := h.episode
  placed := h.placed
  waiting hs := by
    obtain ⟨hc, prompt, options, found, hoptions⟩ := h.waiting hs
    exact ⟨hc, prompt, options, found, fun v hv => hoptions v (fewer v hv)⟩

/-- A run may move on anywhere. -/
theorem arrive (episode : r.episode = e) (next : String) (resources : Resources)
    (pending : List ChoiceView) :
    Run.Grounded e { r with current := next, status := Status.at next, pending, resources } where
  episode := episode
  placed _ := rfl
  waiting hs := absurd hs (Status.at_ne_awaitingChoice next)

end Run.Grounded

namespace Stage

variable {σ ε : Type} {host : Host σ ε} {e : Episode} {s t : Stage σ}

/-- A call keeps a run coherent unless its save fails. -/
theorem coherent_call (coherent : s.run.Coherent e) {c : Call}
    (unfailing : ∀ fault, ((call host c).on s).1 = .error fault → fault.ofSave = false) :
    ((call host c).on s).2.run.Coherent e := by
  have h := outcome_call (spares_nothing host) c s
  generalize (call host c).on s = came at h unfailing ⊢
  cases h with
  | stopped reason spared => exact coherent
  | suspended intends spared =>
    cases intends with
    | suspend running found offer => exact coherent.suspend running found offer.1
  | unsaved intends => cases unfailing _ rfl
  | moved intends spared encoded written =>
    rw [intends.leaves_nothing coherent.idle]
    exact coherent.arrive _ _

/-- A call keeps a run grounded, whether it stops or not. -/
theorem grounded_call (grounded : s.run.Grounded e) (host : Host σ ε) (c : Call) :
    ((call host c).on s).2.run.Grounded e := by
  have h := outcome_call (spares_nothing host) c s
  generalize (call host c).on s = came at h ⊢
  cases h with
  | stopped reason spared => exact grounded
  | suspended intends spared =>
    cases intends with
    | suspend running found offer => exact grounded.suspend running found offer.1
  | unsaved intends =>
    cases intends with
    | move running found beats leads => exact grounded.settle _ fun v hv => hv
    | pick waiting offered met gained => exact grounded.settle _ nofun
  | moved intends spared encoded written => exact .arrive grounded.episode _ _ _

theorem grounded_calls (grounded : s.run.Grounded e) (host : Host σ ε) (made : List Call) :
    (calls host made s).2.run.Grounded e := by
  induction made generalizing s with
  | nil => exact grounded
  | cons c rest ih => exact ih (s := ((call host c).on s).2) (grounded_call grounded host c)

/-- A deed that no save stops. -/
def Unfailing (host : Host σ ε) (s : Stage σ) : Deed → Prop
  | .call c => ∀ fault, ((call host c).on s).1 = .error fault → fault.ofSave = false
  | _ => True

/-- The stages that deeds lead to while no save fails. -/
inductive Reached (host : Host σ ε) (s : Stage σ) : Stage σ → Prop
  | start : Reached host s s
  | deed {t : Stage σ} (reached : Reached host s t) (d : Deed) (unfailing : Unfailing host t d) :
    Reached host s (afterDeed host t d)

theorem coherent_afterDeed (coherent : s.run.Coherent e) {d : Deed}
    (unfailing : Unfailing host s d) : (afterDeed host s d).run.Coherent e := by
  cases d with
  | call c => exact coherent_call coherent unfailing
  | put name value => exact coherent.change _
  | drop name => exact coherent.change _

theorem coherent_of_reached (coherent : s.run.Coherent e) (reached : Reached host s t) :
    t.run.Coherent e := by
  induction reached with
  | start => exact coherent
  | deed _ d unfailing ih => exact coherent_afterDeed ih unfailing

/-! ## Runs that have ended -/

/-- A call on a run that has ended is turned down at once. -/
theorem call_of_ended (host : Host σ ε) (ended : s.run.status = .terminated) (c : Call) :
    ∃ fault, fault.ofStatus = true ∧ (call host c).on s = (.error fault, s) := by
  cases c with
  | step =>
    refine ⟨.ended, rfl, ?_⟩
    rw [call, step, Act.on_bind, on_theRun]
    simp only [ended, Act.on_throw]
  | choose option =>
    refine ⟨.noChoice, rfl, ?_⟩
    rw [call_eq, resolve, resolvePick, Act.on_bind, Act.on_bind, on_theRun]
    simp only [ended, reduceCtorEq, if_false, Act.on_throw]

/-- Deeds on a run that has ended come to what the host itself does to the resources. -/
theorem afterDeeds_of_ended (host : Host σ ε) (ended : s.run.status = .terminated)
    (deeds : List Deed) :
    afterDeeds host deeds s =
      { s with run := { s.run with resources := deeds.foldl Deed.edit s.run.resources } } := by
  induction deeds generalizing s with
  | nil => rfl
  | cons d rest ih =>
    have hfirst : afterDeed host s d =
        { s with run := { s.run with resources := d.edit s.run.resources } } := by
      cases d with
      | call c =>
        obtain ⟨fault, -, hc⟩ := call_of_ended host ended c
        rw [afterDeed, hc]
        rfl
      | put name value => rfl
      | drop name => rfl
    rw [afterDeeds, List.foldl_cons, hfirst]
    exact ih (s := { s with run := { s.run with resources := d.edit s.run.resources } }) ended

/-- Nothing reaches the host of a run that has ended. -/
theorem trace_of_ended (host : Host σ ε) (ended : s.run.status = .terminated) (c : Call) :
    trace host [c] s = [] := by
  obtain ⟨fault, -, hc⟩ := call_of_ended host.traced (s := s.traced) ended c
  have hcalls : (calls host.traced [c] s.traced).2 = ((call host.traced c).on s.traced).2 := rfl
  rw [trace, hcalls, hc]
  rfl

/-- Whatever calls and changes of the resources a run has gone through with no save failing,
and wherever it started: it has ended just if it stands at the empty id; if it waits for a
choice it stands at one and has its options on offer, in their order; else nothing is on
offer.  A step is turned down just if the run is not running, a pick just if it does not
wait.  Once it has ended nothing reaches the host any more, and nothing changes but what the
host itself does to the resources. -/
theorem coherent_while_saves_succeed (host : Host σ ε) (gateway : Save.Gateway σ) (e : Episode)
    (node : Option String) (initial : Resources)
    (reached : Reached host (start host gateway e node initial) s) :
    (s.run.status = .terminated ↔ s.run.current = "") ∧
    (s.run.status = .awaitingChoice → ∃ prompt options,
      e.node? s.run.current = some (.choice prompt options) ∧
        s.run.pending.map ChoiceView.option = options) ∧
    (s.run.status ≠ .awaitingChoice → s.run.pending = []) ∧
    ((∃ fault, ((step host).on s).1 = .error fault ∧ fault.ofStatus = true) ↔
      s.run.status ≠ .running) ∧
    (∀ option, (∃ fault, ((choose host option).on s).1 = .error fault ∧ fault.ofStatus = true) ↔
      s.run.status ≠ .awaitingChoice) ∧
    (s.run.status = .terminated → ∀ deeds : List Deed,
      afterDeeds host deeds s =
          { s with run := { s.run with resources := deeds.foldl Deed.edit s.run.resources } } ∧
        ∀ c, trace host [c] (afterDeeds host deeds s) = []) := by
  have fresh : (start host gateway e node initial).run.Coherent e := .start e node initial
  have coherent := coherent_of_reached fresh reached
  refine ⟨coherent.ended, coherent.waiting, coherent.idle, step_turned_down_iff host s,
    fun option => choose_turned_down_iff host option s, fun ended deeds => ?_⟩
  have hafter := afterDeeds_of_ended host ended deeds
  have still : (afterDeeds host deeds s).run.status = .terminated := by
    rw [hafter]
    exact ended
  exact ⟨hafter, trace_of_ended host still⟩

/-- A ferry that is paid for or missed. -/
def ferry : Episode := ⟨"ferry", "The ferry", "dock", Table.ofList [
  ("dock", .choice "Cross?" [
    ⟨"pay", "Pay", "shore", some (Table.ofList [("coins", .int (-1))]), none, none⟩,
    ⟨"stay", "Stay", "", none, none, none⟩]),
  ("shore", .ending none none)]⟩

/-- At the dock the run waits, whatever becomes of the coins and though a wrong pick is turned
down; a step is turned down, a pick is not. -/
theorem ferry_coherent :
    let host := (Rehearsal.inMemory [] []).toHost
    let fresh := start host ⟨none, ⟨Table.empty, 0, 0, [], [], []⟩⟩ ferry none Table.empty
    let s := afterDeeds host [.call .step, .put "coins" (.string "none"), .call (.choose "swim")]
      fresh
    Reached host fresh s ∧ s.run.status = .awaitingChoice ∧ s.run.current = "dock" ∧
      s.run.pending.map (fun v => v.option.id) = ["pay", "stay"] ∧
      (∃ fault, ((step host).on s).1 = .error fault ∧ fault.ofStatus = true) ∧
      ¬∃ fault, ((choose host "pay").on s).1 = .error fault ∧ fault.ofStatus = true := by
  intro host fresh s
  have waits : ((call host .step).on fresh).1.isOk = true := by decide +kernel
  have rejects : ((call host (.choose "swim")).on
      (afterDeeds host [.call .step, .put "coins" (.string "none")] fresh)).1 =
      .error (.rejected (.notOffered "swim" "dock")) := by decide +kernel
  have hstep : Unfailing host fresh (.call .step) := by
    intro fault hf
    rw [hf] at waits
    cases waits
  have hchoose : Unfailing host (afterDeeds host [.call .step, .put "coins" (.string "none")] fresh)
      (.call (.choose "swim")) := by
    intro fault hf
    rw [rejects] at hf
    cases hf
    rfl
  have reached : Reached host fresh s :=
    .deed (.deed (.deed .start (.call .step) hstep) (.put "coins" (.string "none")) trivial)
      (.call (.choose "swim")) hchoose
  have status : s.run.status = .awaitingChoice := by decide +kernel
  have pending : s.run.pending.map (fun v => v.option.id) = ["pay", "stay"] := by decide +kernel
  obtain ⟨-, -, -, hturned, hpick, -⟩ :=
    coherent_while_saves_succeed host _ ferry none Table.empty reached
  refine ⟨reached, status, by decide +kernel, pending, hturned.2 ?_, fun h => (hpick "pay").1 h ?_⟩
  · rw [status]
    decide
  · exact status

end Stage

end Storyline
