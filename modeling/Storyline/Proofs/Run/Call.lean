import Storyline.Proofs.Save.Gateway
import Storyline.Run.Step

/-!
# Storyline.Proofs.Run.Call

Calls on a run, taken apart.  A call first *resolves* what is to be done: it looks
the node or the option up, shows what there is to show and asks the host what
there is to ask, and in all that leaves the run alone.  Only then does it *commit*
to the intent that came of it.

`step_eq` and `choose_eq` say that the calls are made up in this way.  What can
come of resolving is said once, by `Run.Intends`; everything about runs follows
from that and from the few lines of `commit`.
-/

namespace Storyline

/-- A call on a run. -/
inductive Call
  /-- Deals with the node that the run stands at. -/
  | step
  /-- Picks an option. -/
  | choose (option : String)
deriving DecidableEq, Repr

/-- What a host does with a run: a call, or a change of the resources of its own. -/
inductive Deed
  | call (c : Call)
  /-- Puts a value into a resource. -/
  | put (name : String) (value : Json)
  /-- Takes a resource away. -/
  | drop (name : String)
deriving DecidableEq, Repr

/-- What a call has settled on when nothing of it is done yet. -/
inductive Intent
  /-- To wait for one of the options on offer. -/
  | suspend (events : List Event) (views : List ChoiceView)
  /-- To move on to a node with resources, while options are still on offer. -/
  | move (resources : Resources) (pending : List ChoiceView) (events : List Event) (next : String)

/-- Whether a fault is one of saving. -/
def RunFault.ofSave {ε : Type} : RunFault ε → Bool
  | .save _ => true
  | _ => false

namespace Stage

variable {σ ε κ : Type}

/-- The stage in another world of its host. -/
def inWorld (s : Stage σ) (world : σ) : Stage σ := { s with gateway := { s.gateway with world } }

@[simp] theorem run_inWorld (s : Stage σ) (world : σ) : (s.inWorld world).run = s.run := rfl

@[simp] theorem last_inWorld (s : Stage σ) (world : σ) :
    (s.inWorld world).gateway.last = s.gateway.last := rfl

@[simp] theorem world_inWorld (s : Stage σ) (world : σ) :
    (s.inWorld world).gateway.world = world := rfl

@[simp] theorem inWorld_inWorld (s : Stage σ) (world later : σ) :
    (s.inWorld world).inWorld later = s.inWorld later := rfl

@[simp] theorem inWorld_self (s : Stage σ) : s.inWorld s.gateway.world = s := rfl

/-- The stage with its resources settled, and options on offer. -/
def settle (s : Stage σ) (resources : Resources) (pending : List ChoiceView) : Stage σ :=
  { s with run := { s.run with resources, pending } }

@[simp] theorem run_settle (s : Stage σ) (resources : Resources) (pending : List ChoiceView) :
    (s.settle resources pending).run = { s.run with resources, pending } := rfl

@[simp] theorem gateway_settle (s : Stage σ) (resources : Resources) (pending : List ChoiceView) :
    (s.settle resources pending).gateway = s.gateway := rfl

@[simp] theorem settle_self (s : Stage σ) : s.settle s.run.resources s.run.pending = s := rfl

/-! ## Calls in two parts -/

/-- Resolves what a node is to do. -/
def resolveNode (host : Host σ ε) (node : Node) : Act (Stage σ) (RunFault ε) Intent := do
  let run ← theRun
  note host (.dispatching run.current node.kindName)
  noteConflict host run.resources node.tested
  let beat ← Act.known id (node.beat run.current run.resources)
  emitAll host beat.events
  match beat.turn with
  | .go next => return .move beat.resources run.pending beat.events next
  | .offer options => return .suspend beat.events (← offer host beat.resources options)
  | .contest game onWin onLose => do
    let won ← contest host game
    return .move beat.resources run.pending beat.events (if won then onWin else onLose)

/-- Resolves what a step is to do. -/
def resolveStep (host : Host σ ε) : Act (Stage σ) (RunFault ε) Intent := do
  let run ← theRun
  match run.status with
  | .terminated => throw .ended
  | .awaitingChoice => throw (.awaitingChoice run.current)
  | .running =>
    match run.episode.node? run.current with
    | none => throw (.missingNode run.current)
    | some node => resolveNode host node

/-- Resolves what a pick is to do. -/
def resolvePick (host : Host σ ε) (option : String) : Act (Stage σ) (RunFault ε) Intent := do
  let run ← theRun
  if run.status = .awaitingChoice then
    match run.offered? option with
    | none => throw (.rejected (.notOffered option run.current))
    | some picked => do
      noteConflict host run.resources picked.requirement
      if ← Act.known .clash (run.resources.meets picked.requirement) then
        let resources ← Act.known (RunFault.ofUpdate run.current) (run.resources.gain picked.gain)
        return .move resources [] [] picked.next
      else throw (.rejected (.unmet option))
  else throw .noChoice

/-- Resolves what a call is to do. -/
def resolve (host : Host σ ε) : Call → Act (Stage σ) (RunFault ε) Intent
  | .step => resolveStep host
  | .choose option => resolvePick host option

/-- Does what was settled on. -/
def commit (host : Host σ ε) : Intent → Act (Stage σ) (RunFault ε) StepResult
  | .suspend events views => do
    let run ← theRun
    changeRun fun r => { r with pending := views, status := .awaitingChoice }
    return ⟨run.current, .awaitingChoice, none, events, views⟩
  | .move resources pending events next => do
    let run ← theRun
    changeRun fun r => { r with resources, pending }
    advance host run.current next events

/-- A call. -/
def call (host : Host σ ε) : Call → Act (Stage σ) (RunFault ε) StepResult
  | .step => step host
  | .choose option => choose host option

/-- Makes calls one after the other, whether they stop or not. -/
def calls (host : Host σ ε) :
    List Call → Stage σ → List (Except (RunFault ε) StepResult) × Stage σ
  | [], s => ([], s)
  | c :: rest, s =>
    let (answer, s) := (call host c).on s
    let (answers, s) := calls host rest s
    (answer :: answers, s)

theorem calls_append (host : Host σ ε) (made later : List Call) (s : Stage σ) :
    (calls host (made ++ later) s).2 = (calls host later (calls host made s).2).2 := by
  induction made generalizing s with
  | nil => rfl
  | cons c rest ih => exact ih ((call host c).on s).2

/-- If no save stops a list of calls, then none stops the first call and none the others. -/
theorem unfailing_cons {host : Host σ ε} {c : Call} {rest : List Call} {s : Stage σ}
    (h : ∀ fault, .error fault ∈ (calls host (c :: rest) s).1 → fault.ofSave = false) :
    (∀ fault, ((call host c).on s).1 = .error fault → fault.ofSave = false) ∧
      ∀ fault, .error fault ∈ (calls host rest ((call host c).on s).2).1 →
        fault.ofSave = false := by
  rw [calls] at h
  constructor
  · intro fault hf
    apply h fault
    rw [← hf]
    exact List.mem_cons_self
  · exact fun fault hf => h fault (List.mem_cons_of_mem _ hf)

/-- Whether an answer is anything but a fault of saving. -/
def unstopped : Except (RunFault ε) StepResult → Bool
  | .ok _ => true
  | .error fault => !fault.ofSave

theorem unfailing_of_all {answers : List (Except (RunFault ε) StepResult)}
    (h : answers.all unstopped = true) :
    ∀ fault, .error fault ∈ answers → fault.ofSave = false := by
  intro fault hf
  have hfault : (!fault.ofSave) = true := List.all_eq_true.1 h _ hf
  simpa using hfault

/-- The stage after a deed. -/
def afterDeed (host : Host σ ε) (s : Stage σ) : Deed → Stage σ
  | .call c => ((call host c).on s).2
  | .put name value =>
    { s with run := { s.run with resources := s.run.resources.insert name value } }
  | .drop name => { s with run := { s.run with resources := s.run.resources.erase name } }

/-- The stage after deeds. -/
def afterDeeds (host : Host σ ε) (deeds : List Deed) (s : Stage σ) : Stage σ :=
  deeds.foldl (afterDeed host) s

@[simp] theorem on_theRun (s : Stage σ) :
    (theRun : Act (Stage σ) (RunFault ε) Run).on s = (.ok s.run, s) := rfl

@[simp] theorem on_changeRun (f : Run → Run) (s : Stage σ) :
    (changeRun f : Act (Stage σ) (RunFault ε) Unit).on s =
      (.ok (), { s with run := f s.run }) := rfl

@[simp] theorem on_note (host : Host σ ε) (n : Note) (s : Stage σ) :
    (note host n).on s = (.ok (), s.inWorld (host.note n s.gateway.world)) := rfl

theorem on_ofHost {α : Type} (act : Act σ ε α) (s : Stage σ) :
    (ofHost act).on s =
      ((act.on s.gateway.world).1.mapError .host, s.inWorld (act.on s.gateway.world).2) := by
  rw [ofHost, Act.on_within]
  cases h : act.on s.gateway.world with
  | mk answer world => cases answer <;> rfl

/-! ## Quiet actions -/

/-- A part of the host's world that only the store touches: showing events, deciding
minigames and taking notes leave it as it is. -/
structure Spares (host : Host σ ε) (kept : σ → κ) : Prop where
  render : ∀ event world, kept ((host.render event).on world).2 = kept world
  minigame : ∀ decide, host.minigame = some decide →
    ∀ game resources world, kept ((decide game resources).on world).2 = kept world
  note : ∀ n world, kept (host.note n world) = kept world

theorem Spares.map {κ' : Type} {host : Host σ ε} {kept : σ → κ} (spares : Spares host kept)
    (f : κ → κ') : Spares host fun world => f (kept world) where
  render event world := congrArg f (spares.render event world)
  minigame decide hd game resources world :=
    congrArg f (spares.minigame decide hd game resources world)
  note n world := congrArg f (spares.note n world)

/-- An action that leaves the run and the last save alone and touches nothing in the
host's world that is kept.  What it stops for is never a fault of saving. -/
structure Quiet {α : Type} (kept : σ → κ) (act : Act (Stage σ) (RunFault ε) α) : Prop where
  world : ∀ s, ∃ world, (act.on s).2 = s.inWorld world ∧ kept world = kept s.gateway.world
  fault : ∀ s fault, (act.on s).1 = .error fault → fault.ofSave = false

section Quiet

variable {α β : Type} {host : Host σ ε} {kept : σ → κ}

/-- A quiet action stops or answers, and either way only the world has changed. -/
theorem Quiet.cases {act : Act (Stage σ) (RunFault ε) α} (quiet : Quiet kept act) (s : Stage σ) :
    (∃ fault world, act.on s = (.error fault, s.inWorld world) ∧
      kept world = kept s.gateway.world ∧ fault.ofSave = false) ∨
      ∃ a world, act.on s = (.ok a, s.inWorld world) ∧ kept world = kept s.gateway.world := by
  obtain ⟨world, hw, hk⟩ := quiet.world s
  cases ha : (act.on s).1 with
  | error fault => exact .inl ⟨fault, world, Prod.ext ha hw, hk, quiet.fault s fault ha⟩
  | ok a => exact .inr ⟨a, world, Prod.ext ha hw, hk⟩

theorem quiet_of_still {act : Act (Stage σ) (RunFault ε) α} (h : ∀ s, (act.on s).2 = s)
    (hf : ∀ s fault, (act.on s).1 = .error fault → fault.ofSave = false) : Quiet kept act where
  world s := ⟨s.gateway.world, by rw [h s, inWorld_self], rfl⟩
  fault := hf

theorem quiet_pure (a : α) : Quiet kept (pure a : Act (Stage σ) (RunFault ε) α) :=
  quiet_of_still (fun _ => rfl) (fun _ _ h => by cases h)

theorem quiet_throw {fault : RunFault ε} (h : fault.ofSave = false) :
    Quiet kept (throw fault : Act (Stage σ) (RunFault ε) α) :=
  quiet_of_still (fun _ => rfl) (fun _ _ e => by cases e; exact h)

theorem quiet_theRun : Quiet kept (theRun : Act (Stage σ) (RunFault ε) Run) :=
  quiet_of_still (fun _ => rfl) (fun _ _ h => by cases h)

theorem quiet_known {ε' : Type} {fault : ε' → RunFault ε} {answer : Except ε' α}
    (hf : ∀ e, answer = .error e → (fault e).ofSave = false) :
    Quiet kept (Act.known fault answer : Act (Stage σ) (RunFault ε) α) := by
  cases answer with
  | ok a => exact quiet_pure a
  | error e => exact quiet_throw (hf e rfl)

/-- One quiet action after another is quiet. -/
theorem quiet_bind {act : Act (Stage σ) (RunFault ε) α} {next : α → Act (Stage σ) (RunFault ε) β}
    (h : Quiet kept act) (hnext : ∀ a, Quiet kept (next a)) : Quiet kept (act >>= next) := by
  constructor
  · intro s
    rw [Act.on_bind]
    obtain ⟨fault, world, hs, hk, -⟩ | ⟨a, world, hs, hk⟩ := h.cases s
    · simp only [hs]
      exact ⟨world, rfl, hk⟩
    · simp only [hs]
      obtain ⟨later, hl, hk'⟩ := (hnext a).world (s.inWorld world)
      exact ⟨later, hl, hk'.trans hk⟩
  · intro s fault hf
    rw [Act.on_bind] at hf
    obtain ⟨other, world, hs, -, hsave⟩ | ⟨a, world, hs, -⟩ := h.cases s
    · simp only [hs] at hf
      cases hf
      exact hsave
    · simp only [hs] at hf
      exact (hnext a).fault (s.inWorld world) fault hf

theorem quiet_note (silent : ∀ n world, kept (host.note n world) = kept world) (n : Note) :
    Quiet kept (note host n) where
  world s := ⟨_, congrArg Prod.snd (on_note host n s), silent n _⟩
  fault s fault h := by simp only [on_note] at h; contradiction

theorem quiet_ofHost {act : Act σ ε α} (h : ∀ world, kept (act.on world).2 = kept world) :
    Quiet kept (ofHost act) where
  world s := ⟨_, congrArg Prod.snd (on_ofHost act s), h _⟩
  fault s fault hf := by
    rw [on_ofHost] at hf
    cases ha : (act.on s.gateway.world).1 with
    | ok a => simp only [ha] at hf; contradiction
    | error e => rw [ha] at hf; cases hf; rfl

theorem quiet_emit (spares : Spares host kept) (event : Event) : Quiet kept (emit host event) := by
  refine quiet_bind (quiet_ofHost (spares.render event)) fun shown => ?_
  cases shown with
  | none => exact quiet_pure ()
  | some reason => exact quiet_note spares.note _

theorem quiet_emitAll (spares : Spares host kept) (events : List Event) :
    Quiet kept (emitAll host events) := by
  induction events with
  | nil => exact quiet_pure ()
  | cons event rest ih => exact quiet_bind (quiet_emit spares event) fun _ => ih

theorem quiet_noteConflict (silent : ∀ n world, kept (host.note n world) = kept world)
    (resources : Resources) (requirement : Option (Table Amount)) :
    Quiet kept (noteConflict host resources requirement) := by
  rw [noteConflict]
  split
  · exact quiet_note silent _
  · exact quiet_pure ()

/-- What a node does fails for an update, for what is held, for a number, or because nothing is
known of its kind. -/
theorem fault_of_beat {id : String} {resources : Resources} {node : Node} {fault : RunFault ε}
    (h : node.beat id resources = .error fault) :
    (∃ cause, fault = .ofUpdate id cause) ∨ (∃ clash, fault = .clash clash) ∨
      (∃ number, fault = .number number) ∨
      ∃ kind, node = .unknown kind ∧ fault = .unknownKind kind id := by
  cases node with
  | assign assignments next =>
    simp only [Node.beat] at h
    split at h <;> cases h
    exact .inl ⟨_, rfl⟩
  | check requirement onPass onFail =>
    simp only [Node.beat] at h
    split at h <;> cases h
    exact .inr (.inl ⟨_, rfl⟩)
  | ending summary save =>
    simp only [Node.beat] at h
    split at h <;> cases h
    exact .inr (.inr (.inl ⟨_, rfl⟩))
  | unknown kind =>
    cases h
    exact .inr (.inr (.inr ⟨kind, rfl, rfl⟩))
  | _ => cases h

/-- The view of an option fails for what is held or for a number. -/
theorem fault_of_view {resources : Resources} {o : ChoiceOption} {fault : RunFault ε}
    (h : o.view resources = .error fault) :
    (∃ clash, fault = .clash clash) ∨ ∃ number, fault = .number number := by
  simp only [ChoiceOption.view, bind, Except.bind] at h
  cases hm : resources.meets o.requirement with
  | error e => rw [hm] at h; cases h; exact .inl ⟨e, rfl⟩
  | ok met =>
    rw [hm] at h
    cases hc : costNote o.gain o.remark with
    | error e => rw [hc] at h; cases h; exact .inr ⟨e, rfl⟩
    | ok cost => simp only [hc] at h; contradiction

theorem ofSave_of_beat {id : String} {resources : Resources} {node : Node} {fault : RunFault ε}
    (h : node.beat id resources = .error fault) : fault.ofSave = false := by
  obtain ⟨cause, rfl⟩ | ⟨clash, rfl⟩ | ⟨number, rfl⟩ | ⟨kind, -, rfl⟩ := fault_of_beat h
  · cases cause <;> rfl
  · rfl
  · rfl
  · rfl

theorem ofSave_of_view {resources : Resources} {o : ChoiceOption} {fault : RunFault ε}
    (h : o.view resources = .error fault) : fault.ofSave = false := by
  obtain ⟨clash, rfl⟩ | ⟨number, rfl⟩ := fault_of_view h
  · rfl
  · rfl

theorem quiet_offer (silent : ∀ n world, kept (host.note n world) = kept world)
    (resources : Resources) (options : List ChoiceOption) :
    Quiet kept (offer host resources options) := by
  induction options with
  | nil => exact quiet_pure []
  | cons o rest ih =>
    refine quiet_bind (quiet_noteConflict silent resources o.requirement) fun _ => ?_
    refine quiet_bind (quiet_known fun fault hv => ofSave_of_view hv) fun view => ?_
    exact quiet_bind ih fun views => quiet_pure (view :: views)

theorem quiet_contest (spares : Spares host kept) (game : String) :
    Quiet kept (contest host game) := by
  rw [contest]
  split
  · next decide hd =>
    exact quiet_bind quiet_theRun fun run =>
      quiet_ofHost (spares.minigame decide hd game run.resources)
  · exact quiet_pure true

theorem quiet_resolveNode (spares : Spares host kept) (node : Node) :
    Quiet kept (resolveNode host node) := by
  refine quiet_bind quiet_theRun fun run => quiet_bind (quiet_note spares.note _) fun _ => ?_
  refine quiet_bind (quiet_noteConflict spares.note run.resources node.tested) fun _ => ?_
  refine quiet_bind (quiet_known fun fault hb => ofSave_of_beat hb) fun beat => ?_
  refine quiet_bind (quiet_emitAll spares beat.events) fun _ => ?_
  split
  · exact quiet_pure _
  · next options _ => exact quiet_bind (quiet_offer spares.note _ options) fun views => quiet_pure _
  · next game onWin onLose _ => exact quiet_bind (quiet_contest spares game) fun won => quiet_pure _

theorem quiet_resolveStep (spares : Spares host kept) : Quiet kept (resolveStep host) := by
  refine quiet_bind quiet_theRun fun run => ?_
  split
  · exact quiet_throw rfl
  · exact quiet_throw rfl
  · split
    · exact quiet_throw rfl
    · exact quiet_resolveNode spares _

theorem quiet_resolvePick (spares : Spares host kept) (option : String) :
    Quiet kept (resolvePick host option) := by
  refine quiet_bind quiet_theRun fun run => ?_
  split
  · split
    · exact quiet_throw rfl
    · next picked _ =>
      refine quiet_bind (quiet_noteConflict spares.note _ _) fun _ => ?_
      refine quiet_bind (quiet_known fun _ _ => rfl) fun met => ?_
      split
      · exact quiet_bind (quiet_known fun e _ => by cases e <;> rfl) fun resources => quiet_pure _
      · exact quiet_throw rfl
  · exact quiet_throw rfl

end Quiet

theorem on_noteConflict (host : Host σ ε) (resources : Resources)
    (requirement : Option (Table Amount)) (s : Stage σ) :
    ∃ world, (noteConflict host resources requirement).on s = (.ok (), s.inWorld world) := by
  rw [noteConflict]
  split
  · exact ⟨_, on_note host _ s⟩
  · exact ⟨_, rfl⟩

/-- Only assignments leave other resources than there were. -/
theorem beat_resources {id : String} {resources : Resources} {node : Node} {beat : Beat}
    (h : node.beat (ε := ε) id resources = .ok beat)
    (hn : ∀ assignments next, node ≠ .assign assignments next) : beat.resources = resources := by
  cases node with
  | assign assignments next => exact absurd rfl (hn assignments next)
  | check requirement onPass onFail =>
    simp only [Node.beat] at h
    split at h <;> cases h
    trivial
  | ending summary save =>
    simp only [Node.beat] at h
    split at h <;> cases h
    rfl
  | unknown kind => cases h
  | _ => cases h; rfl

/-- Only choices offer something. -/
theorem choice_of_offer {id : String} {resources : Resources} {node : Node} {beat : Beat}
    {options : List ChoiceOption} (h : node.beat (ε := ε) id resources = .ok beat)
    (ht : beat.turn = .offer options) :
    ∃ prompt, node = .choice prompt options ∧
      beat = ⟨resources, [.narration prompt], .offer options⟩ := by
  cases node with
  | choice prompt offered => cases h; cases ht; exact ⟨prompt, rfl, rfl⟩
  | assign assignments next =>
    simp only [Node.beat] at h
    split at h <;> cases h
    cases ht
  | check requirement onPass onFail =>
    simp only [Node.beat] at h
    split at h <;> cases h
    cases ht
  | ending summary save =>
    simp only [Node.beat] at h
    split at h <;> cases h
    cases ht
  | unknown kind => cases h
  | _ => cases h; cases ht

theorem spares_nothing (host : Host σ ε) : Spares host fun _ => () :=
  ⟨fun _ _ => rfl, fun _ _ _ _ _ => rfl, fun _ _ => rfl⟩

theorem on_commit_suspend (host : Host σ ε) (events : List Event) (views : List ChoiceView)
    (s : Stage σ) :
    (commit host (.suspend events views)).on s =
      (.ok ⟨s.run.current, .awaitingChoice, none, events, views⟩,
        { s with run := { s.run with pending := views, status := .awaitingChoice } }) := by
  simp only [commit, Act.on_bind, on_theRun, on_changeRun, Act.on_pure]

theorem on_commit_move (host : Host σ ε) (resources : Resources) (pending : List ChoiceView)
    (events : List Event) (next : String) (s : Stage σ) :
    (commit host (.move resources pending events next)).on s =
      (advance host s.run.current next events).on (s.settle resources pending) := by
  simp only [commit, Act.on_bind, on_theRun, on_changeRun]
  rfl

/-- To turn where a node turns to is to commit to it, once the resources are settled. -/
theorem on_turn (host : Host σ ε) (events : List Event) (t : Turn) (s : Stage σ) :
    (turn host s.run.current events t).on s =
      ((match t with
        | .go next => return .move s.run.resources s.run.pending events next
        | .offer options => return .suspend events (← offer host s.run.resources options)
        | .contest game onWin onLose => do
          let won ← contest host game
          return .move s.run.resources s.run.pending events (if won then onWin else onLose) :
        Act (Stage σ) (RunFault ε) Intent) >>= commit host).on s := by
  cases t with
  | go next => simp only [turn, pure_bind, on_commit_move, settle_self]
  | offer options =>
    have quiet : Quiet (fun _ => ()) (offer host s.run.resources options) :=
      quiet_offer (fun _ _ => rfl) _ _
    simp only [turn, bind_assoc, Act.on_bind, on_theRun]
    obtain ⟨fault, world, hs, -⟩ | ⟨views, world, hs, -⟩ := quiet.cases s
    · simp only [hs]
    · simp only [hs, on_changeRun, Act.on_pure, on_commit_suspend, run_inWorld]
  | contest game onWin onLose =>
    have quiet := quiet_contest (spares_nothing host) game
    simp only [turn, bind_assoc, Act.on_bind]
    obtain ⟨fault, world, hs, -⟩ | ⟨won, world, hs, -⟩ := quiet.cases s
    · simp only [hs]
    · simp only [hs, Act.on_pure, on_commit_move, run_inWorld]
      rfl

/-- Dealing with a node is to resolve what it is to do, and to do it. -/
theorem perform_eq (host : Host σ ε) (node : Node) :
    perform host node = resolveNode host node >>= commit host := by
  apply Act.ext
  intro s
  simp only [perform, resolveNode, bind_assoc, Act.on_bind, on_theRun, on_note]
  obtain ⟨world, hw⟩ := on_noteConflict host s.run.resources node.tested
    (s.inWorld (host.note (.dispatching s.run.current node.kindName) s.gateway.world))
  simp only [hw, Act.on_known]
  cases hb : (node.beat s.run.current s.run.resources : Except (RunFault ε) Beat) with
  | error fault => rfl
  | ok beat =>
    simp only [mapError_ok, on_changeRun]
    by_cases hn : ∃ assignments next, node = .assign assignments next
    · -- Assignments show nothing, so the resources may as well be changed at the end.
      obtain ⟨assignments, next, rfl⟩ := hn
      simp only [Node.beat] at hb
      split at hb <;> cases hb
      simp only [emitAll, turn, Act.on_pure, on_commit_move, run_inWorld, inWorld_inWorld]
      rfl
    · have hr : beat.resources = s.run.resources :=
        beat_resources hb fun assignments next h => hn ⟨assignments, next, h⟩
      have quiet := quiet_emitAll (spares_nothing host) beat.events
      have hs : Stage.mk ⟨s.run.episode, s.run.current, s.run.status, s.run.pending,
        s.run.resources⟩ (s.inWorld world).gateway = s.inWorld world := rfl
      simp only [hr, run_inWorld, inWorld_inWorld, hs]
      obtain ⟨fault, later, he, -⟩ | ⟨_, later, he, -⟩ := quiet.cases (s.inWorld world)
      · simp only [he]
      · simp only [he]
        have hturn := on_turn host beat.events beat.turn (s.inWorld later)
        exact hturn.trans (Act.on_bind _ _ _)

theorem step_eq (host : Host σ ε) : step host = resolveStep host >>= commit host := by
  apply Act.ext
  intro s
  simp only [step, resolveStep, bind_assoc, Act.on_bind, on_theRun]
  cases s.run.status with
  | running =>
    simp only
    cases s.run.episode.node? s.run.current with
    | none => rfl
    | some node => simp only [perform_eq, Act.on_bind]
  | awaitingChoice => rfl
  | terminated => rfl

theorem choose_eq (host : Host σ ε) (option : String) :
    choose host option = resolvePick host option >>= commit host := by
  apply Act.ext
  intro s
  simp only [choose, resolvePick, bind_assoc, Act.on_bind, on_theRun]
  by_cases hs : s.run.status = .awaitingChoice
  · simp only [hs, ne_eq, not_true_eq_false, if_false, if_true]
    cases s.run.offered? option with
    | none => rfl
    | some picked =>
      simp only [Act.on_bind]
      obtain ⟨world, hw⟩ := on_noteConflict host s.run.resources picked.requirement s
      simp only [hw, Act.on_known]
      cases s.run.resources.meets picked.requirement with
      | error clash => rfl
      | ok met =>
        cases met with
        | false => rfl
        | true =>
          simp only [mapError_ok, Bool.not_true, Bool.false_eq_true, if_false, if_true,
            Act.on_bind, Act.on_known]
          cases s.run.resources.gain picked.gain with
          | error e => rfl
          | ok resources =>
            simp only [mapError_ok, on_changeRun, Act.on_pure, on_commit_move]
            rfl
  · simp only [hs, ne_eq, not_false_eq_true, if_true, if_false]
    rfl

theorem call_eq (host : Host σ ε) (c : Call) : call host c = resolve host c >>= commit host := by
  cases c with
  | step => exact step_eq host
  | choose option => exact choose_eq host option

theorem quiet_resolve {host : Host σ ε} {kept : σ → κ} (spares : Spares host kept) (c : Call) :
    Quiet kept (resolve host c) := by
  cases c with
  | step => exact quiet_resolveStep spares
  | choose option => exact quiet_resolvePick spares option

end Stage

/-! ## What can come of resolving -/

/-- The nodes that a turn may lead to at once. -/
def Turn.targets : Turn → List String
  | .go next => [next]
  | .offer _ => []
  | .contest _ onWin onLose => [onWin, onLose]

/-- The views of options with given resources. -/
def IsOffer (ε : Type) (resources : Resources) (options : List ChoiceOption)
    (views : List ChoiceView) : Prop :=
  views.map ChoiceView.option = options ∧
    ∀ v ∈ views, v.option.view (ε := ε) resources = .ok v

/-- What a call can settle on, as the run stands. -/
inductive Run.Intends (ε : Type) (r : Run) : Call → Intent → Prop
  /-- A choice makes the run wait for one of its options. -/
  | suspend {prompt : String} {options : List ChoiceOption} {views : List ChoiceView}
    (running : r.status = .running)
    (found : r.episode.node? r.current = some (.choice prompt options))
    (offer : IsOffer ε r.resources options views) :
    Intends ε r .step (.suspend [.narration prompt] views)
  /-- Any other node leads on, with the resources and the events of its beat. -/
  | move {node : Node} {beat : Beat} {next : String}
    (running : r.status = .running)
    (found : r.episode.node? r.current = some node)
    (beats : node.beat (ε := ε) r.current r.resources = .ok beat)
    (leads : next ∈ beat.turn.targets) :
    Intends ε r .step (.move beat.resources r.pending beat.events next)
  /-- The first option on offer of the id is picked, if its requirement is met. -/
  | pick {option : String} {picked : ChoiceOption} {resources : Resources}
    (waiting : r.status = .awaitingChoice)
    (offered : r.offered? option = some picked)
    (met : r.resources.meets picked.requirement = .ok true)
    (gained : r.resources.gain picked.gain = .ok resources) :
    Intends ε r (.choose option) (.move resources [] [] picked.next)

/-- A run that has nothing on offer unless it waits moves on with nothing on offer. -/
theorem Run.Intends.leaves_nothing {ε : Type} {r : Run} {c : Call} {resources : Resources}
    {pending : List ChoiceView} {events : List Event} {next : String}
    (h : r.Intends ε c (.move resources pending events next))
    (idle : r.status ≠ .awaitingChoice → r.pending = []) : pending = [] := by
  cases h with
  | move running found beats leads => exact idle (by rw [running]; decide)
  | pick waiting offered met gained => rfl

namespace Stage

variable {σ ε κ : Type}

theorem view_option {resources : Resources} {o : ChoiceOption} {v : ChoiceView}
    (h : o.view (ε := ε) resources = .ok v) : v.option = o := by
  simp only [ChoiceOption.view, bind, Except.bind] at h
  cases hm : (resources.meets o.requirement).mapError (RunFault.clash (ε := ε)) with
  | error fault => simp only [hm] at h; contradiction
  | ok met =>
    rw [hm] at h
    cases hc : (costNote o.gain o.remark).mapError (RunFault.number (ε := ε)) with
    | error fault => simp only [hc] at h; contradiction
    | ok cost => rw [hc] at h; cases h; rfl

/-- What is offered are the options as the resources have them. -/
theorem isOffer_of_offer {host : Host σ ε} {resources : Resources} {options : List ChoiceOption}
    {s after : Stage σ} {views : List ChoiceView}
    (h : (offer host resources options).on s = (.ok views, after)) :
    IsOffer ε resources options views := by
  induction options generalizing s views with
  | nil => cases h; exact ⟨rfl, nofun⟩
  | cons o rest ih =>
    obtain ⟨world, hw⟩ := on_noteConflict host resources o.requirement s
    simp only [offer, Act.on_bind, hw, Act.on_known] at h
    cases hv : (o.view resources : Except (RunFault ε) ChoiceView) with
    | error fault => rw [hv] at h; cases h
    | ok v =>
      simp only [hv, mapError_ok] at h
      cases hr : (offer host resources rest).on (s.inWorld world) with
      | mk answer later =>
        rw [hr] at h
        cases answer with
        | error fault => cases h
        | ok others =>
          cases h
          obtain ⟨ho, hall⟩ := ih hr
          refine ⟨?_, List.forall_mem_cons.2 ⟨?_, hall⟩⟩
          · rw [List.map_cons, view_option hv, ho]
          · rw [view_option hv, hv]

theorem intends_of_resolveNode {host : Host σ ε} {node : Node} {s after : Stage σ}
    {intent : Intent} (running : s.run.status = .running)
    (found : s.run.episode.node? s.run.current = some node)
    (h : (resolveNode host node).on s = (.ok intent, after)) : s.run.Intends ε .step intent := by
  obtain ⟨run, mid, hr, h⟩ := Act.ok_of_bind h
  cases hr
  obtain ⟨_, mid, hn, h⟩ := Act.ok_of_bind h
  cases hn
  obtain ⟨-, mid, -, h⟩ := Act.ok_of_bind h
  obtain ⟨beat, mid, hb, h⟩ := Act.ok_of_bind h
  obtain ⟨-, mid, -, h⟩ := Act.ok_of_bind h
  have beats : (node.beat s.run.current s.run.resources : Except (RunFault ε) Beat) = .ok beat :=
    Act.ok_of_known hb
  cases ht : beat.turn with
  | go next =>
    rw [ht] at h
    cases h
    exact .move running found beats (by rw [ht]; exact List.mem_singleton_self next)
  | offer options =>
    rw [ht] at h
    obtain ⟨views, mid, hv, h⟩ := Act.ok_of_bind h
    cases h
    obtain ⟨prompt, rfl, rfl⟩ := choice_of_offer beats ht
    exact .suspend running found (isOffer_of_offer hv)
  | contest game onWin onLose =>
    rw [ht] at h
    obtain ⟨won, mid, -, h⟩ := Act.ok_of_bind h
    cases h
    refine .move running found beats ?_
    rw [ht]
    cases won
    · exact List.mem_cons_of_mem _ (List.mem_singleton_self onLose)
    · exact List.mem_cons_self

/-- Whatever a call settles on, the run intends. -/
theorem intends_of_resolve {host : Host σ ε} {c : Call} {s after : Stage σ} {intent : Intent}
    (h : (resolve host c).on s = (.ok intent, after)) : s.run.Intends ε c intent := by
  cases c with
  | step =>
    obtain ⟨run, mid, hr, h⟩ := Act.ok_of_bind h
    cases hr
    cases hs : s.run.status with
    | awaitingChoice => rw [hs] at h; cases h
    | terminated => rw [hs] at h; cases h
    | running =>
      rw [hs] at h
      cases hn : s.run.episode.node? s.run.current with
      | none => simp only [hn] at h; cases h
      | some node =>
        simp only [hn] at h
        exact intends_of_resolveNode hs hn h
  | choose option =>
    obtain ⟨run, mid, hr, h⟩ := Act.ok_of_bind h
    cases hr
    by_cases hs : s.run.status = .awaitingChoice
    · rw [if_pos hs] at h
      cases ho : s.run.offered? option with
      | none => rw [ho] at h; cases h
      | some picked =>
        rw [ho] at h
        obtain ⟨-, mid, -, h⟩ := Act.ok_of_bind h
        obtain ⟨met, mid, hm, h⟩ := Act.ok_of_bind h
        cases met with
        | false => cases h
        | true =>
          obtain ⟨resources, mid, hg, h⟩ := Act.ok_of_bind h
          cases h
          exact .pick hs ho (Act.ok_of_known hm) (Act.ok_of_known hg)
    · rw [if_neg hs] at h
      cases h

/-! ## What a call comes to -/

/-- The stage once the run has moved on to a node, in the world in which it was saved. -/
def movedOn (host : Host σ ε) (node next : String) (s : Stage σ) (world : σ) : Stage σ where
  run := { s.run with current := next, status := Status.at next }
  gateway :=
    let noted := host.note (.saved s.run.episode.id next 0) world
    { last := some (s.run.recordAt next)
      world := if next = "" then host.note (.finished s.run.episode.id node) noted else noted }

/-- Moving on either stops at the save, and then the run stands where it stood, or
leads to the next node. -/
theorem on_advance (host : Host σ ε) (node next : String) (events : List Event) (s : Stage σ) :
    (advance host node next events).on s =
      match (s.run.recordAt next).text with
      | .error fault => (.error (.save (.number fault)), s)
      | .ok text =>
        match (host.write Save.autoKey text).on s.gateway.world with
        | (.error fault, world) => (.error (.save (.store fault)), s.inWorld world)
        | (.ok (), world) =>
          (.ok ⟨node, Status.at next, some next, events, []⟩, movedOn host node next s world) := by
  simp only [advance, ofGateway, Act.on_bind, on_theRun, Act.on_within, Save.Gateway.on_save]
  cases (s.run.recordAt next).text with
  | error fault => rfl
  | ok text =>
    simp only
    cases (host.write Save.autoKey text).on s.gateway.world with
    | mk answer world =>
      cases answer with
      | error fault => rfl
      | ok u =>
        simp only [on_changeRun]
        split
        · next hn => simp only [Act.on_bind, on_note, Act.on_pure, movedOn, if_pos hn]; rfl
        · next hn => simp only [Act.on_pure, movedOn, if_neg hn]; rfl

theorem advance_cases (host : Host σ ε) (node next : String) (events : List Event) (s : Stage σ) :
    (∃ fault world,
      (advance host node next events).on s = (.error (.save fault), s.inWorld world)) ∨
      ∃ world, (advance host node next events).on s =
        (.ok ⟨node, Status.at next, some next, events, []⟩, movedOn host node next s world) := by
  rw [on_advance]
  cases (s.run.recordAt next).text with
  | error fault => exact .inl ⟨.number fault, s.gateway.world, rfl⟩
  | ok text =>
    simp only
    cases (host.write Save.autoKey text).on s.gateway.world with
    | mk answer world =>
      cases answer with
      | error fault => exact .inl ⟨.store fault, world, rfl⟩
      | ok u => exact .inr ⟨world, rfl⟩

/-- A call resolves what is to be done and leaves the run alone; then it either has stopped
with a fault that is none of saving, or does what it settled on. -/
theorem call_cases {host : Host σ ε} {kept : σ → κ} (spares : Spares host kept) (c : Call)
    (s : Stage σ) :
    ∃ world, kept world = kept s.gateway.world ∧
      ((∃ fault, fault.ofSave = false ∧ (resolve host c).on s = (.error fault, s.inWorld world) ∧
          (call host c).on s = (.error fault, s.inWorld world)) ∨
        ∃ intent, s.run.Intends ε c intent ∧ (resolve host c).on s = (.ok intent, s.inWorld world) ∧
          (call host c).on s = (commit host intent).on (s.inWorld world)) := by
  rw [call_eq, Act.on_bind]
  obtain ⟨fault, world, hr, hk, reason⟩ | ⟨intent, world, hr, hk⟩ :=
    (quiet_resolve spares c).cases s
  · simp only [hr]
    exact ⟨world, hk, .inl ⟨fault, reason, rfl, rfl⟩⟩
  · have intends : s.run.Intends ε c intent := intends_of_resolve hr
    simp only [hr]
    exact ⟨world, hk, .inr ⟨intent, intends, rfl, rfl⟩⟩

/-- Doing what was settled on can only stop at a save. -/
theorem commit_fault {host : Host σ ε} {intent : Intent} {s after : Stage σ} {fault : RunFault ε}
    (h : (commit host intent).on s = (.error fault, after)) : fault.ofSave = true := by
  cases intent with
  | suspend events views => rw [on_commit_suspend] at h; cases h
  | move resources pending events next =>
    rw [on_commit_move] at h
    obtain ⟨other, world, ha⟩ | ⟨world, ha⟩ :=
      advance_cases host s.run.current next events (s.settle resources pending)
    · rw [ha] at h; cases h; rfl
    · rw [ha] at h; cases h

/-- What a call can come to. -/
inductive Outcome (host : Host σ ε) (kept : σ → κ) (s : Stage σ) (c : Call) :
    Except (RunFault ε) StepResult × Stage σ → Prop
  /-- It stops before it has settled on something, and the run stays as it is. -/
  | stopped {fault : RunFault ε} {world : σ} (reason : fault.ofSave = false)
    (spared : kept world = kept s.gateway.world) :
    Outcome host kept s c (.error fault, s.inWorld world)
  /-- The run waits for one of the options on offer. -/
  | suspended {events : List Event} {views : List ChoiceView} {world : σ}
    (intends : s.run.Intends ε c (.suspend events views))
    (spared : kept world = kept s.gateway.world) :
    Outcome host kept s c (.ok ⟨s.run.current, .awaitingChoice, none, events, views⟩,
      { s.inWorld world with run := { s.run with pending := views, status := .awaitingChoice } })
  /-- It stops at the save, with the resources already settled. -/
  | unsaved {resources : Resources} {pending : List ChoiceView} {events : List Event}
    {next : String} {fault : Save.GatewayFault ε} {world : σ}
    (intends : s.run.Intends ε c (.move resources pending events next)) :
    Outcome host kept s c (.error (.save fault), (s.settle resources pending).inWorld world)
  /-- The run moves on to a node, once the record there is written. -/
  | moved {resources : Resources} {pending : List ChoiceView} {events : List Event} {next : String}
    {text : String} {world after : σ}
    (intends : s.run.Intends ε c (.move resources pending events next))
    (spared : kept world = kept s.gateway.world)
    (encoded : ((s.settle resources pending).run.recordAt next).text = .ok text)
    (written : (host.write Save.autoKey text).on world = (.ok (), after)) :
    Outcome host kept s c (.ok ⟨s.run.current, Status.at next, some next, events, []⟩,
      movedOn host s.run.current next (s.settle resources pending) after)

/-- Every call comes to one of the four. -/
theorem outcome_call {host : Host σ ε} {kept : σ → κ} (spares : Spares host kept) (c : Call)
    (s : Stage σ) : Outcome host kept s c ((call host c).on s) := by
  obtain ⟨world, spared, ⟨fault, reason, -, h⟩ | ⟨intent, intends, -, h⟩⟩ := call_cases spares c s
  · rw [h]
    exact .stopped reason spared
  · rw [h]
    cases intent with
    | suspend events views =>
      rw [on_commit_suspend]
      exact .suspended intends spared
    | move resources pending events next =>
      have hrecord : ((s.inWorld world).settle resources pending).run.recordAt next =
          (s.settle resources pending).run.recordAt next := rfl
      rw [on_commit_move, on_advance, hrecord]
      cases ht : ((s.settle resources pending).run.recordAt next).text with
      | error fault => exact .unsaved intends
      | ok text =>
        simp only [gateway_settle, world_inWorld]
        cases hw : (host.write Save.autoKey text).on world with
        | mk answer after =>
          cases answer with
          | error fault => exact .unsaved intends
          | ok u => exact .moved intends spared ht hw

end Stage

end Storyline
