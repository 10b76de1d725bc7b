import Storyline.Proofs.Run.Mirror

/-!
# Storyline.Proofs.Run.Reach

Only reached nodes matter.  A step of a running run looks up the node of the id that the
run stands at, and that is all that is ever looked up in the episode.  So calls do the same
in every episode that has the same nodes at the ids looked up, whatever its other nodes are.
A call stops for want of a node just if it looks one up that is missing or of an unknown
kind, and then nothing has happened yet.
-/

namespace Storyline

/-- The id of the node that a call looks up: only a step of a running run looks one up. -/
def Run.dispatches (r : Run) : Call → Option String
  | .step => if r.status = .running then some r.current else none
  | .choose _ => none

theorem Run.dispatches_eq_some_iff {r : Run} {c : Call} {id : String} :
    r.dispatches c = some id ↔ c = .step ∧ r.status = .running ∧ r.current = id := by
  cases c with
  | step => simp [dispatches]
  | choose option => simp [dispatches]

/-- Whether a fault says that there is no node that could be dealt with. -/
def RunFault.ofLookup {ε : Type} : RunFault ε → Bool
  | .missingNode _ | .unknownKind _ _ => true
  | _ => false

/-- An episode has no node of an id that could be dealt with, and the fault says why. -/
inductive Episode.Lacks {ε : Type} (e : Episode) (id : String) : RunFault ε → Prop
  | missing (h : e.node? id = none) : Lacks e id (.missingNode id)
  | unknown {kind : String} (h : e.node? id = some (.unknown kind)) :
    Lacks e id (.unknownKind kind id)

namespace Stage

variable {σ ε : Type} {host : Host σ ε} {e other : Episode} {s : Stage σ}

/-- The ids of the nodes that calls look up, in order. -/
def dispatched (host : Host σ ε) (made : List Call) (s : Stage σ) : List String :=
  (passages host made s).filterMap fun p => p.before.run.dispatches p.call

/-! ## Calls in another episode -/

/-- The stage, were its run one of another episode. -/
def inEpisode (s : Stage σ) (other : Episode) : Stage σ :=
  { s with run := { s.run with episode := other } }

/-- A passage, were its run one of another episode. -/
def Passage.inEpisode (other : Episode) (p : Passage σ ε) : Passage σ ε :=
  ⟨p.before.inEpisode other, p.call, p.answer, p.after.inEpisode other⟩

/-- The second stage is the first one, were its run one of an episode of the same id. -/
structure Elsewhere (other : Episode) (s t : Stage σ) : Prop where
  id : s.run.episode.id = other.id
  moved : t = s.inEpisode other

theorem elsewhere_theRun :
    Act.Tracks (Elsewhere other)
      (fun r r' => r.episode.id = other.id ∧ r' = { r with episode := other })
      (theRun : Act (Stage σ) (RunFault ε) Run) theRun :=
  Act.tracks_look fun _ _ h => ⟨h.id, by rw [h.moved]; rfl⟩

theorem elsewhere_note (host : Host σ ε) (n : Note) :
    Act.Tracks (Elsewhere other) Eq (note host n) (note host n) :=
  Act.tracks_change fun _ _ h => ⟨h.id, by rw [h.moved]; rfl⟩

theorem elsewhere_ofHost {α : Type} (act : Act σ ε α) :
    Act.Tracks (Elsewhere other) Eq (ofHost act) (ofHost act) := by
  refine Act.tracks_within RunFault.host (Act.tracks_refl act) (fun s t h => ?_)
    fun s t inner _ h hi => ?_
  · rw [h.moved]
    rfl
  · subst hi
    exact ⟨h.id, by rw [h.moved]; rfl⟩

theorem elsewhere_noteConflict (host : Host σ ε) (resources : Resources)
    (requirement : Option (Table Amount)) :
    Act.Tracks (Elsewhere other) Eq (noteConflict host resources requirement)
      (noteConflict host resources requirement) := by
  rw [noteConflict]
  split
  · exact elsewhere_note host _
  · exact Act.tracks_pure rfl

theorem elsewhere_emit (host : Host σ ε) (event : Event) :
    Act.Tracks (Elsewhere other) Eq (emit host event) (emit host event) := by
  refine Act.tracks_bind_eq (elsewhere_ofHost _) fun shown => ?_
  cases shown with
  | none => exact Act.tracks_pure rfl
  | some reason => exact elsewhere_note host _

theorem elsewhere_emitAll (host : Host σ ε) (events : List Event) :
    Act.Tracks (Elsewhere other) Eq (emitAll host events) (emitAll host events) := by
  induction events with
  | nil => exact Act.tracks_pure rfl
  | cons event rest ih => exact Act.tracks_bind_eq (elsewhere_emit host event) fun _ => ih

theorem elsewhere_offer (host : Host σ ε) (resources : Resources) (options : List ChoiceOption) :
    Act.Tracks (Elsewhere other) Eq (offer host resources options)
      (offer host resources options) := by
  induction options with
  | nil => exact Act.tracks_pure rfl
  | cons o rest ih =>
    refine Act.tracks_bind_eq (elsewhere_noteConflict host _ _) fun _ => ?_
    refine Act.tracks_bind_eq (Act.tracks_known id (.refl _)) fun view => ?_
    exact Act.tracks_bind_eq ih fun views => Act.tracks_pure rfl

theorem elsewhere_contest (host : Host σ ε) (game : String) :
    Act.Tracks (Elsewhere other) Eq (contest host game) (contest host game) := by
  rw [contest]
  split
  · refine Act.tracks_bind elsewhere_theRun ?_
    rintro run _ ⟨-, rfl⟩
    exact elsewhere_ofHost _
  · exact Act.tracks_pure rfl

theorem elsewhere_resolveNode (host : Host σ ε) (node : Node) :
    Act.Tracks (Elsewhere other) Eq (resolveNode host node) (resolveNode host node) := by
  refine Act.tracks_bind elsewhere_theRun ?_
  rintro run _ ⟨-, rfl⟩
  refine Act.tracks_bind_eq (elsewhere_note host _) fun _ => ?_
  refine Act.tracks_bind_eq (elsewhere_noteConflict host _ _) fun _ => ?_
  refine Act.tracks_bind_eq (Act.tracks_known id (.refl _)) fun beat => ?_
  refine Act.tracks_bind_eq (elsewhere_emitAll host _) fun _ => ?_
  cases beat.turn with
  | go next => exact Act.tracks_pure rfl
  | offer options =>
    exact Act.tracks_bind_eq (elsewhere_offer host _ _) fun views => Act.tracks_pure rfl
  | contest game onWin onLose =>
    exact Act.tracks_bind_eq (elsewhere_contest host game) fun won => Act.tracks_pure rfl

theorem elsewhere_resolvePick (host : Host σ ε) (option : String) :
    Act.Tracks (Elsewhere other) Eq (resolvePick host option) (resolvePick host option) := by
  refine Act.tracks_bind elsewhere_theRun ?_
  rintro run _ ⟨-, rfl⟩
  have hoffered : Run.offered? { run with episode := other } option = run.offered? option := rfl
  rw [hoffered]
  split
  · cases run.offered? option with
    | none => exact Act.tracks_throw _
    | some picked =>
      refine Act.tracks_bind_eq (elsewhere_noteConflict host _ _) fun _ => ?_
      refine Act.tracks_bind_eq (Act.tracks_known RunFault.clash (.refl _)) fun met => ?_
      split
      · exact Act.tracks_bind_eq (Act.tracks_known _ (.refl _)) fun resources =>
          Act.tracks_pure rfl
      · exact Act.tracks_throw _
  · exact Act.tracks_throw _

theorem elsewhere_advance (host : Host σ ε) (node next : String) (events : List Event) :
    Act.Tracks (Elsewhere other) Eq (advance host node next events)
      (advance host node next events) := by
  rintro s _ ⟨hid, rfl⟩
  have hrecord : (s.inEpisode other).run.recordAt next = s.run.recordAt next := by
    rw [Run.recordAt, Run.recordAt, hid]
    rfl
  have hmoved : ∀ world, movedOn host node next (s.inEpisode other) world =
      (movedOn host node next s world).inEpisode other := by
    intro world
    rw [movedOn, movedOn, hrecord, hid]
    rfl
  rw [on_advance, on_advance, hrecord]
  cases (s.run.recordAt next).text with
  | error fault => exact ⟨.error _, hid, rfl⟩
  | ok text =>
    have hworld : (s.inEpisode other).gateway.world = s.gateway.world := rfl
    simp only [hworld]
    cases (host.write Save.autoKey text).on s.gateway.world with
    | mk answer world =>
      cases answer with
      | error fault => exact ⟨.error _, hid, rfl⟩
      | ok u => exact ⟨.ok rfl, hid, hmoved world⟩

theorem elsewhere_commit (host : Host σ ε) (intent : Intent) :
    Act.Tracks (Elsewhere other) Eq (commit host intent) (commit host intent) := by
  cases intent with
  | suspend events views =>
    rintro s _ ⟨hid, rfl⟩
    rw [on_commit_suspend, on_commit_suspend]
    exact ⟨.ok rfl, hid, rfl⟩
  | move resources pending events next =>
    rintro s _ ⟨hid, rfl⟩
    rw [on_commit_move, on_commit_move]
    exact elsewhere_advance host _ _ _ _ _ ⟨hid, rfl⟩

/-- A call does the same in another episode that has the same id, and the same node at the id
that the call looks up. -/
theorem call_inEpisode (host : Host σ ε) {c : Call} (hid : s.run.episode.id = other.id)
    (same : ∀ id, s.run.dispatches c = some id → other.node? id = s.run.episode.node? id) :
    (call host c).on (s.inEpisode other) =
        (((call host c).on s).1, ((call host c).on s).2.inEpisode other) ∧
      ((call host c).on s).2.run.episode.id = other.id := by
  have here : Elsewhere other s (s.inEpisode other) := ⟨hid, rfl⟩
  have hresolve : Agree Eq ((resolve host c).on s).1 ((resolve host c).on (s.inEpisode other)).1 ∧
      Elsewhere other ((resolve host c).on s).2 ((resolve host c).on (s.inEpisode other)).2 := by
    cases c with
    | choose option => exact elsewhere_resolvePick host option s _ here
    | step =>
      have hrun : (s.inEpisode other).run = { s.run with episode := other } := rfl
      simp only [resolve, resolveStep, Act.on_bind, on_theRun, hrun]
      cases hs : s.run.status with
      | terminated => exact ⟨.error _, here⟩
      | awaitingChoice => exact ⟨.error _, here⟩
      | running =>
        simp only [same _ (Run.dispatches_eq_some_iff.2 ⟨rfl, hs, rfl⟩)]
        cases s.run.episode.node? s.run.current with
        | none => exact ⟨.error _, here⟩
        | some node => exact elsewhere_resolveNode host node s _ here
  obtain ⟨hanswer, hafter⟩ := hresolve
  rw [Agree.eq_iff] at hanswer
  rw [call_eq, Act.on_bind, Act.on_bind, Act.eq_of_answer hanswer.symm,
    Act.eq_of_answer (p := (resolve host c).on s) rfl]
  cases ((resolve host c).on s).1 with
  | error fault => exact ⟨Prod.ext rfl hafter.moved, hafter.id⟩
  | ok intent =>
    obtain ⟨ha, hr⟩ := elsewhere_commit host intent _ _ hafter
    exact ⟨Prod.ext (Agree.eq_iff.1 ha).symm hr.moved, hr.id⟩

theorem dispatched_cons (host : Host σ ε) (c : Call) (rest : List Call) (s : Stage σ) :
    dispatched host (c :: rest) s =
      (s.run.dispatches c).toList ++ dispatched host rest ((call host c).on s).2 := by
  rw [dispatched, passages, List.filterMap_cons]
  have hfirst : (passage host c s).before.run.dispatches (passage host c s).call =
      s.run.dispatches c := rfl
  rw [hfirst]
  cases s.run.dispatches c <;> rfl

/-- So do calls made one after the other, if the other episode has the same nodes at all the ids
that they look up. -/
theorem calls_inEpisode (host : Host σ ε) (hid : other.id = e.id) {made : List Call}
    (grounded : s.run.Grounded e)
    (same : ∀ id ∈ dispatched host made s, other.node? id = e.node? id) :
    passages host made (s.inEpisode other) =
        (passages host made s).map (Passage.inEpisode other) ∧
      calls host made (s.inEpisode other) =
        ((calls host made s).1, (calls host made s).2.inEpisode other) := by
  induction made generalizing s with
  | nil => exact ⟨rfl, rfl⟩
  | cons c rest ih =>
    rw [dispatched_cons, List.forall_mem_append] at same
    obtain ⟨hfirst, hrest⟩ := same
    have hlookup : ∀ id, s.run.dispatches c = some id →
        other.node? id = s.run.episode.node? id := by
      intro id hd
      rw [grounded.episode]
      exact hfirst id (Option.mem_toList.2 hd)
    obtain ⟨hcall, -⟩ := call_inEpisode host (by rw [grounded.episode, hid]) hlookup
    obtain ⟨hpassages, hcalls⟩ := ih (grounded_call grounded host c) hrest
    constructor
    · rw [passages, passages, List.map_cons]
      simp only [passage, hcall]
      exact congrArg _ hpassages
    · rw [calls, calls]
      simp only [hcall, hcalls]

/-- On stages that are alike, calls look the same nodes up if the hosts answer alike. -/
theorem dispatched_alike {τ : Type} {rel : σ → τ → Prop} {host' : Host τ ε}
    (alike : Alike Eq rel host host') (made : List Call) {t : Stage τ} (h : s.Like Eq rel t) :
    dispatched host made s = dispatched host' made t := by
  induction made generalizing s t with
  | nil => rfl
  | cons c rest ih =>
    obtain ⟨-, hlike⟩ := tracks_call Resources.likeness_eq alike c s t h
    rw [dispatched_cons, dispatched_cons, h.run.eq, ih hlike]

theorem trace_inEpisode (host : Host σ ε) (hid : other.id = e.id) {made : List Call}
    (grounded : s.run.Grounded e)
    (same : ∀ id ∈ dispatched host made s, other.node? id = e.node? id) :
    trace host made (s.inEpisode other) = trace host made s := by
  have hlike : s.Like Eq (fun w (v : Traced σ) => w = v.world) s.traced :=
    ⟨⟨rfl, rfl, rfl, rfl, rfl⟩, rfl⟩
  rw [dispatched_alike host.alike_of_traced made hlike] at same
  obtain ⟨-, hcalls⟩ := calls_inEpisode (s := s.traced) host.traced hid grounded same
  have htraced : (s.inEpisode other).traced = s.traced.inEpisode other := rfl
  rw [trace, trace, htraced, hcalls]
  rfl

/-! ## Nodes that are missing or of an unknown kind -/

/-- A call that looks up an id without a node, or with one of an unknown kind, stops there.
At most a note is taken. -/
theorem on_call_of_lacks (host : Host σ ε) {c : Call} {id : String} {fault : RunFault ε}
    (hd : s.run.dispatches c = some id) (lacks : s.run.episode.Lacks id fault) :
    ∃ world, (call host c).on s = (.error fault, s.inWorld world) ∧
      (world = s.gateway.world ∨ ∃ n, world = host.note n s.gateway.world) := by
  obtain ⟨rfl, running, rfl⟩ := Run.dispatches_eq_some_iff.1 hd
  rw [call, step, Act.on_bind, on_theRun]
  cases lacks with
  | missing h =>
    simp only [running, h, Act.on_throw]
    exact ⟨_, rfl, .inl rfl⟩
  | unknown h =>
    simp only [running, h, perform, Act.on_bind, on_theRun, on_note]
    exact ⟨_, rfl, .inr ⟨_, rfl⟩⟩

/-- Nothing reaches the host of such a call. -/
theorem trace_of_lacks (host : Host σ ε) {c : Call} {id : String} {fault : RunFault ε}
    (hd : s.run.dispatches c = some id) (lacks : s.run.episode.Lacks id fault) :
    trace host [c] s = [] := by
  obtain ⟨world, hcall, hworld⟩ := on_call_of_lacks (s := s.traced) host.traced hd lacks
  have htrace : trace host [c] s = world.trace.reverse := by
    have hcalls : (calls host.traced [c] s.traced).2 = ((call host.traced c).on s.traced).2 := rfl
    rw [trace, hcalls, hcall]
    rfl
  obtain rfl | ⟨n, rfl⟩ := hworld
  · exact htrace
  · exact htrace

/-- What a node of a known kind stops for is its own affair. -/
theorem ofLookup_of_beat {id : String} {resources : Resources} {node : Node} {fault : RunFault ε}
    (known : ∀ kind, node ≠ .unknown kind) (h : node.beat id resources = .error fault) :
    fault.ofLookup = false := by
  obtain ⟨cause, rfl⟩ | ⟨clash, rfl⟩ | ⟨number, rfl⟩ | ⟨kind, rfl, -⟩ := fault_of_beat h
  · cases cause <;> rfl
  · rfl
  · rfl
  · exact absurd rfl (known kind)

theorem ofLookup_resolveNode (host : Host σ ε) {node : Node}
    (known : ∀ kind, node ≠ .unknown kind) :
    StopsOnly (fun fault => fault.ofLookup = false) (resolveNode host node) := by
  refine stopsOnly_resolveNode (stopsFor_any fun _ => rfl) (fun _ _ _ => ofLookup_of_beat known)
    fun resources o fault h => ?_
  obtain ⟨clash, rfl⟩ | ⟨number, rfl⟩ := fault_of_view h
  · rfl
  · rfl

theorem ofLookup_resolvePick (host : Host σ ε) (option : String) :
    StopsOnly (fun fault => fault.ofLookup = false) (resolvePick host option) := by
  refine stopsOnly_bind stopsOnly_theRun fun run => ?_
  split
  · split
    · exact stopsOnly_throw rfl
    · refine stopsOnly_bind (stopsOnly_noteConflict host _ _) fun _ => ?_
      refine stopsOnly_bind (stopsOnly_known fun _ _ => rfl) fun met => ?_
      split
      · exact stopsOnly_bind (stopsOnly_known fun e _ => by cases e <;> rfl)
          fun _ => stopsOnly_pure _
      · exact stopsOnly_throw rfl
  · exact stopsOnly_throw rfl

/-- A call stops for want of a node just if it looks up an id without one, or with one of an
unknown kind. -/
theorem lacks_iff_answer (host : Host σ ε) {c : Call} {fault : RunFault ε}
    (lookup : fault.ofLookup = true) :
    ((call host c).on s).1 = .error fault ↔
      ∃ id, s.run.dispatches c = some id ∧ s.run.episode.Lacks id fault := by
  constructor
  · intro h
    have hresolve : ((resolve host c).on s).1 = .error fault := by
      obtain ⟨world, -, ⟨other, -, hr, hc⟩ | ⟨intent, -, hr, hc⟩⟩ :=
        call_cases (spares_nothing host) c s
      · rw [hc] at h
        rw [hr, Except.error.inj h]
      · rw [hc] at h
        have hsave := commit_fault (Act.eq_of_answer h)
        cases fault <;> cases lookup <;> cases hsave
    cases c with
    | choose option =>
      have hnone := ofLookup_resolvePick host option s fault hresolve
      rw [hnone] at lookup
      cases lookup
    | step =>
      simp only [resolve, resolveStep, Act.on_bind, on_theRun] at hresolve
      cases hs : s.run.status with
      | terminated => simp only [hs] at hresolve; cases hresolve; cases lookup
      | awaitingChoice => simp only [hs] at hresolve; cases hresolve; cases lookup
      | running =>
        have hd : s.run.dispatches .step = some s.run.current :=
          Run.dispatches_eq_some_iff.2 ⟨rfl, hs, rfl⟩
        simp only [hs] at hresolve
        cases hn : s.run.episode.node? s.run.current with
        | none =>
          simp only [hn] at hresolve
          cases hresolve
          exact ⟨_, hd, .missing hn⟩
        | some node =>
          simp only [hn] at hresolve
          by_cases known : ∀ kind, node ≠ .unknown kind
          · have hnone := ofLookup_resolveNode host known s fault hresolve
            rw [hnone] at lookup
            cases lookup
          · simp only [not_forall, not_not] at known
            obtain ⟨kind, rfl⟩ := known
            cases hresolve
            exact ⟨_, hd, .unknown hn⟩
  · rintro ⟨id, hd, lacks⟩
    obtain ⟨world, hcall, -⟩ := on_call_of_lacks host hd lacks
    rw [hcall]

theorem lacks_missingNode_iff {id id' : String} :
    e.Lacks id (.missingNode (ε := ε) id') ↔ id = id' ∧ e.node? id = none := by
  constructor
  · rintro ⟨h⟩
    exact ⟨rfl, h⟩
  · rintro ⟨rfl, h⟩
    exact .missing h

theorem lacks_unknownKind_iff {id id' kind : String} :
    e.Lacks id (.unknownKind (ε := ε) kind id') ↔
      id = id' ∧ e.node? id = some (.unknown kind) := by
  constructor
  · rintro (_ | h)
    exact ⟨rfl, h⟩
  · rintro ⟨rfl, h⟩
    exact .unknown h

theorem answer_missingNode_iff (host : Host σ ε) {c : Call} {id : String} :
    ((call host c).on s).1 = .error (.missingNode id) ↔
      s.run.dispatches c = some id ∧ s.run.episode.node? id = none := by
  rw [lacks_iff_answer host rfl]
  simp only [lacks_missingNode_iff]
  exact ⟨fun ⟨_, hd, rfl, h⟩ => ⟨hd, h⟩, fun ⟨hd, h⟩ => ⟨id, hd, rfl, h⟩⟩

theorem answer_unknownKind_iff (host : Host σ ε) {c : Call} {kind id : String} :
    ((call host c).on s).1 = .error (.unknownKind kind id) ↔
      s.run.dispatches c = some id ∧ s.run.episode.node? id = some (.unknown kind) := by
  rw [lacks_iff_answer host rfl]
  simp only [lacks_unknownKind_iff]
  exact ⟨fun ⟨_, hd, rfl, h⟩ => ⟨hd, h⟩, fun ⟨hd, h⟩ => ⟨id, hd, rfl, h⟩⟩

/-- When a call stops for want of a node nothing has reached the host, and only notes are taken. -/
theorem untouched_of_ofLookup (host : Host σ ε) {c : Call} {fault : RunFault ε}
    (h : ((call host c).on s).1 = .error fault) (lookup : fault.ofLookup = true) :
    trace host [c] s = [] ∧ ∃ world, ((call host c).on s).2 = s.inWorld world := by
  obtain ⟨id, hd, lacks⟩ := (lacks_iff_answer host lookup).1 h
  obtain ⟨world, hcall, -⟩ := on_call_of_lacks host hd lacks
  refine ⟨trace_of_lacks host hd lacks, world, ?_⟩
  rw [hcall]

/-! ## The result -/

/-- A call among others stops for want of a node just if one of them looks up an id without one,
or with one of an unknown kind. -/
theorem lacks_iff_mem_answers (grounded : s.run.Grounded e) {made : List Call} {fault : RunFault ε}
    (lookup : fault.ofLookup = true) :
    .error fault ∈ (calls host made s).1 ↔
      ∃ id ∈ dispatched host made s, e.Lacks id fault := by
  have hpassages : ∀ p ∈ passages host made s,
      p = passage host p.call p.before ∧ p.before.run.Grounded e :=
    forall_passages (P := fun s => s.run.Grounded e) (fun _ c h => grounded_call h host c) grounded
  rw [answers_eq, List.mem_map]
  constructor
  · rintro ⟨p, hp, hanswer⟩
    obtain ⟨heq, hgrounded⟩ := hpassages p hp
    rw [heq] at hanswer
    obtain ⟨id, hd, lacks⟩ := (lacks_iff_answer host lookup).1 hanswer
    exact ⟨id, List.mem_filterMap.2 ⟨p, hp, hd⟩, hgrounded.episode ▸ lacks⟩
  · rintro ⟨id, hd, lacks⟩
    obtain ⟨p, hp, hd⟩ := List.mem_filterMap.1 hd
    obtain ⟨heq, hgrounded⟩ := hpassages p hp
    refine ⟨p, hp, ?_⟩
    rw [heq]
    exact (lacks_iff_answer host lookup).2 ⟨id, hd, hgrounded.episode.symm ▸ lacks⟩

/-- Only reached nodes matter, whatever calls are made on a run, wherever it starts and whether
they stop or not.  In any episode of the same id and start that has the same nodes at the ids
that the calls look up, every call finds the same stage, answers the same and leaves the same
stage, the episode apart, and the same reaches the host.

A node is missing just if an id without one is looked up, and of an unknown kind just if such a
node is; the call that looks it up says so.  No empty id is ever looked up.  When a call
stops for want of a node nothing has reached the host, and the run and the last save are as
they were. -/
theorem only_reached_nodes_matter (host : Host σ ε) (gateway : Save.Gateway σ) (e : Episode)
    (node : Option String) (initial : Resources) (made : List Call) :
    let fresh := start host gateway e node initial
    (∀ other : Episode, other.id = e.id → other.start = e.start →
      (∀ id ∈ dispatched host made fresh, other.node? id = e.node? id) →
        passages host made (start host gateway other node initial) =
            (passages host made fresh).map (Passage.inEpisode other) ∧
          calls host made (start host gateway other node initial) =
            ((calls host made fresh).1, (calls host made fresh).2.inEpisode other) ∧
          trace host made (start host gateway other node initial) = trace host made fresh) ∧
    (∀ id, .error (.missingNode id) ∈ (calls host made fresh).1 ↔
      id ∈ dispatched host made fresh ∧ e.node? id = none) ∧
    (∀ kind id, .error (.unknownKind kind id) ∈ (calls host made fresh).1 ↔
      id ∈ dispatched host made fresh ∧ e.node? id = some (.unknown kind)) ∧
    ∀ p ∈ passages host made fresh,
      (∀ id, p.before.run.dispatches p.call = some id → id ≠ "") ∧
      (∀ id, p.answer = .error (.missingNode id) ↔
        p.before.run.dispatches p.call = some id ∧ e.node? id = none) ∧
      (∀ kind id, p.answer = .error (.unknownKind kind id) ↔
        p.before.run.dispatches p.call = some id ∧ e.node? id = some (.unknown kind)) ∧
      (∀ fault, p.answer = .error fault → fault.ofLookup = true →
        trace host [p.call] p.before = [] ∧ ∃ world, p.after = p.before.inWorld world) := by
  intro fresh
  have grounded : fresh.run.Grounded e := .start e node initial
  refine ⟨fun other hid hstart same => ?_, fun id => ?_, fun kind id => ?_, fun p hp => ?_⟩
  · have hfresh : start host gateway other node initial = fresh.inEpisode other := by
      simp only [fresh, start, Run.start, hid, hstart]
      rfl
    obtain ⟨hpassages, hcalls⟩ := calls_inEpisode host hid grounded same
    rw [hfresh]
    exact ⟨hpassages, hcalls, trace_inEpisode host hid grounded same⟩
  · rw [lacks_iff_mem_answers grounded rfl]
    simp only [lacks_missingNode_iff]
    exact ⟨fun ⟨_, hd, rfl, h⟩ => ⟨hd, h⟩, fun ⟨hd, h⟩ => ⟨id, hd, rfl, h⟩⟩
  · rw [lacks_iff_mem_answers grounded rfl]
    simp only [lacks_unknownKind_iff]
    exact ⟨fun ⟨_, hd, rfl, h⟩ => ⟨hd, h⟩, fun ⟨hd, h⟩ => ⟨id, hd, rfl, h⟩⟩
  · obtain ⟨heq, hgrounded⟩ := forall_passages (P := fun s => s.run.Grounded e)
      (fun _ c h => grounded_call h host c) grounded p hp
    have hanswer : p.answer = ((call host p.call).on p.before).1 := congrArg Passage.answer heq
    have hafter : p.after = ((call host p.call).on p.before).2 := congrArg Passage.after heq
    rw [hanswer, hafter, ← hgrounded.episode]
    refine ⟨fun id hd => ?_, fun id => answer_missingNode_iff host,
      fun kind id => answer_unknownKind_iff host, fun fault => untouched_of_ofLookup host⟩
    obtain ⟨-, running, rfl⟩ := Run.dispatches_eq_some_iff.1 hd
    exact hgrounded.current_ne_empty (by rw [running]; decide)

/-- The ferry with a whirlpool where the shore was, and a reef that leads only to itself. -/
def wreck : Episode := ⟨"ferry", "The wreck", "dock", Table.ofList [
  ("dock", .choice "Cross?" [
    ⟨"pay", "Pay", "shore", some (Table.ofList [("coins", .int (-1))]), none, none⟩,
    ⟨"stay", "Stay", "", none, none, none⟩]),
  ("shore", .unknown "whirlpool"),
  ("reef", .jump "reef")]⟩

/-- Who stays at the dock does not learn what has become of the shore; who pays does, and nothing
of that step reaches the host. -/
theorem wreck_matters_when_reached :
    let host := (Rehearsal.inMemory [] []).toHost
    let fresh : Save.Gateway (Rehearsal.Progress (Table String)) :=
      ⟨none, ⟨Table.empty, 0, 0, [], [], []⟩⟩
    let staying := [.step, .choose "stay", .step]
    let paying := [.step, .choose "pay", .step]
    let there := start host fresh ferry none Table.empty
    let here := start host fresh wreck none Table.empty
    (∀ id ∈ dispatched host staying there, wreck.node? id = ferry.node? id) ∧
      wreck.node? "shore" ≠ ferry.node? "shore" ∧
      trace host staying here = trace host staying there ∧
      (calls host staying here).1 = (calls host staying there).1 ∧
      .error (.unknownKind "whirlpool" "shore") ∈ (calls host paying here).1 := by
  intro host fresh staying paying there here
  have hstaying : dispatched host staying there = ["dock"] := by decide +kernel
  have hpaying : dispatched host paying here = ["dock", "shore"] := by decide +kernel
  have same : ∀ id ∈ dispatched host staying there, wreck.node? id = ferry.node? id := by
    rw [hstaying]
    decide +kernel
  obtain ⟨hother, -⟩ := only_reached_nodes_matter host fresh ferry none Table.empty staying
  obtain ⟨-, hcalls, htrace⟩ := hother wreck rfl rfl same
  obtain ⟨-, -, hunknown, -⟩ := only_reached_nodes_matter host fresh wreck none Table.empty paying
  have reached : "shore" ∈ dispatched host paying here := by
    rw [hpaying]
    decide +kernel
  have whirlpool : wreck.node? "shore" = some (.unknown "whirlpool") := rfl
  have differs : wreck.node? "shore" ≠ ferry.node? "shore" := by decide +kernel
  refine ⟨same, differs, htrace, by rw [hcalls], ?_⟩
  exact (hunknown "whirlpool" "shore").2 ⟨reached, whirlpool⟩

end Stage

end Storyline
