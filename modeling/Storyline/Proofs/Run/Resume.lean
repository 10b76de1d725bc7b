import Storyline.Proofs.Rehearsal
import Storyline.Proofs.Run.Trace

/-!
# Storyline.Proofs.Run.Resume

Taking a run up again from its save.  Once a transition is completed, what is saved is
where the run stands and what it has; from then on that stays so as long as the saves
go well and the host keeps its hands off the resources.  A run that is started from
the save is therefore alike, and if the first one waits for a choice the new one does
as soon as it has shown the prompt again.
-/

namespace Storyline

/-- Whether a deed puts nothing but amounts and texts into resources. -/
def Deed.Typed : Deed → Prop
  | .put _ value => value.isValue = true
  | _ => True

/-- A run of an episode that holds amounts and texts.  Unless it waits for a choice it has
nothing on offer, and its status is that of the place it stands at. -/
structure Run.Orderly (e : Episode) (r : Run) : Prop where
  episode : r.episode = e
  typed : r.resources.Typed
  status : r.status ≠ .awaitingChoice → r.status = Status.at r.current
  pending : r.status ≠ .awaitingChoice → r.pending = []

theorem orderly_start (e : Episode) (node : Option String) {resources : Resources}
    (typed : resources.Typed) : (Run.start e node resources).Orderly e :=
  ⟨rfl, typed, fun _ => rfl, fun _ => rfl⟩

theorem beat_typed {ε : Type} {id : String} {resources : Resources} {node : Node} {beat : Beat}
    (typed : resources.Typed) (h : node.beat (ε := ε) id resources = .ok beat) :
    beat.resources.Typed := by
  by_cases hn : ∃ assignments next, node = .assign assignments next
  · obtain ⟨assignments, next, rfl⟩ := hn
    simp only [Node.beat] at h
    split at h
    · next after ha =>
      cases h
      exact Resources.assign_typed typed ha
    · cases h
  · rw [Stage.beat_resources h fun assignments next hn' => hn ⟨assignments, next, hn'⟩]
    exact typed

/-- What a run intends to hold is typed if what it holds is. -/
theorem Run.Intends.typed {ε : Type} {r : Run} {c : Call} {resources : Resources}
    {pending : List ChoiceView} {events : List Event} {next : String}
    (h : r.Intends ε c (.move resources pending events next)) (typed : r.resources.Typed) :
    resources.Typed := by
  cases h with
  | move running found beats leads => exact beat_typed typed beats
  | pick waiting offered met gained => exact Resources.gain_typed typed gained

namespace Stage

variable {σ τ ε κ : Type} {host : Host σ ε} {e : Episode} {s : Stage σ}

theorem orderly_call (orderly : s.run.Orderly e) (host : Host σ ε) (c : Call) :
    ((call host c).on s).2.run.Orderly e := by
  have h := outcome_call (spares_nothing host) c s
  generalize (call host c).on s = came at h ⊢
  cases h with
  | stopped reason spared => exact orderly
  | suspended intends spared =>
    exact ⟨orderly.episode, orderly.typed, fun h => absurd rfl h, fun h => absurd rfl h⟩
  | unsaved intends =>
    exact ⟨orderly.episode, intends.typed orderly.typed, orderly.status,
      fun _ => intends.leaves_nothing orderly.pending⟩
  | moved intends spared encoded written =>
    exact ⟨orderly.episode, intends.typed orderly.typed, fun _ => rfl,
      fun _ => intends.leaves_nothing orderly.pending⟩

theorem orderly_calls (orderly : s.run.Orderly e) (host : Host σ ε) (made : List Call) :
    (calls host made s).2.run.Orderly e := by
  induction made generalizing s with
  | nil => exact orderly
  | cons c rest ih => exact ih (orderly_call orderly host c)

theorem orderly_afterDeed (orderly : s.run.Orderly e) (host : Host σ ε) {d : Deed}
    (typed : d.Typed) : (afterDeed host s d).run.Orderly e := by
  cases d with
  | call c => exact orderly_call orderly host c
  | put name value =>
    exact ⟨orderly.episode, orderly.typed.insert name typed, orderly.status, orderly.pending⟩
  | drop name =>
    exact ⟨orderly.episode, orderly.typed.erase name, orderly.status, orderly.pending⟩

theorem orderly_afterDeeds (orderly : s.run.Orderly e) (host : Host σ ε) {deeds : List Deed}
    (typed : ∀ d ∈ deeds, d.Typed) : (afterDeeds host deeds s).run.Orderly e := by
  induction deeds generalizing s with
  | nil => exact orderly
  | cons d rest ih =>
    obtain ⟨hd, hrest⟩ := List.forall_mem_cons.1 typed
    exact ih (orderly_afterDeed orderly host hd) hrest

/-! ## Where the save stands -/

/-- What is held is the text of the run as it stands, and if the run waits for a choice,
then for that of the node it stands at, with the options as the resources have them. -/
structure Saved (ε : Type) (held : σ → Option String) (s : Stage σ) : Prop where
  text : ∃ text, (s.run.recordAt s.run.current).text = .ok text ∧ held s.gateway.world = some text
  waiting : s.run.status = .awaitingChoice → Status.at s.run.current = .running ∧
    ∃ prompt options, s.run.episode.node? s.run.current = some (.choice prompt options) ∧
      IsOffer ε s.run.resources options s.run.pending

variable {held : σ → Option String} (keeps : host.toStore.Keeps Save.autoKey held)
  (spares : Spares host held)

include keeps spares

theorem saved_movedOn {text : String} {world after : σ} (node next : String)
    (encoded : (s.run.recordAt next).text = .ok text)
    (written : (host.write Save.autoKey text).on world = (.ok (), after)) :
    Saved ε held (movedOn host node next s after) := by
  have hheld : held (movedOn host node next s after).gateway.world = some text := by
    have h : held after = some text :=
      keeps.write world after text (Json.plainText_write encoded) written
    rw [movedOn]
    split
    · rw [spares.note, spares.note, h]
    · rw [spares.note, h]
  have hat : Status.at next ≠ .awaitingChoice := by rw [Status.at]; split <;> decide
  exact ⟨⟨text, encoded, hheld⟩, fun h => absurd h hat⟩

/-- A completed transition leaves the run where it is saved. -/
theorem saved_of_completed {c : Call} {result : StepResult}
    (answer : ((call host c).on s).1 = .ok result) (completed : result.next.isSome = true) :
    Saved ε held ((call host c).on s).2 := by
  have h := outcome_call spares c s
  generalize (call host c).on s = came at h answer ⊢
  cases h with
  | stopped reason spared => cases answer
  | suspended intends spared => cases answer; cases completed
  | unsaved intends => cases answer
  | moved intends spared encoded written => exact saved_movedOn keeps spares _ _ encoded written

/-- So does every call after it, unless the save fails. -/
theorem saved_call (orderly : s.run.Orderly e) (saved : Saved ε held s) {c : Call}
    (unfailing : ∀ fault, ((call host c).on s).1 = .error fault → fault.ofSave = false) :
    Saved ε held ((call host c).on s).2 := by
  have h := outcome_call spares c s
  generalize (call host c).on s = came at h unfailing ⊢
  cases h with
  | stopped reason spared =>
    obtain ⟨text, htext, hheld⟩ := saved.text
    exact ⟨⟨text, htext, spared.trans hheld⟩, saved.waiting⟩
  | suspended intends spared =>
    obtain ⟨text, htext, hheld⟩ := saved.text
    cases intends with
    | suspend running found offer =>
      have hstatus := orderly.status (by rw [running]; decide)
      have hrunning : Status.at s.run.current = .running := hstatus.symm.trans running
      exact ⟨⟨text, htext, spared.trans hheld⟩, fun _ => ⟨hrunning, _, _, found, offer⟩⟩
  | unsaved intends => cases unfailing _ rfl
  | moved intends spared encoded written => exact saved_movedOn keeps spares _ _ encoded written

theorem saved_calls {made : List Call} (orderly : s.run.Orderly e) (saved : Saved ε held s)
    (unfailing : ∀ fault, .error fault ∈ (calls host made s).1 → fault.ofSave = false) :
    (calls host made s).2.run.Orderly e ∧ Saved ε held (calls host made s).2 := by
  induction made generalizing s with
  | nil => exact ⟨orderly, saved⟩
  | cons c rest ih =>
    obtain ⟨hfirst, hrest⟩ := unfailing_cons unfailing
    exact ih (orderly_call orderly host c) (saved_call keeps spares orderly saved hfirst) hrest

omit keeps spares

/-! ## Showing a choice again -/

theorem isOffer_of_same {r t : Resources} (same : r.Same t) {options : List ChoiceOption}
    {views : List ChoiceView} (h : IsOffer ε r options views) : IsOffer ε t options views :=
  have hview := view_of_tally (ε := ε) (Resources.tally_of_same same)
  ⟨h.1, fun v hv => (hview v.option).symm.trans (h.2 v hv)⟩

section Choice

variable (kept : σ → κ) (silent : ∀ n world, kept (host.note n world) = kept world)

include silent

/-- Options that have been offered are offered again. -/
theorem on_offer {resources : Resources} {options : List ChoiceOption} {views : List ChoiceView}
    (h : IsOffer ε resources options views) (s : Stage σ) :
    ∃ world, kept world = kept s.gateway.world ∧
      (offer host resources options).on s = (.ok views, s.inWorld world) := by
  have hanswer : ((offer host resources options).on s).1 = .ok views := by
    obtain ⟨rfl, hviews⟩ := h
    induction views generalizing s with
    | nil => rfl
    | cons v rest ih =>
      obtain ⟨hv, hrest⟩ := List.forall_mem_cons.1 hviews
      obtain ⟨world, hw⟩ := on_noteConflict host resources v.option.requirement s
      rw [List.map_cons, offer, Act.on_bind, hw]
      simp only [Act.on_bind, Act.on_known, hv, mapError_ok]
      rw [Act.eq_of_answer (ih (s.inWorld world) hrest)]
      rfl
  obtain ⟨world, hw, hk⟩ := (quiet_offer silent resources options).world s
  exact ⟨world, hk, Prod.ext hanswer hw⟩

theorem on_emit {event : Event} {shown : Option String} {world : σ}
    (shows : (host.render event).on s.gateway.world = (.ok shown, world)) :
    ∃ later, kept later = kept world ∧ (emit host event).on s = (.ok (), s.inWorld later) := by
  rw [emit, Act.on_bind, on_ofHost, shows]
  cases shown with
  | none => exact ⟨world, rfl, rfl⟩
  | some reason => exact ⟨_, silent _ _, rfl⟩

/-- A step at a choice shows the prompt and waits for one of the options. -/
theorem on_step_choice {prompt : String} {options : List ChoiceOption} {views : List ChoiceView}
    (running : s.run.status = .running)
    (found : s.run.episode.node? s.run.current = some (.choice prompt options))
    (offers : IsOffer ε s.run.resources options views) {shown : Option String} {world : σ}
    (shows : (host.render (.narration prompt)).on (host.note (.dispatching s.run.current
      (Node.choice prompt options).kindName) s.gateway.world) = (.ok shown, world)) :
    ∃ later, kept later = kept world ∧ (step host).on s =
      (.ok ⟨s.run.current, .awaitingChoice, none, [.narration prompt], views⟩,
        { s.inWorld later with
          run := { s.run with pending := views, status := .awaitingChoice } }) := by
  obtain ⟨seen, hseen, hemit⟩ := on_emit kept silent (s := s.inWorld (host.note (.dispatching
    s.run.current (Node.choice prompt options).kindName) s.gateway.world)) shows
  obtain ⟨later, hlater, hoffer⟩ := on_offer kept silent offers (s.inWorld seen)
  refine ⟨later, hlater.trans hseen, ?_⟩
  rw [step_eq, Act.on_bind, resolveStep, Act.on_bind, on_theRun]
  simp only [running, found, resolveNode, Act.on_bind, on_theRun, on_note]
  have htested :
      noteConflict host s.run.resources (Node.choice prompt options).tested = pure () := rfl
  rw [htested, Act.on_pure]
  simp only [Node.beat, Act.on_known, mapError_ok, emitAll, Act.on_bind, hemit, Act.on_pure]
  rw [inWorld_inWorld, hoffer]
  simp only [inWorld_inWorld, on_commit_suspend, run_inWorld]

end Choice

/-! ## Taking a run up again -/

/-- A stage takes up the run of another.  It stands where that one stands, with the same on
offer and the same resources.  On hosts that answer alike from there on, whatever calls are
made answer the same, make the same reach the hosts, and leave the runs the same. -/
structure TakesUp (host : Host σ ε) (other : Host τ ε) (s : Stage σ) (t : Stage τ) : Prop where
  run : s.run.Like Table.Same t.run
  onward : ∀ rel, Alike Table.Same rel host other → rel s.gateway.world t.gateway.world →
    ∀ made, (calls host made s).1 = (calls other made t).1 ∧
      trace host made s = trace other made t ∧
      (calls host made s).2.Like Table.Same rel (calls other made t).2

theorem takesUp_of_like {other : Host τ ε} {t : Stage τ} (h : s.run.Like Table.Same t.run) :
    TakesUp host other s t where
  run := h
  onward _ alike hrel made := by
    obtain ⟨hanswers, hlike⟩ := calls_alike Resources.likeness_same alike made ⟨h, hrel⟩
    exact ⟨hanswers, trace_alike Resources.likeness_same alike made ⟨h, hrel⟩, hlike⟩

section Start

variable (orderly : s.run.Orderly e) (other : Host τ ε) (g : Save.Gateway τ)

include orderly

/-- A run that waits for nothing is taken up at once. -/
theorem takesUp_start (h : s.run.status ≠ .awaitingChoice) :
    TakesUp host other s (start other g e (some s.run.current) s.run.resources.inOrder) :=
  takesUp_of_like ⟨orderly.episode, rfl, orderly.status h, orderly.pending h,
    s.run.resources.inOrder_same.symm⟩

/-- A run that waits for a choice is taken up once the prompt is shown again. -/
theorem takesUp_step {prompt : String} {options : List ChoiceOption}
    (waiting : s.run.status = .awaitingChoice) (running : Status.at s.run.current = .running)
    (found : s.run.episode.node? s.run.current = some (.choice prompt options))
    (offers : IsOffer ε s.run.resources options s.run.pending) {shown : Option String} {world : τ}
    (shows : (other.render (.narration prompt)).on (other.note (.dispatching s.run.current
      (Node.choice prompt options).kindName)
      (start other g e (some s.run.current) s.run.resources.inOrder).gateway.world) =
        (.ok shown, world)) :
    let t := start other g e (some s.run.current) s.run.resources.inOrder
    ((step other).on t).1 =
        .ok ⟨s.run.current, .awaitingChoice, none, [.narration prompt], s.run.pending⟩ ∧
      trace other [.step] t = [.shown (.narration prompt)] ∧
      TakesUp host other s ((step other).on t).2 := by
  intro t
  have hsame : s.run.resources.Same t.run.resources := s.run.resources.inOrder_same.symm
  have hfound : t.run.episode.node? t.run.current = some (.choice prompt options) := by
    rw [← found, orderly.episode]
    rfl
  have hoffers := isOffer_of_same hsame offers
  obtain ⟨later, -, hstep⟩ :=
    on_step_choice (fun _ => ()) (fun _ _ => rfl) running hfound hoffers shows
  have silent : ∀ n world, (other.traced.note n world).trace = world.trace := fun _ _ => rfl
  have hrunning : t.traced.run.status = .running := running
  obtain ⟨later', htrace, hstep'⟩ := on_step_choice Traced.trace silent hrunning hfound hoffers
    (Host.on_render_traced shows [])
  refine ⟨by rw [hstep]; rfl, ?_, ?_⟩
  · have hcalls :
        (calls other.traced [.step] t.traced).2 = ((step other.traced).on t.traced).2 := rfl
    rw [trace, hcalls, hstep']
    show later'.trace.reverse = _
    rw [htrace]
    rfl
  · rw [hstep]
    exact takesUp_of_like ⟨orderly.episode, rfl, waiting, rfl, hsame⟩

end Start

/-- A walk to a bridge, where a choice waits. -/
def crossing : Episode := ⟨"crossing", "The crossing", "road", Table.ofList [
  ("road", .say "Guide" "The bridge is ahead." "bridge"),
  ("bridge", .choice "Pay the toll?" [
    ⟨"pay", "Pay", "far", some (Table.ofList [("runes", .int (-2))]), none, none⟩,
    ⟨"turn", "Turn back", "road", none, none, none⟩]),
  ("far", .ending none none)]⟩

end Stage

end Storyline
