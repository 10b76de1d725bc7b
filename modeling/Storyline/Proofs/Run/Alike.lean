import Storyline.Proofs.Resources
import Storyline.Proofs.Run.Call
import Storyline.Proofs.Save.Record

/-!
# Storyline.Proofs.Run.Alike

Runs that are alike: at the same node of the same episode, with the same options on
offer and like resources.  The likeness may be equality, sameness as mappings, or that
the resources tally.  On hosts that answer alike, a call answers the same on runs that are
alike and leaves them alike, and so do any calls made one after the other.  The hosts need
not be handed the same texts to write, and what comes of showing an event may differ, as
long as they go on to answer alike.
-/

namespace Storyline

variable {E : Resources → Resources → Prop}

/-- Two runs differ at most in their resources, and these are alike. -/
structure Run.Like (E : Resources → Resources → Prop) (r s : Run) : Prop where
  episode : r.episode = s.episode
  current : r.current = s.current
  status : r.status = s.status
  pending : r.pending = s.pending
  resources : E r.resources s.resources

theorem Run.Like.eq {r s : Run} (h : r.Like Eq s) : r = s := by
  obtain ⟨he, hc, hs, hp, hr⟩ := h
  cases r
  cases s
  simp only at he hc hs hp hr
  rw [he, hc, hs, hp, hr]

/-! Runs stay alike if the same is done to both. -/

theorem Run.Like.suspend {r s : Run} (h : r.Like E s) (pending : List ChoiceView) :
    Run.Like E { r with pending, status := .awaitingChoice }
      { s with pending, status := .awaitingChoice } :=
  ⟨h.episode, h.current, rfl, rfl, h.resources⟩

theorem Run.Like.settle {r s : Run} (h : r.Like E s) {after after' : Resources}
    (like : E after after') (pending : List ChoiceView) :
    Run.Like E { r with resources := after, pending } { s with resources := after', pending } :=
  ⟨h.episode, h.current, h.status, rfl, like⟩

theorem Run.Like.arrive {r s : Run} (h : r.Like E s) (next : String) :
    Run.Like E { r with current := next, status := Status.at next }
      { s with current := next, status := Status.at next } :=
  ⟨h.episode, rfl, rfl, h.pending, h.resources⟩

/-- Two beats differ at most in the resources they leave. -/
structure Beat.Like (E : Resources → Resources → Prop) (b c : Beat) : Prop where
  resources : E b.resources c.resources
  events : b.events = c.events
  turn : b.turn = c.turn

/-- Two intents differ at most in resources. -/
inductive Intent.Like (E : Resources → Resources → Prop) : Intent → Intent → Prop
  | suspend (events : List Event) (views : List ChoiceView) :
    Like E (.suspend events views) (.suspend events views)
  | move {r s : Resources} (like : E r s) (pending : List ChoiceView) (events : List Event)
    (next : String) : Like E (.move r pending events next) (.move s pending events next)

/-- What a node does is alike with like resources. -/
theorem beat_agree {ε : Type} (tallying : Resources.Tallying E) {r s : Resources} (h : E r s)
    (id : String) (node : Node) :
    Agree (Beat.Like E) (node.beat (ε := ε) id r) (node.beat id s) := by
  cases node with
  | assign assignments next =>
    have ha := Resources.assign_agree tallying h (assignments.map Value.toJson)
    rw [Node.beat, Node.beat]
    cases hr : r.assign (assignments.map Value.toJson) with
    | ok after =>
      obtain ⟨after', hs, hlike⟩ := ha.eq_ok hr
      rw [hs]
      exact .ok ⟨hlike, rfl, rfl⟩
    | error fault =>
      rw [ha.eq_error hr]
      exact .error _
  | check requirement onPass onFail =>
    rw [Node.beat, Node.beat, Resources.meets_of_tally (tallying.tally h)]
    cases s.meets requirement with
    | ok met => exact .ok ⟨h, rfl, rfl⟩
    | error clash => exact .error _
  | ending summary save =>
    have hline : summaryLine r summary = summaryLine s summary := by
      rcases summary with _ | template
      · rfl
      · simp only [summaryLine, Resources.interpolate_of_tally (tallying.tally h)]
    rw [Node.beat, Node.beat, hline]
    cases summaryLine s summary with
    | ok shown => exact .ok ⟨h, rfl, rfl⟩
    | error fault => exact .error _
  | unknown kind => exact .error _
  | _ => exact .ok ⟨h, rfl, rfl⟩

/-- Two hosts answer alike to all but saves on related worlds, and leave related worlds.
What they make of like resources is the same. -/
structure AlikeButSaves {σ τ ε : Type} (E : Resources → Resources → Prop) (rel : σ → τ → Prop)
    (host : Host σ ε) (other : Host τ ε) : Prop where
  render : ∀ event, Act.Tracks rel Eq (host.render event) (other.render event)
  minigame : Option.Rel
    (fun decide decide' => ∀ game r s, E r s → Act.Tracks rel Eq (decide game r) (decide' game s))
    host.minigame other.minigame
  note : ∀ n world image, rel world image → rel (host.note n world) (other.note n image)

/-- Two hosts answer alike to everything on related worlds, and leave related worlds. -/
structure Alike {σ τ ε : Type} (E : Resources → Resources → Prop) (rel : σ → τ → Prop)
    (host : Host σ ε) (other : Host τ ε) : Prop extends AlikeButSaves E rel host other where
  write : ∀ key text, Act.Tracks rel Eq (host.write key text) (other.write key text)

/-- A host answers like itself. -/
theorem Alike.refl {σ ε : Type} (host : Host σ ε) : Alike Eq Eq host host where
  render _ := Act.tracks_refl _
  minigame := by
    cases host.minigame with
    | none => exact .none
    | some decide => exact .some fun game r s h => by subst h; exact Act.tracks_refl _
  note n world image h := congrArg (host.note n) h
  write _ _ := Act.tracks_refl _

/-- The world of a host once an event is shown, or is noted not to have been. -/
def Host.afterShowing {σ ε : Type} (host : Host σ ε) (event : Event) : Option String → σ → σ
  | none, world => world
  | some reason, world => host.note (.notPlayed event.kindName reason) world

/-- Two hosts answer alike on related worlds, and leave related worlds, as far as runs can
tell.  What comes of showing an event is related by `S`, and texts that are related by `W` are
written alike. -/
structure AlikeUpTo {σ τ ε : Type} (E : Resources → Resources → Prop) (rel : σ → τ → Prop)
    (S : Option String → Option String → Prop) (W : String → String → Prop)
    (host : Host σ ε) (other : Host τ ε) : Prop where
  render : ∀ event, Act.Tracks rel S (host.render event) (other.render event)
  shown : ∀ event shown shown', S shown shown' → ∀ world image, rel world image →
    rel (host.afterShowing event shown world) (other.afterShowing event shown' image)
  minigame : Option.Rel
    (fun decide decide' => ∀ game r s, E r s → Act.Tracks rel Eq (decide game r) (decide' game s))
    host.minigame other.minigame
  note : ∀ n world image, rel world image → rel (host.note n world) (other.note n image)
  write : ∀ key text text', W text text' →
    Act.Tracks rel Eq (host.write key text) (other.write key text')

section UpTo

variable {σ τ ε : Type} {rel : σ → τ → Prop} {host : Host σ ε} {other : Host τ ε}

theorem AlikeButSaves.shown (alike : AlikeButSaves E rel host other) (event : Event)
    (shown shown' : Option String) (h : shown = shown') (world : σ) (image : τ)
    (hrel : rel world image) :
    rel (host.afterShowing event shown world) (other.afterShowing event shown' image) := by
  subst h
  cases shown with
  | none => exact hrel
  | some reason => exact alike.note _ _ _ hrel

/-- Hosts that answer alike to all but saves do so up to the texts that are written. -/
theorem AlikeButSaves.upTo (alike : AlikeButSaves E rel host other) :
    AlikeUpTo E rel Eq (fun _ _ => False) host other :=
  ⟨alike.render, alike.shown, alike.minigame, alike.note, fun _ _ _ h => h.elim⟩

/-- Hosts that answer alike do so up to nothing. -/
theorem Alike.upTo (alike : Alike E rel host other) : AlikeUpTo E rel Eq Eq host other where
  render := alike.render
  shown := alike.toAlikeButSaves.shown
  minigame := alike.minigame
  note := alike.note
  write key text text' h := by
    subst h
    exact alike.write key text

theorem AlikeUpTo.alike (alike : AlikeUpTo E rel Eq Eq host other) : Alike E rel host other :=
  ⟨⟨alike.render, alike.minigame, alike.note⟩, fun key text => alike.write key text text rfl⟩

end UpTo

/-- The records of like resources have texts that are related by `W`, or neither has one. -/
def SavedAlong (E : Resources → Resources → Prop) (W : String → String → Prop) : Prop :=
  ∀ episode node r s, E r s →
    Agree W (Save.Record.text ⟨episode, node, r, .whole⟩)
      (Save.Record.text ⟨episode, node, s, .whole⟩)

theorem savedAlong_of_likeness (likeness : Resources.Likeness E) : SavedAlong E Eq := by
  intro episode node r s h
  rw [Save.Record.text_of_same episode node .whole (likeness.same h)]
  exact .refl _

namespace Stage

variable {σ τ ε : Type} {rel : σ → τ → Prop} {host : Host σ ε} {other : Host τ ε}

/-- Two stages have runs that are alike, in related worlds. -/
structure Like (E : Resources → Resources → Prop) (rel : σ → τ → Prop) (s : Stage σ)
    (t : Stage τ) : Prop where
  run : s.run.Like E t.run
  world : rel s.gateway.world t.gateway.world

theorem tracks_theRun :
    Act.Tracks (Like E rel) (Run.Like E) (theRun : Act (Stage σ) (RunFault ε) Run)
      (theRun : Act (Stage τ) (RunFault ε) Run) :=
  Act.tracks_look fun _ _ h => h.run

theorem tracks_changeRun {f g : Run → Run} (h : ∀ r s, r.Like E s → (f r).Like E (g s)) :
    Act.Tracks (Like E rel) Eq (changeRun f : Act (Stage σ) (RunFault ε) Unit)
      (changeRun g : Act (Stage τ) (RunFault ε) Unit) :=
  Act.tracks_change fun s t hst => ⟨h s.run t.run hst.run, hst.world⟩

theorem tracks_ofHost {α β : Type} {A : α → β → Prop} {act : Act σ ε α} {act' : Act τ ε β}
    (h : Act.Tracks rel A act act') : Act.Tracks (Like E rel) A (ofHost act) (ofHost act') := by
  rw [ofHost, ofHost]
  exact Act.tracks_within RunFault.host h (fun _ _ hst => hst.world)
    fun _ _ _ _ hst hw => ⟨hst.run, hw⟩

/-- Once an event is shown, a failure to show it is noted. -/
theorem emit_eq (host : Host σ ε) (event : Event) :
    emit host event = ofHost (host.render event) >>= fun shown =>
      Act.change fun s => s.inWorld (host.afterShowing event shown s.gateway.world) := by
  rw [emit]
  congr
  funext shown
  cases shown <;> rfl

section UpTo

variable {S : Option String → Option String → Prop} {W : String → String → Prop}
  (tallying : Resources.Tallying E) (saved : SavedAlong E W)
  (alike : AlikeUpTo E rel S W host other)

include alike

theorem tracks_note (n : Note) : Act.Tracks (Like E rel) Eq (note host n) (note other n) :=
  Act.tracks_change fun _ _ h => ⟨h.run, alike.note n _ _ h.world⟩

theorem tracks_emit (event : Event) :
    Act.Tracks (Like E rel) Eq (emit host event) (emit other event) := by
  rw [emit_eq, emit_eq]
  refine Act.tracks_bind (tracks_ofHost (alike.render event)) fun shown shown' h => ?_
  exact Act.tracks_change fun s t hst =>
    ⟨hst.run, alike.shown event shown shown' h _ _ hst.world⟩

theorem tracks_emitAll (events : List Event) :
    Act.Tracks (Like E rel) Eq (emitAll host events) (emitAll other events) := by
  induction events with
  | nil => exact Act.tracks_pure rfl
  | cons event rest ih => exact Act.tracks_bind (tracks_emit alike event) fun _ _ _ => ih

variable {r s : Resources} (tally : r.Tally s)

include tally in
theorem tracks_noteConflict (requirement : Option (Table Amount)) :
    Act.Tracks (Like E rel) Eq (noteConflict host r requirement)
      (noteConflict other s requirement) := by
  rw [noteConflict, noteConflict, Resources.verdict_of_tally tally]
  split
  · exact tracks_note alike _
  · exact Act.tracks_pure rfl

omit alike in
include tally in
theorem view_of_tally (o : ChoiceOption) : o.view (ε := ε) r = o.view s := by
  rw [ChoiceOption.view, ChoiceOption.view, Resources.meets_of_tally tally]

include tally in
theorem tracks_offer (options : List ChoiceOption) :
    Act.Tracks (Like E rel) Eq (offer host r options) (offer other s options) := by
  induction options with
  | nil => exact Act.tracks_pure rfl
  | cons o rest ih =>
    refine Act.tracks_bind (tracks_noteConflict alike tally o.requirement) fun _ _ _ => ?_
    rw [view_of_tally tally]
    refine Act.tracks_bind (Act.tracks_known id (.refl _)) fun view _ h => ?_
    subst h
    refine Act.tracks_bind ih fun views _ h => ?_
    subst h
    exact Act.tracks_pure rfl

theorem tracks_contest (game : String) :
    Act.Tracks (Like E rel) Eq (contest host game) (contest other game) := by
  have h := alike.minigame
  rw [contest, contest]
  cases hd : host.minigame with
  | none =>
    rw [hd] at h
    cases ho : other.minigame with
    | none => exact Act.tracks_pure rfl
    | some decide' => simp only [ho] at h; contradiction
  | some decide =>
    rw [hd] at h
    cases ho : other.minigame with
    | none => simp only [ho] at h; contradiction
    | some decide' =>
      rw [ho] at h
      cases h with
      | some h =>
        exact Act.tracks_bind tracks_theRun fun run run' hrun =>
          tracks_ofHost (h game _ _ hrun.resources)

include tallying

theorem tracks_resolveNode (node : Node) :
    Act.Tracks (Like E rel) (Intent.Like E) (resolveNode host node) (resolveNode other node) := by
  rw [resolveNode, resolveNode]
  refine Act.tracks_bind tracks_theRun fun r s h => ?_
  rw [h.current]
  refine Act.tracks_bind (tracks_note alike _) fun _ _ _ => ?_
  have htally := tallying.tally h.resources
  refine Act.tracks_bind (tracks_noteConflict alike htally node.tested) fun _ _ _ => ?_
  have hbeat := beat_agree (ε := ε) tallying h.resources s.current node
  refine Act.tracks_bind (Act.tracks_known id hbeat) fun b c hb => ?_
  rw [hb.events, hb.turn, h.pending]
  refine Act.tracks_bind (tracks_emitAll alike c.events) fun _ _ _ => ?_
  cases c.turn with
  | go next => exact Act.tracks_pure (.move hb.resources _ _ _)
  | offer options =>
    refine Act.tracks_bind (tracks_offer alike (tallying.tally hb.resources) options)
      fun views _ hv => ?_
    subst hv
    exact Act.tracks_pure (.suspend _ _)
  | contest game onWin onLose =>
    refine Act.tracks_bind (tracks_contest alike game) fun won _ hw => ?_
    subst hw
    exact Act.tracks_pure (.move hb.resources _ _ _)

theorem tracks_resolveStep :
    Act.Tracks (Like E rel) (Intent.Like E) (resolveStep host) (resolveStep other) := by
  rw [resolveStep, resolveStep]
  refine Act.tracks_bind tracks_theRun fun r s h => ?_
  rw [h.status, h.episode, h.current]
  cases s.status with
  | terminated => exact Act.tracks_throw _
  | awaitingChoice => exact Act.tracks_throw _
  | running =>
    cases s.episode.node? s.current with
    | none => exact Act.tracks_throw _
    | some node => exact tracks_resolveNode tallying alike node

theorem tracks_resolvePick (option : String) :
    Act.Tracks (Like E rel) (Intent.Like E) (resolvePick host option)
      (resolvePick other option) := by
  rw [resolvePick, resolvePick]
  refine Act.tracks_bind tracks_theRun fun r s h => ?_
  have hoffered : r.offered? option = s.offered? option := by
    rw [Run.offered?, Run.offered?, h.pending]
  rw [h.status, h.current, hoffered]
  split
  · cases s.offered? option with
    | none => exact Act.tracks_throw _
    | some picked =>
      have htally := tallying.tally h.resources
      refine Act.tracks_bind (tracks_noteConflict alike htally picked.requirement) fun _ _ _ => ?_
      rw [Resources.meets_of_tally htally]
      refine Act.tracks_bind (Act.tracks_known _ (.refl _)) fun met _ hm => ?_
      subst hm
      split
      · have hgain := Resources.gain_agree tallying h.resources picked.gain
        refine Act.tracks_bind (Act.tracks_known _ hgain) fun after after' hafter => ?_
        exact Act.tracks_pure (.move hafter _ _ _)
      · exact Act.tracks_throw _
  · exact Act.tracks_throw _

theorem tracks_resolve (c : Call) :
    Act.Tracks (Like E rel) (Intent.Like E) (resolve host c) (resolve other c) := by
  cases c with
  | step => exact tracks_resolveStep tallying alike
  | choose option => exact tracks_resolvePick tallying alike option

omit tallying in
include saved in
theorem tracks_save {r s : Run} (h : r.Like E s) (next : String) :
    Act.Tracks (Like E rel) Eq
      (ofGateway (Save.Gateway.save host.toStore (r.recordAt next) 0) :
        Act (Stage σ) (RunFault ε) Unit)
      (ofGateway (Save.Gateway.save other.toStore (s.recordAt next) 0)) := by
  rw [ofGateway, ofGateway]
  refine Act.tracks_within (R := fun g g' => rel g.world g'.world) RunFault.save ?_
    (fun _ _ hst => hst.world) fun _ _ _ _ hst hw => ⟨hst.run, hw⟩
  rw [Save.Gateway.save, Save.Gateway.save]
  refine Act.tracks_bind (Act.tracks_known id (.refl _)) fun key _ hk => ?_
  subst hk
  have htext : Agree W (r.recordAt next).text (s.recordAt next).text := by
    rw [Run.recordAt, Run.recordAt, h.episode]
    exact saved _ _ _ _ h.resources
  refine Act.tracks_bind (Act.tracks_known _ htext) fun text text' ht => ?_
  refine Act.tracks_bind (A := Eq) ?_ fun _ _ _ => ?_
  · exact Act.tracks_within Save.GatewayFault.store (alike.write key text text' ht)
      (fun _ _ hw => hw) fun _ _ _ _ _ hw => hw
  refine Act.tracks_bind (Act.tracks_change fun _ _ hw => hw) fun _ _ _ => ?_
  refine Act.tracks_change fun g g' hw => ?_
  show rel (host.note _ g.world) (other.note _ g'.world)
  rw [Run.recordAt, Run.recordAt, h.episode]
  exact alike.note _ _ _ hw

omit tallying in
include saved in
theorem tracks_advance (node next : String) (events : List Event) :
    Act.Tracks (Like E rel) Eq (advance host node next events)
      (advance other node next events) := by
  rw [advance, advance]
  refine Act.tracks_bind tracks_theRun fun r s h => ?_
  refine Act.tracks_bind (tracks_save saved alike h next) fun _ _ _ => ?_
  refine Act.tracks_bind (tracks_changeRun fun _ _ h => h.arrive next) fun _ _ _ => ?_
  rw [h.episode]
  split
  · exact Act.tracks_bind (tracks_note alike _) fun _ _ _ => Act.tracks_pure rfl
  · exact Act.tracks_pure rfl

omit tallying in
include saved in
theorem tracks_commit {intent intent' : Intent} (h : intent.Like E intent') :
    Act.Tracks (Like E rel) Eq (commit host intent) (commit other intent') := by
  cases h with
  | suspend events views =>
    rw [commit, commit]
    refine Act.tracks_bind tracks_theRun fun r s h => ?_
    refine Act.tracks_bind (tracks_changeRun fun _ _ h => h.suspend views) fun _ _ _ => ?_
    rw [h.current]
    exact Act.tracks_pure rfl
  | move like pending events next =>
    rw [commit, commit]
    refine Act.tracks_bind tracks_theRun fun r s h => ?_
    refine Act.tracks_bind (tracks_changeRun fun _ _ h => h.settle like pending) fun _ _ _ => ?_
    rw [h.current]
    exact tracks_advance saved alike _ _ _

include saved

/-- A call answers the same on stages that are alike, and leaves them alike. -/
theorem tracks_call_upTo (c : Call) :
    Act.Tracks (Like E rel) Eq (call host c) (call other c) := by
  rw [call_eq, call_eq]
  exact Act.tracks_bind (tracks_resolve tallying alike c)
    fun _ _ h => tracks_commit saved alike h

/-- So do calls made one after the other, whether they stop or not. -/
theorem calls_alike_upTo (made : List Call) {s : Stage σ} {t : Stage τ} (h : s.Like E rel t) :
    (calls host made s).1 = (calls other made t).1 ∧
      (calls host made s).2.Like E rel (calls other made t).2 := by
  induction made generalizing s t with
  | nil => exact ⟨rfl, h⟩
  | cons c rest ih =>
    obtain ⟨ha, hs⟩ := tracks_call_upTo tallying saved alike c s t h
    obtain ⟨hrest, hlike⟩ := ih hs
    rw [calls, calls]
    refine ⟨?_, hlike⟩
    show _ :: _ = _ :: _
    rw [Agree.eq_iff.1 ha, hrest]

end UpTo

section Alike

variable (likeness : Resources.Likeness E) (alike : Alike E rel host other)

include likeness alike

theorem tracks_call (c : Call) : Act.Tracks (Like E rel) Eq (call host c) (call other c) :=
  tracks_call_upTo likeness.tallying (savedAlong_of_likeness likeness) alike.upTo c

theorem calls_alike (made : List Call) {s : Stage σ} {t : Stage τ} (h : s.Like E rel t) :
    (calls host made s).1 = (calls other made t).1 ∧
      (calls host made s).2.Like E rel (calls other made t).2 :=
  calls_alike_upTo likeness.tallying (savedAlong_of_likeness likeness) alike.upTo made h

end Alike

end Stage

end Storyline
