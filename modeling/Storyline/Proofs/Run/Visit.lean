import Storyline.Proofs.Run.Pick
import Storyline.Proofs.Run.Status
import Storyline.Proofs.Run.Watch

/-!
# Storyline.Proofs.Run.Visit

What is seen of a run that is played through, node by node.  A *visit* to a node shows its
events and decides its minigame; at a choice it goes on with the options being presented, over
and over, until a pick is not turned down; then the record at the next node is written, and
unless the run has ended there is a pause.  What is seen of a whole run is one visit after the
other, and where the run is stopped the last visit is cut off.
-/

namespace Storyline

/-- The run, waiting for one of the options on offer. -/
def Run.waiting (r : Run) (views : List ChoiceView) : Run :=
  { r with pending := views, status := .awaitingChoice }

/-- A run turns a pick down if no option on offer has its id, or if the first that has may not
be picked with the resources that are held. -/
def Run.TurnsDown (r : Run) (o : ChoiceOption) : Prop :=
  r.offered? o.id = none ∨
    ∃ picked, r.offered? o.id = some picked ∧ r.resources.meets picked.requirement = .ok false

/-- What is seen of a pick. -/
def picking (views : List ChoiceView) (resources : Resources) (o : ChoiceOption) : List Moment :=
  [.presented views resources, .picked o]

namespace Player

variable {σ ε : Type}

/-- What is seen of a minigame: it is decided, if the player decides minigames. -/
def contests (player : Player σ ε) : Turn → List Moment
  | .contest game _ _ => if player.minigame.isSome then [.contested game] else []
  | .go _ | .offer _ => []

/-- What is seen first of the node that a run stands at: its events, then its minigame. -/
def opening (player : Player σ ε) (r : Run) : List Moment :=
  match r.episode.node? r.current with
  | none => []
  | some node =>
    match (node.beat r.current r.resources : Except (RunFault ε) Beat) with
    | .ok beat => beat.events.map .shown ++ player.contests beat.turn
    | .error _ => []

/-- What is seen of a choice while it waits: its opening, and the picks that were turned down. -/
def asking (player : Player σ ε) (r : Run) (views : List ChoiceView)
    (turnedDown : List ChoiceOption) : List Moment :=
  player.opening r ++ turnedDown.flatMap (picking views r.resources)

theorem asking_nil (player : Player σ ε) (r : Run) (views : List ChoiceView) :
    player.asking r views [] = player.opening r := by
  rw [asking, List.flatMap_nil, List.append_nil]

theorem asking_append (player : Player σ ε) (r : Run) (views : List ChoiceView)
    (turnedDown : List ChoiceOption) (o : ChoiceOption) :
    player.asking r views (turnedDown ++ [o]) =
      player.asking r views turnedDown ++ picking views r.resources o := by
  rw [asking, asking, List.flatMap_append, List.flatMap_singleton, List.append_assoc]

/-- What is seen of moving on to a node: a text is written, and there is a pause if the run
goes on and the player pauses. -/
def landing (player : Player σ ε) (next text : String) : List Moment :=
  .written Save.autoKey text :: if next ≠ "" ∧ player.pause.isSome then [.paused] else []

end Player

/-- A node that leads on is no choice. -/
theorem Run.Intends.leads_on {ε : Type} {r : Run} {resources : Resources}
    {pending : List ChoiceView} {events : List Event} {next : String}
    (h : r.Intends ε .step (.move resources pending events next)) (prompt : String)
    (options : List ChoiceOption) : r.episode.node? r.current ≠ some (.choice prompt options) := by
  intro hchoice
  cases h with
  | move running found beats leads =>
    rw [hchoice] at found
    cases found
    cases beats
    cases leads

section Visits

variable {σ ε : Type} (player : Player σ ε)

/-- A visit to the node that a run stands at: what is seen of it, and the run after it. -/
inductive Visit (r : Run) : List Moment → Run → Prop
  /-- The node leads on. -/
  | passed {resources : Resources} {pending : List ChoiceView} {events : List Event}
    {next text : String}
    (intends : r.Intends ε .step (.move resources pending events next))
    (encoded : (Save.Record.mk r.episode.id next resources .whole).text = .ok text) :
    Visit r (player.opening r ++ player.landing next text)
      { r with current := next, status := Status.at next, resources, pending }
  /-- The options of the node are presented until a pick is not turned down. -/
  | chosen {events : List Event} {views : List ChoiceView} {turnedDown : List ChoiceOption}
    {o : ChoiceOption} {resources : Resources} {pending : List ChoiceView} {quiet : List Event}
    {next text : String}
    (offers : r.Intends ε .step (.suspend events views))
    (rejected : ∀ o ∈ turnedDown, (r.waiting views).TurnsDown o)
    (intends : (r.waiting views).Intends ε (.choose o.id) (.move resources pending quiet next))
    (encoded : (Save.Record.mk r.episode.id next resources .whole).text = .ok text) :
    Visit r (player.asking r views turnedDown ++ picking views r.resources o ++
        player.landing next text)
      { r with current := next, status := Status.at next, resources, pending }

/-- One visit after the other: what is seen of them, and the run after them. -/
inductive Course (fresh : Run) : List Moment → Run → Prop
  | start : Course fresh [] fresh
  | visit {seen moments : List Moment} {r after : Run} (course : Course fresh seen r)
    (visit : Visit player r moments after) : Course fresh (seen ++ moments) after

/-- What a visit may come to when it is known no further: any record may yet be written, and at
a choice any option be picked. -/
inductive Outline (r : Run) : List Moment → Prop
  | passed (next text : String)
    (leads : ∀ prompt options, r.episode.node? r.current ≠ some (.choice prompt options)) :
    Outline r (player.opening r ++ player.landing next text)
  | chosen {prompt : String} {options : List ChoiceOption} {views : List ChoiceView}
    {turnedDown : List ChoiceOption} (o : ChoiceOption) (next text : String)
    (found : r.episode.node? r.current = some (.choice prompt options))
    (offers : views.map ChoiceView.option = options)
    (rejected : ∀ o ∈ turnedDown, (r.waiting views).TurnsDown o) :
    Outline r (player.asking r views turnedDown ++ picking views r.resources o ++
      player.landing next text)

/-- Where a run stands that is played, and what has been seen of it by then. -/
inductive Stands (fresh : Run) : List Moment → Run → Prop
  /-- Between two visits, or at the end. -/
  | between {seen : List Moment} {r : Run} (course : Course player fresh seen r) :
    Stands fresh seen r
  /-- Within a visit, waiting for a pick. -/
  | waiting {seen : List Moment} {r : Run} {events : List Event} {views : List ChoiceView}
    {turnedDown : List ChoiceOption} (course : Course player fresh seen r)
    (offers : r.Intends ε .step (.suspend events views))
    (rejected : ∀ o ∈ turnedDown, (r.waiting views).TurnsDown o) :
    Stands fresh (seen ++ player.asking r views turnedDown) (r.waiting views)

/-- What has been seen of a run that was stopped: the last visit is cut off. -/
inductive CutOff (fresh : Run) : List Moment → Prop
  | within {seen cut moments : List Moment} {r : Run} (course : Course player fresh seen r)
    (outline : Outline player r moments) (cuts : cut <+: moments) : CutOff fresh (seen ++ cut)

end Visits

section Courses

variable {σ ε : Type} {player : Player σ ε} {fresh r after : Run} {seen moments : List Moment}

/-- A visit starts at a running run. -/
theorem Visit.running (visit : Visit player r moments after) : r.status = .running := by
  cases visit with
  | passed intends encoded =>
    cases intends with
    | move running found beats leads => exact running
  | chosen offers rejected intends encoded =>
    cases offers with
    | suspend running found offer => exact running

/-- A visit ends with the landing on the next node, the record there being written. -/
theorem Visit.lands (visit : Visit player r moments after) :
    ∃ before text, moments = before ++ player.landing after.current text ∧
      after.episode = r.episode ∧ after.status = Status.at after.current ∧
      (Save.Record.mk r.episode.id after.current after.resources .whole).text = .ok text := by
  cases visit with
  | passed intends encoded => exact ⟨_, _, rfl, rfl, rfl, encoded⟩
  | chosen offers rejected intends encoded => exact ⟨_, _, rfl, rfl, rfl, encoded⟩

/-- Visits stay in the episode. -/
theorem Course.episode (course : Course player fresh seen r) : r.episode = fresh.episode := by
  induction course with
  | start => rfl
  | visit course visit ih =>
    obtain ⟨-, -, -, hepisode, -⟩ := visit.lands
    exact hepisode.trans ih

/-- Between visits a run never waits. -/
theorem Course.ne_waiting (course : Course player fresh seen r)
    (h : fresh.status ≠ .awaitingChoice) : r.status ≠ .awaitingChoice := by
  cases course with
  | start => exact h
  | visit course visit =>
    obtain ⟨-, -, -, -, hstatus, -⟩ := visit.lands
    rw [hstatus]
    exact Status.at_ne_awaitingChoice _

/-- A run that has ended before it starts visits nothing. -/
theorem Course.of_ended (course : Course player fresh seen r) (ended : fresh.status = .terminated) :
    seen = [] ∧ r = fresh := by
  induction course with
  | start => exact ⟨rfl, rfl⟩
  | visit course visit ih =>
    have running := visit.running
    rw [ih.2, ended] at running
    cases running

/-- The last that is seen of a run that ends is that its last record is written, unless it has
ended before it starts. -/
theorem Course.ends (course : Course player fresh seen r) (ended : r.status = .terminated) :
    fresh.status = .terminated ∧ seen = [] ∧ r = fresh ∨
      fresh.status ≠ .terminated ∧ ∃ text, seen.getLast? = some (.written Save.autoKey text) ∧
        (Save.Record.mk fresh.episode.id "" r.resources .whole).text = .ok text := by
  cases course with
  | start => exact .inl ⟨ended, rfl, rfl⟩
  | @visit seen moments before _ course visit =>
    refine .inr ⟨fun h => ?_, ?_⟩
    · have running := visit.running
      rw [(course.of_ended h).2, h] at running
      cases running
    · obtain ⟨first, text, rfl, -, hstatus, encoded⟩ := visit.lands
      rw [hstatus, Status.at_eq_terminated_iff] at ended
      rw [course.episode, ended] at encoded
      refine ⟨text, ?_, encoded⟩
      rw [ended, Player.landing, if_neg fun h => h.1 rfl, ← List.append_assoc,
        List.getLast?_concat]

/-- A run that has ended stands between visits. -/
theorem Stands.course (stands : Stands player fresh seen r) (ended : r.status = .terminated) :
    Course player fresh seen r := by
  cases stands with
  | between course => exact course
  | waiting course offers rejected => cases ended

end Courses

namespace Stage

variable {σ ε : Type} {player : Player σ ε} {s : Stage (Watched σ)}

theorem sees_contest (game onWin onLose : String) :
    Sees (player.contests (.contest game onWin onLose)) (contest player.watched.toHost game) s := by
  rw [contest, Player.contests, Player.watched]
  cases player.minigame with
  | none => exact sees_nothing rfl
  | some decide =>
    exact sees_after (sees_nothing rfl) fun run _ _ =>
      sees_seeing (.contested game) (decide game run.resources)

/-- What is seen of resolving what a node is to do is the opening of its visit. -/
theorem sees_resolveNode {node : Node} (found : s.run.episode.node? s.run.current = some node) :
    Sees (player.opening s.run) (resolveNode player.watched.toHost node) s := by
  rw [Player.opening, found]
  refine sees_after (sees_nothing rfl) fun run t h => ?_
  cases h
  refine sees_after (sees_note _) fun _ t h => ?_
  refine sees_after (sees_noteConflict _ _) fun _ t h => ?_
  simp only
  cases hbeat : (node.beat s.run.current s.run.resources : Except (RunFault ε) Beat) with
  | error fault => exact sees_after (sees_known id _) fun beat _ hb => by cases hb
  | ok beat =>
    refine sees_after (sees_known id _) fun _ _ hb => ?_
    cases hb
    refine sees_bind (sees_emitAll beat.events) fun _ _ _ => ?_
    cases beat.turn with
    | go next => exact sees_nothing rfl
    | offer options => exact sees_after (sees_offer _ _) fun _ _ _ => sees_nothing rfl
    | contest game onWin onLose =>
      exact sees_before (sees_contest game onWin onLose) fun _ _ _ => sees_nothing rfl

theorem sees_resolveStep : Sees (player.opening s.run) (resolveStep player.watched.toHost) s := by
  refine sees_after (sees_nothing rfl) fun run _ h => ?_
  cases h
  cases s.run.status with
  | terminated => exact sees_throw _ _
  | awaitingChoice => exact sees_throw _ _
  | running =>
    cases found : s.run.episode.node? s.run.current with
    | none => exact sees_throw _ _
    | some node => exact sees_resolveNode found

theorem sees_resolvePick (option : String) :
    Sees [] (resolvePick player.watched.toHost option) s := by
  refine sees_after (sees_nothing rfl) fun run _ h => ?_
  split
  · cases run.offered? option with
    | none => exact sees_throw _ _
    | some picked =>
      refine sees_after (sees_noteConflict _ _) fun _ _ _ => ?_
      refine sees_after (sees_known _ _) fun met _ _ => ?_
      split
      · exact sees_after (sees_known _ _) fun _ _ _ => sees_nothing rfl
      · exact sees_throw _ _
  · exact sees_throw _ _

theorem run_of_resolve {host : Host σ ε} {c : Call} {s after : Stage σ}
    {answer : Except (RunFault ε) Intent} (h : (resolve host c).on s = (answer, after)) :
    after.run = s.run := by
  obtain ⟨world, hworld, -⟩ := (quiet_resolve (spares_nothing host) c).world s
  rw [h] at hworld
  replace hworld : after = s.inWorld world := hworld
  rw [hworld, run_inWorld]

/-- A pick that resolving rejects is one that the run turns down. -/
theorem turnsDown_of_resolvePick {host : Host σ ε} {o : ChoiceOption} {rejection : Rejection}
    {s after : Stage σ} (h : (resolvePick host o.id).on s = (.error (.rejected rejection), after)) :
    s.run.TurnsDown o := by
  simp only [resolvePick, Act.on_bind, on_theRun] at h
  by_cases waiting : s.run.status = .awaitingChoice
  · rw [if_pos waiting] at h
    cases offered : s.run.offered? o.id with
    | none => exact .inl offered
    | some picked =>
      obtain ⟨world, hw⟩ := on_noteConflict host s.run.resources picked.requirement s
      simp only [offered, Act.on_bind, hw, Act.on_known] at h
      cases met : s.run.resources.meets picked.requirement with
      | error clash => rw [met] at h; cases h
      | ok met' =>
        cases met' with
        | false => exact .inr ⟨picked, offered, met⟩
        | true =>
          simp only [met, mapError_ok, if_true, Act.on_bind, Act.on_known] at h
          cases gained : s.run.resources.gain picked.gain with
          | ok resources => rw [gained] at h; cases h
          | error fault => rw [gained] at h; cases fault <;> cases h
  · rw [if_neg waiting] at h
    cases h

/-! ## Landing -/

/-- Between two nodes a pause is seen, if the player pauses. -/
theorem seen_pauseIfRunning (player : Player σ ε) (s : Stage (Watched σ)) :
    ((pauseIfRunning player.watched).on s).2.seen =
      s.seen ++ if s.run.status = .running ∧ player.pause.isSome then [.paused] else [] := by
  simp only [pauseIfRunning, Act.on_bind, on_theRun, Player.watched]
  by_cases running : s.run.status = .running
  · simp only [running, true_and]
    cases player.pause with
    | none => simp
    | some pause => simp [on_ofHost, Player.on_seeing, seen]
  · simp [running]

/-- What moving on with resources to a node comes to, with the pause after it, when so much has
been seen. -/
inductive Lands (player : Player σ ε) (r : Run) (resources : Resources)
    (pending : List ChoiceView) (next : String) (before : List Moment) :
    Except (RunFault ε) Unit × Stage (Watched σ) → Prop
  /-- It stops at the save. -/
  | unsaved {fault : RunFault ε} {after : Stage (Watched σ)} {text : String} {cut : List Moment}
    (cuts : cut <+: [.written Save.autoKey text]) (seen : after.seen = before ++ cut) :
    Lands player r resources pending next before (.error fault, after)
  /-- The run stands at the node; if it stops after all, it stops at the pause. -/
  | landed {answer : Except (RunFault ε) Unit} {after : Stage (Watched σ)} {text : String}
    (encoded : (Save.Record.mk r.episode.id next resources .whole).text = .ok text)
    (run : after.run = { r with current := next, status := Status.at next, resources, pending })
    (seen : after.seen = before ++ player.landing next text) :
    Lands player r resources pending next before (answer, after)

theorem seen_movedOn (host : Host (Watched σ) ε) (silent : ∀ n w, (host.note n w).seen = w.seen)
    (node next : String) (s : Stage (Watched σ)) (w : Watched σ) :
    (movedOn host node next s w).seen = w.seen := by
  simp only [seen, movedOn]
  split
  · rw [silent, silent]
  · rw [silent]

theorem lands_commit (player : Player σ ε) (resources : Resources) (pending : List ChoiceView)
    (events : List Event) (next : String) (s : Stage (Watched σ)) :
    Lands player s.run resources pending next s.seen
      ((commit player.watched.toHost (.move resources pending events next) >>= fun _ =>
        pauseIfRunning player.watched).on s) := by
  rw [Act.on_bind, on_commit_move, on_advance]
  cases encoded : ((s.settle resources pending).run.recordAt next).text with
  | error fault =>
    have cuts : [] <+: [Moment.written Save.autoKey ""] := List.nil_prefix
    exact .unsaved cuts (List.append_nil _).symm
  | ok text =>
    cases hw : (player.write Save.autoKey text).on s.gateway.world.world with
    | mk answer world =>
      have hwrite : (player.watched.write Save.autoKey text).on s.gateway.world =
          (answer, ⟨world, s.seen ++ [.written Save.autoKey text]⟩) := by
        have hon := Player.on_seeing (.written Save.autoKey text) (player.write Save.autoKey text)
          s.gateway.world
        rw [hw] at hon
        exact hon
      simp only [gateway_settle, hwrite]
      cases answer with
      | error fault => exact .unsaved List.prefix_rfl rfl
      | ok _ =>
        let there := movedOn player.watched.toHost s.run.current next (s.settle resources pending)
          ⟨world, s.seen ++ [.written Save.autoKey text]⟩
        have hseen := seen_pauseIfRunning player there
        refine .landed encoded (on_pauseIfRunning player.watched there).1 (hseen.trans ?_)
        have hthere : there.seen = s.seen ++ [.written Save.autoKey text] :=
          seen_movedOn _ (fun _ _ => rfl) _ _ _ _
        have hstatus : there.run.status = .running ↔ next ≠ "" := Status.at_eq_running_iff
        simp only [hthere, hstatus, Player.landing, List.append_assoc, List.singleton_append]

/-! ## Rounds -/

theorem on_pauseIfRunning_of_ne (player : Player σ ε) {s : Stage σ} (h : s.run.status ≠ .running) :
    (pauseIfRunning player).on s = (.ok (), s) := by
  simp only [pauseIfRunning, Act.on_bind, on_theRun, if_neg h, Act.on_pure]

/-- What playing comes to: the run stands somewhere, or was stopped. -/
inductive Played {α : Type} (player : Player σ ε) (fresh : Run) :
    Except (RunFault ε) α × Stage (Watched σ) → Prop
  | stands {a : α} {after : Stage (Watched σ)} (h : Stands player fresh after.seen after.run) :
    Played player fresh (.ok a, after)
  | stopped {fault : RunFault ε} {after : Stage (Watched σ)} (h : CutOff player fresh after.seen) :
    Played player fresh (.error fault, after)

theorem Played.stands_of_ok {α : Type} {fresh : Run} {a : α}
    {came : Except (RunFault ε) α × Stage (Watched σ)} (played : Played player fresh came)
    (h : came.1 = .ok a) : Stands player fresh came.2.seen came.2.run := by
  cases played with
  | stands hstands => exact hstands
  | stopped _ => cases h

theorem Played.cutOff_of_error {α : Type} {fresh : Run} {fault : RunFault ε}
    {came : Except (RunFault ε) α × Stage (Watched σ)} (played : Played player fresh came)
    (h : came.1 = .error fault) : CutOff player fresh came.2.seen := by
  cases played with
  | stands _ => cases h
  | stopped hcut => exact hcut

/-- However a visit ends, it begins with its opening. -/
theorem exists_outline (player : Player σ ε) (r : Run) :
    ∃ moments, Outline player r moments ∧ player.opening r <+: moments := by
  by_cases h : ∃ prompt options, r.episode.node? r.current = some (.choice prompt options)
  · obtain ⟨prompt, options, found⟩ := h
    -- Nothing is asked of these views but that they list the options, so any flags will do.
    let views := options.map fun o => ChoiceView.mk o true ""
    have offers : views.map ChoiceView.option = options := by
      rw [List.map_map]
      exact List.map_id options
    refine ⟨_, .chosen (Rehearsal.notOnOffer "") "" "" found offers (List.forall_mem_nil _), ?_⟩
    rw [Player.asking_nil, List.append_assoc]
    exact List.prefix_append _ _
  · exact ⟨_, .passed "" "" fun prompt options found => h ⟨prompt, options, found⟩,
      List.prefix_append _ _⟩

/-- Landing ends the visit that has been seen so far, or cuts it off. -/
theorem played_of_lands {fresh r there : Run} {done before : List Moment}
    (course : Course player fresh done r) {resources : Resources} {pending : List ChoiceView}
    {next : String} {came : Except (RunFault ε) Unit × Stage (Watched σ)}
    (lands : Lands player there resources pending next (done ++ before) came)
    (visits : ∀ text, (Save.Record.mk there.episode.id next resources .whole).text = .ok text →
      Visit player r (before ++ player.landing next text)
        { there with current := next, status := Status.at next, resources, pending })
    (outlines : ∀ text, Outline player r (before ++ player.landing next text)) :
    Played player fresh came := by
  cases lands with
  | @unsaved fault after text cut cuts hseen =>
    have hcut : cut <+: player.landing next text :=
      cuts.trans (List.prefix_append [Moment.written Save.autoKey text] _)
    have cutOff := CutOff.within course (outlines text)
      ((List.prefix_append_right_inj before).2 hcut)
    exact .stopped (by rwa [hseen, List.append_assoc])
  | @landed answer after text encoded hrun hseen =>
    have course' := Course.visit course (visits text encoded)
    rw [← List.append_assoc, ← hseen, ← hrun] at course'
    cases answer with
    | ok _ => exact .stands (.between course')
    | error fault =>
      -- Stopped at the pause: this visit is whole, and the next is cut off before it begins.
      obtain ⟨moments, outline, -⟩ := exists_outline player after.run
      have cutOff := CutOff.within course' outline List.nil_prefix
      exact .stopped (by rwa [List.append_nil] at cutOff)

theorem on_round_running (player : Player σ ε) {s : Stage σ} (running : s.run.status = .running) :
    (round player).on s = (resolveStep player.toHost >>= fun intent =>
      commit player.toHost intent >>= fun _ => pauseIfRunning player).on s := by
  rw [round, Act.on_bind, on_theRun]
  simp only [running, step_eq, bind_assoc]

/-- A round at a node visits it, or at a choice begins to wait. -/
theorem played_of_running {fresh : Run} (course : Course player fresh s.seen s.run)
    (running : s.run.status = .running) :
    Played player fresh ((round player.watched).on s) := by
  rw [on_round_running player.watched running, Act.on_bind]
  have sees : Sees (player.opening s.run) (resolveStep player.watched.toHost) s := sees_resolveStep
  cases hr : (resolveStep player.watched.toHost).on s with
  | mk answer t =>
    cases answer with
    | error fault =>
      obtain ⟨cut, hcut, hseen⟩ := sees.error fault t hr
      obtain ⟨moments, outline, hopening⟩ := exists_outline player s.run
      have cutOff := CutOff.within course outline (hcut.trans hopening)
      exact .stopped (hseen ▸ cutOff)
    | ok intent =>
      have hseen := sees.ok intent t hr
      have intends : s.run.Intends ε .step intent := intends_of_resolve (c := .step) hr
      have hrun : t.run = s.run := run_of_resolve (c := .step) hr
      cases intent with
      | suspend events views =>
        simp only [Act.on_bind, on_commit_suspend]
        rw [on_pauseIfRunning_of_ne player.watched (fun h => by cases h)]
        have stands := Stands.waiting course intends (List.forall_mem_nil _)
        rw [Player.asking_nil, ← hseen, ← hrun] at stands
        exact .stands stands
      | move resources pending events next =>
        have lands := lands_commit player resources pending events next t
        rw [hseen] at lands
        refine played_of_lands course lands (fun text encoded => ?_) fun text => ?_
        · rw [hrun] at encoded ⊢
          exact .passed intends encoded
        · exact .passed next text intends.leads_on

theorem on_round_unpicked {player : Player σ ε} {s : Stage σ} {fault : ε} {world : σ}
    (waiting : s.run.status = .awaitingChoice)
    (picks : (player.pick s.run.pending s.run.resources).on s.gateway.world =
      (.error fault, world)) :
    (round player).on s = (.error (.host fault), s.inWorld world) := by
  rw [round, Act.on_bind, on_theRun]
  simp only [waiting, Act.on_bind, on_ofHost, picks]
  rfl

section Picked

variable {player : Player σ ε} {s after : Stage σ} {o : ChoiceOption} {world : σ}
  (waiting : s.run.status = .awaitingChoice)
  (picks : (player.pick s.run.pending s.run.resources).on s.gateway.world = (.ok o, world))

include waiting picks

theorem on_round_turnedDown {rejection : Rejection}
    (h : (resolvePick player.toHost o.id).on (s.inWorld world) =
      (.error (.rejected rejection), after)) :
    (round player).on s =
      (note player.toHost (.choiceRejected s.run.current rejection.message)).on after := by
  rw [on_round_waiting waiting picks, choose_eq, Act.on_bind, h]

theorem on_round_failed {fault : RunFault ε} (other : ∀ rejection, fault ≠ .rejected rejection)
    (h : (resolvePick player.toHost o.id).on (s.inWorld world) = (.error fault, after)) :
    (round player).on s = (.error fault, after) := by
  rw [on_round_waiting waiting picks, choose_eq, Act.on_bind, h]
  cases fault with
  | rejected rejection => exact absurd rfl (other rejection)
  | _ => rfl

theorem on_round_picked {intent : Intent}
    (h : (resolvePick player.toHost o.id).on (s.inWorld world) = (.ok intent, after)) :
    (round player).on s =
      (commit player.toHost intent >>= fun _ => pauseIfRunning player).on after := by
  rw [on_round_waiting waiting picks, choose_eq, Act.on_bind, h]
  simp only [Act.on_bind]
  cases hcommit : (commit player.toHost intent).on after with
  | mk answer done =>
    cases answer with
    | ok _ => rfl
    | error fault =>
      have ofSave := commit_fault hcommit
      cases fault with
      | rejected rejection => cases ofSave
      | _ => rfl

end Picked

theorem seen_inWorld {s : Stage (Watched σ)} {w : Watched σ} {done before moments : List Moment}
    (hseen : s.seen = done ++ before) (hw : w.seen = s.gateway.world.seen ++ moments) :
    (s.inWorld w).seen = done ++ (before ++ moments) := by
  have hworld : s.gateway.world.seen = done ++ before := hseen
  rw [seen, world_inWorld, hw, hworld, List.append_assoc]

/-- The player who is watched makes no pick, or one that is seen. -/
theorem pick_watched_cases (player : Player σ ε) (views : List ChoiceView) (resources : Resources)
    (w : Watched σ) :
    (∃ fault w', (player.watched.pick views resources).on w = (.error fault, w') ∧
      w'.seen = w.seen ++ [.presented views resources]) ∨
    ∃ o w', (player.watched.pick views resources).on w = (.ok o, w') ∧
      w'.seen = w.seen ++ picking views resources o := by
  rw [Player.on_pick_watched]
  cases (player.pick views resources).on w.world with
  | mk answer world =>
    cases answer with
    | error fault => exact .inl ⟨fault, _, rfl, rfl⟩
    | ok o => exact .inr ⟨o, _, rfl, rfl⟩

section Waiting

variable {fresh r : Run} {done : List Moment} {events : List Event} {views : List ChoiceView}
  {turnedDown : List ChoiceOption} (course : Course player fresh done r)
  (offers : r.Intends ε .step (.suspend events views))
  (rejected : ∀ o ∈ turnedDown, (r.waiting views).TurnsDown o)

include offers rejected

/-- While the run waits any pick may yet end the visit. -/
theorem outline_of_waiting (player : Player σ ε) (o : ChoiceOption) (next text : String) :
    Outline player r (player.asking r views turnedDown ++ picking views r.resources o ++
      player.landing next text) := by
  cases offers with
  | suspend running found offer => exact .chosen o next text found offer.1 rejected

include course

/-- A run that is stopped while it waits is stopped within the visit. -/
theorem cutOff_of_waiting (o : ChoiceOption) {cut : List Moment}
    (cuts : cut <+: picking views r.resources o) :
    CutOff player fresh (done ++ (player.asking r views turnedDown ++ cut)) := by
  have outline := outline_of_waiting offers rejected player o "" ""
  have hcut := (List.prefix_append_right_inj (player.asking r views turnedDown)).2 cuts
  exact .within course outline (hcut.trans (List.prefix_append _ _))

/-- Once a pick is made the round ends the visit, or the pick is turned down and the run waits
on. -/
theorem played_of_pick (waits : s.run = r.waiting views) {o : ChoiceOption} {w : Watched σ}
    (picks : (player.watched.pick s.run.pending s.run.resources).on s.gateway.world = (.ok o, w))
    (hthere : (s.inWorld w).seen =
      done ++ (player.asking r views turnedDown ++ picking views r.resources o)) :
    Played player fresh ((round player.watched).on s) := by
  have waiting : s.run.status = .awaitingChoice := by rw [waits]; rfl
  have sees : Sees [] (resolvePick player.watched.toHost o.id) (s.inWorld w) :=
    sees_resolvePick o.id
  cases hr : (resolvePick player.watched.toHost o.id).on (s.inWorld w) with
  | mk answer t =>
    have hrun : t.run = r.waiting views := (run_of_resolve (c := .choose o.id) hr).trans waits
    cases answer with
    | ok intent =>
      have ht := sees.ok intent t hr
      rw [List.append_nil, hthere] at ht
      have intends := intends_of_resolve (c := .choose o.id) hr
      rw [run_inWorld, waits] at intends
      cases intent with
      | suspend events views => cases intends
      | move resources pending quiet next =>
        rw [on_round_picked waiting picks hr]
        have lands := lands_commit player resources pending quiet next t
        rw [ht] at lands
        refine played_of_lands course lands (fun text encoded => ?_)
          (outline_of_waiting offers rejected player o next)
        rw [hrun] at encoded ⊢
        exact .chosen offers rejected intends encoded
    | error fault =>
      obtain ⟨cut, hcut, ht⟩ := sees.error fault t hr
      rw [List.prefix_nil.1 hcut, List.append_nil, hthere] at ht
      -- A rejection is caught and the run waits on; any other fault ends the playing.
      by_cases turns : ∃ rejection, fault = .rejected rejection
      · obtain ⟨rejection, rfl⟩ := turns
        have down : (r.waiting views).TurnsDown o := by
          have h := turnsDown_of_resolvePick hr
          rwa [run_inWorld, waits] at h
        have stands := Stands.waiting course offers (List.forall_mem_append.2
          ⟨rejected, List.forall_mem_singleton.2 down⟩)
        rw [Player.asking_append, ← ht, ← hrun] at stands
        rw [on_round_turnedDown waiting picks hr]
        exact .stands stands
      · rw [on_round_failed waiting picks (fun rejection h => turns ⟨rejection, h⟩) hr]
        exact .stopped (ht ▸ cutOff_of_waiting course offers rejected o List.prefix_rfl)

/-- A round of a run that waits is stopped at the pick, or goes on with the pick. -/
theorem played_of_waiting (waits : s.run = r.waiting views)
    (hseen : s.seen = done ++ player.asking r views turnedDown) :
    Played player fresh ((round player.watched).on s) := by
  have waiting : s.run.status = .awaitingChoice := by rw [waits]; rfl
  have hpending : s.run.pending = views := by rw [waits]; rfl
  have hresources : s.run.resources = r.resources := by rw [waits]; rfl
  obtain ⟨fault, w, hpick, hw⟩ | ⟨o, w, hpick, hw⟩ :=
    pick_watched_cases player s.run.pending s.run.resources s.gateway.world
  · have hthere := seen_inWorld hseen hw
    rw [hpending, hresources] at hthere
    have cutOff := cutOff_of_waiting course offers rejected (Rehearsal.notOnOffer "")
      (List.prefix_append [Moment.presented views r.resources] _)
    rw [on_round_unpicked waiting hpick]
    exact .stopped (hthere ▸ cutOff)
  · have hthere := seen_inWorld hseen hw
    rw [hpending, hresources] at hthere
    exact played_of_pick course offers rejected waits hpick hthere

end Waiting

/-! ## Playing -/

/-- A round of a run that goes on. -/
theorem played_round {fresh : Run} (starts : fresh.status ≠ .awaitingChoice)
    (stands : Stands player fresh s.seen s.run) (going : s.run.isFinished = false) :
    Played player fresh ((round player.watched).on s) := by
  -- `Stands` speaks of what was seen and of the run, which its cases need as variables.
  generalize hseen : s.seen = seen at stands
  generalize hrun : s.run = r at stands
  cases stands with
  | between course =>
    rw [← hseen, ← hrun] at course
    cases hstatus : s.run.status with
    | running => exact played_of_running course hstatus
    | awaitingChoice => exact absurd hstatus (course.ne_waiting starts)
    | terminated =>
      rw [Run.isFinished, hstatus] at going
      cases going
  | waiting course offers rejected => exact played_of_waiting course offers rejected hrun hseen

/-- Any number of rounds. -/
theorem played_play {fresh : Run} (starts : fresh.status ≠ .awaitingChoice) (rounds : Nat)
    (stands : Stands player fresh s.seen s.run) :
    Played player fresh ((play player.watched rounds).on s) := by
  induction rounds generalizing s with
  | zero =>
    simp only [play, Act.on_bind, on_theRun, Act.on_pure]
    exact .stands stands
  | succ rounds ih =>
    cases going : s.run.isFinished with
    | true =>
      rw [on_play_of_finished player.watched going]
      exact .stands stands
    | false =>
      have played := played_round starts stands going
      simp only [play, Act.on_bind, on_theRun, going, Bool.false_eq_true, if_false]
      generalize (round player.watched).on s = came at played
      cases played with
      | stands h => exact ih h
      | stopped h => exact .stopped h

/-- What is seen of a run that is played, for however many rounds.

* Being watched makes no difference.
* As long as it is not stopped, one visit comes after the other; the last one may still wait
  for a pick.
* When the run has ended there have been whole visits only, the last text that was written is
  that of the record at the empty id, with the resources that are left, and nothing was seen
  after it; or nothing was seen at all, because the run started at the empty id.
* If it is stopped, the last visit is cut off.
* Once it has ended or was stopped, more rounds make no difference. -/
theorem play_is_course (player : Player σ ε) (gateway : Save.Gateway σ) (e : Episode)
    (node : Option String) (initial : Resources) (rounds : Nat) :
    let fresh := start player.toHost gateway e node initial
    let played := (play player rounds).on fresh
    let watched := (play player.watched rounds).on fresh.watched
    (watched.1 = played.1 ∧ watched.2.run = played.2.run ∧
      watched.2.gateway.world.world = played.2.gateway.world) ∧
    (∀ ended, played.1 = .ok ended → Stands player fresh.run watched.2.seen played.2.run) ∧
    (played.1 = .ok true → Course player fresh.run watched.2.seen played.2.run ∧
      (node.getD e.start = "" ∧ watched.2.seen = [] ∧ played.2.run.resources = initial ∨
        node.getD e.start ≠ "" ∧ ∃ text,
          watched.2.seen.getLast? = some (.written Save.autoKey text) ∧
            (Save.Record.mk e.id "" played.2.run.resources .whole).text = .ok text)) ∧
    (∀ fault, played.1 = .error fault → CutOff player fresh.run watched.2.seen) ∧
    (played.1 ≠ .ok false → ∀ more, (play player (rounds + more)).on fresh = played) := by
  intro fresh played watched
  have starts : fresh.run.status ≠ .awaitingChoice := Status.at_ne_awaitingChoice _
  have comes : Played player fresh.run watched :=
    played_play starts rounds (.between .start)
  obtain ⟨hanswer, hrun, hworld⟩ : watched.1 = played.1 ∧ watched.2.run = played.2.run ∧
      watched.2.gateway.world.world = played.2.gateway.world := play_watched player rounds fresh
  have stands : ∀ ended, played.1 = .ok ended →
      Stands player fresh.run watched.2.seen played.2.run := by
    intro ended h
    rw [← hrun]
    exact comes.stands_of_ok (hanswer.trans h)
  refine ⟨⟨hanswer, hrun, hworld⟩, stands, fun h => ?_,
    fun fault h => comes.cutOff_of_error (hanswer.trans h), fun h => on_play_more h⟩
  · have finished : played.2.run.status = .terminated :=
      of_decide_eq_true (isFinished_of_play (Act.eq_of_answer h))
    have course := (stands true h).course finished
    refine ⟨course, ?_⟩
    obtain ⟨hstart, hseen, hfresh⟩ | ⟨hstart, hends⟩ := course.ends finished
    · rw [hseen, hfresh]
      exact .inl ⟨Status.at_eq_terminated_iff.1 hstart, rfl, rfl⟩
    · exact .inr ⟨fun h => hstart (Status.at_eq_terminated_iff.2 h), hends⟩

/-- One wrong pick at the dock, then the fare; at the shore the story ends. -/
example :
    let player := Rehearsal.player ⟨[], [], [], true, some 9⟩ (Save.memoryStore (ε := Empty))
    let purse : Resources := Table.ofList [("coins", .number (.int 3))]
    let fresh := start player.toHost
      ⟨none, ⟨Table.empty, 0, 0, [], [.byId "swim", .byId "pay"], []⟩⟩ ferry none purse
    let came := (play player.watched 4).on fresh.watched
    let pay : ChoiceOption :=
      ⟨"pay", "Pay", "shore", some (Table.ofList [("coins", .int (-1))]), none, none⟩
    let views : List ChoiceView :=
      [⟨pay, true, ""⟩, ⟨⟨"stay", "Stay", "", none, none, none⟩, true, ""⟩]
    came.1 = .ok true ∧ came.2.seen = [
      .shown (.narration "Cross?"),
      .presented views purse, .picked (Rehearsal.notOnOffer "swim"),
      .presented views purse, .picked pay,
      .written "taleweave-save-0" ("\x7b\"episodeId\": \"ferry\", \"nodeId\": \"shore\", " ++
        "\"resources\": \x7b\"coins\": 2\x7d, \"version\": 1\x7d"),
      .paused,
      .shown (.narration "The End"), .shown (.episodeEnded none none),
      .written "taleweave-save-0" ("\x7b\"episodeId\": \"ferry\", \"nodeId\": \"\", " ++
        "\"resources\": \x7b\"coins\": 2\x7d, \"version\": 1\x7d")] := by
  decide +kernel

end Stage

end Storyline
