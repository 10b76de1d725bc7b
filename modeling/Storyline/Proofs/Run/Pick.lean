import Storyline.Episode.Document
import Storyline.Proofs.Rehearsal
import Storyline.Proofs.Run.Call
import Storyline.Run.Play

/-!
# Storyline.Proofs.Run.Pick

What a pick comes to.  The player picks an option, but only its id is handed on, and
the first option on offer of that id is the one that is taken.
-/

namespace Storyline

/-- What has to come of it when an option is taken with the resources as they are. -/
inductive Run.Taken {ε : Type} (r : Run) (o : ChoiceOption) : Except (RunFault ε) Unit → Run → Prop
  /-- Its gain stops the call, and nothing has happened. -/
  | stopped {fault : UpdateFault} (h : r.resources.gain o.gain = .error fault) :
    Taken r o (.error (.ofUpdate r.current fault)) r
  /-- The run has moved on with its gain to its node. -/
  | moved {resources : Resources} (h : r.resources.gain o.gain = .ok resources) :
    Taken r o (.ok ())
      { r with current := o.next, status := Status.at o.next, pending := [], resources }

theorem ofUpdate_injective {ε : Type} {node : String} {fault other : UpdateFault}
    (h : RunFault.ofUpdate (ε := ε) node fault = .ofUpdate node other) : fault = other := by
  cases fault <;> cases other <;> cases h <;> rfl

theorem Run.gain_of_moved {ε : Type} {r after : Run} {o : ChoiceOption}
    (h : r.Taken (ε := ε) o (.ok ()) after) :
    ∃ resources, r.resources.gain o.gain = .ok resources ∧
      after = { r with
        current := o.next, status := Status.at o.next, pending := [], resources } := by
  cases h with
  | moved h => exact ⟨_, h, rfl⟩

theorem Run.gain_of_stopped {ε : Type} {r after : Run} {o : ChoiceOption} {fault : RunFault ε}
    (h : r.Taken o (.error fault) after) :
    ∃ reason, r.resources.gain o.gain = .error reason ∧ fault = .ofUpdate r.current reason := by
  cases h with
  | stopped h => exact ⟨_, h, rfl⟩

/-- Where one option has been taken, so has another just if they gain the same and, if the
gain succeeds, lead to the same node. -/
theorem Run.taken_iff {ε : Type} {r after : Run} {o p : ChoiceOption}
    {answer : Except (RunFault ε) Unit} (h : r.Taken o answer after) :
    r.Taken p answer after ↔
      r.resources.gain o.gain = r.resources.gain p.gain ∧
        ∀ resources, r.resources.gain p.gain = .ok resources → o.next = p.next := by
  cases h with
  | stopped ho =>
    constructor
    · intro h
      obtain ⟨reason, hp, hfault⟩ := gain_of_stopped h
      rw [ho, hp, ofUpdate_injective hfault]
      exact ⟨rfl, nofun⟩
    · rintro ⟨h, -⟩
      rw [ho] at h
      exact .stopped h.symm
  | moved ho =>
    constructor
    · intro h
      obtain ⟨resources, hp, hrun⟩ := gain_of_moved h
      rw [Run.mk.injEq] at hrun
      obtain ⟨-, hnext, -, -, hresources⟩ := hrun
      rw [ho, hp, hresources]
      exact ⟨rfl, fun _ _ => hnext⟩
    · rintro ⟨h, hnext⟩
      rw [ho] at h
      rw [hnext _ h.symm]
      exact .moved h.symm

namespace Stage

variable {σ ε : Type} {host : Host σ ε} {player : Player σ ε} {s : Stage σ} {u : ChoiceView}

/-- A step that offers options makes the run wait for one of them, and they are on offer as the
resources have them. -/
theorem offer_of_step {before : Stage σ} {result : StepResult} {v : ChoiceView}
    (h : (step host).on before = (.ok result, s)) (hv : v ∈ result.choices) :
    s.run.status = .awaitingChoice ∧ s.run.pending = result.choices ∧
      ∀ u ∈ s.run.pending, u.option.view (ε := ε) s.run.resources = .ok u := by
  have outcome := outcome_call (spares_nothing host) .step before
  rw [call, h] at outcome
  cases outcome with
  | suspended intends spared =>
    cases intends with
    | suspend running found offer => exact ⟨rfl, rfl, offer.2⟩
  | moved intends spared encoded written => cases hv

theorem view_meets {resources : Resources} {o : ChoiceOption} {v : ChoiceView}
    (h : o.view (ε := ε) resources = .ok v) : resources.meets o.requirement = .ok v.selectable := by
  simp only [ChoiceOption.view, bind, Except.bind] at h
  cases hm : resources.meets o.requirement with
  | error clash => simp only [hm] at h; contradiction
  | ok met =>
    rw [hm] at h
    cases hc : costNote o.gain o.remark with
    | error fault => simp only [hc] at h; contradiction
    | ok cost => rw [hc] at h; cases h; rfl

section Waiting

variable (waiting : s.run.status = .awaitingChoice) {option : String} {picked : ChoiceOption}
  (offered : s.run.offered? option = some picked)

include waiting offered

theorem on_choose_unmet (host : Host σ ε)
    (unmet : s.run.resources.meets picked.requirement = .ok false) :
    ∃ world, (choose host option).on s = (.error (.rejected (.unmet option)), s.inWorld world) := by
  obtain ⟨world, hw⟩ := on_noteConflict host s.run.resources picked.requirement s
  refine ⟨world, ?_⟩
  rw [choose_eq, resolvePick, Act.on_bind, Act.on_bind, on_theRun]
  simp only [waiting, offered, if_true, Act.on_bind, hw, Act.on_known, unmet, mapError_ok,
    Bool.false_eq_true, if_false, Act.on_throw]

theorem on_choose_met (host : Host σ ε)
    (met : s.run.resources.meets picked.requirement = .ok true) :
    ∃ world, (choose host option).on s =
      match s.run.resources.gain picked.gain with
      | .error fault => (.error (.ofUpdate s.run.current fault), s.inWorld world)
      | .ok resources =>
        (advance host s.run.current picked.next []).on
          ((s.inWorld world).settle resources []) := by
  obtain ⟨world, hw⟩ := on_noteConflict host s.run.resources picked.requirement s
  refine ⟨world, ?_⟩
  rw [choose_eq, resolvePick, Act.on_bind, Act.on_bind, on_theRun]
  simp only [waiting, offered, if_true, Act.on_bind, hw, Act.on_known, met, mapError_ok]
  cases s.run.resources.gain picked.gain with
  | error fault => rfl
  | ok resources => simp only [mapError_ok, Act.on_pure, on_commit_move, run_inWorld]

end Waiting

/-- Time between the nodes does not touch the run, and only the host can stop it. -/
theorem on_pauseIfRunning (player : Player σ ε) (s : Stage σ) :
    (((pauseIfRunning player).on s).2.run = s.run) ∧
      (((pauseIfRunning player).on s).1 = .ok () ∨
        ∃ fault, ((pauseIfRunning player).on s).1 = .error (.host fault)) := by
  rw [pauseIfRunning, Act.on_bind, on_theRun]
  simp only
  split
  · cases player.pause with
    | none => exact ⟨rfl, .inl rfl⟩
    | some pause =>
      simp only [on_ofHost]
      cases (pause.on s.gateway.world).1 with
      | ok u => exact ⟨rfl, .inl rfl⟩
      | error fault => exact ⟨rfl, .inr ⟨fault, rfl⟩⟩
  · exact ⟨rfl, .inl rfl⟩

/-- A round in which the player picks an option is a choice of its id, then time between the
nodes; a rejection is noted and the round is over. -/
theorem on_round_waiting {o : ChoiceOption} {world : σ} (waiting : s.run.status = .awaitingChoice)
    (picks : (player.pick s.run.pending s.run.resources).on s.gateway.world = (.ok o, world)) :
    (round player).on s =
      match (choose player.toHost o.id).on (s.inWorld world) with
      | (.ok _, after) => (pauseIfRunning player).on after
      | (.error (.rejected rejection), after) =>
        (note player.toHost (.choiceRejected s.run.current rejection.message)).on after
      | (.error fault, after) => (.error fault, after) := by
  rw [round, Act.on_bind, on_theRun]
  simp only [waiting, Act.on_bind, on_ofHost, picks, mapError_ok, tryChoose, Act.on_of]
  cases (choose player.toHost o.id).on (s.inWorld world) with
  | mk answer after =>
    cases answer with
    | ok result => rfl
    | error fault => cases fault <;> rfl

section Round

variable {v : ChoiceView} {world : σ} (waiting : s.run.status = .awaitingChoice)
  (fresh : ∀ u ∈ s.run.pending, u.option.view (ε := ε) s.run.resources = .ok u)
  (first : s.run.pending.find? (fun u => u.option.id = v.option.id) = some u)
  (picks : (player.pick s.run.pending s.run.resources).on s.gateway.world = (.ok v.option, world))

include waiting fresh first picks

/-- A pick whose id belongs, first of all, to an option that may not be picked is turned
down, and the run waits on. -/
theorem round_of_not_selectable (hu : u.selectable = false) :
    ((round player).on s).1 = .ok () ∧ ((round player).on s).2.run = s.run := by
  have offered : (s.inWorld world).run.offered? v.option.id = some u.option := by
    rw [run_inWorld, Run.offered?, first]
    rfl
  have unmet := view_meets (fresh u (List.mem_of_find?_eq_some first))
  rw [hu] at unmet
  obtain ⟨later, hc⟩ := on_choose_unmet (s := s.inWorld world) waiting offered player.toHost unmet
  rw [on_round_waiting waiting picks, hc]
  exact ⟨rfl, rfl⟩

/-- A pick whose id belongs, first of all, to an option that may be picked takes that option,
unless the save or the host stops the round. -/
theorem round_of_selectable (hu : u.selectable = true)
    (saved : ∀ fault, ((round player).on s).1 ≠ .error (.save fault))
    (hosted : ∀ fault, ((round player).on s).1 ≠ .error (.host fault)) :
    s.run.Taken u.option ((round player).on s).1 ((round player).on s).2.run := by
  have offered : (s.inWorld world).run.offered? v.option.id = some u.option := by
    rw [run_inWorld, Run.offered?, first]
    rfl
  have met := view_meets (fresh u (List.mem_of_find?_eq_some first))
  rw [hu] at met
  obtain ⟨later, hc⟩ := on_choose_met (s := s.inWorld world) waiting offered player.toHost met
  rw [on_round_waiting waiting picks, hc] at saved hosted ⊢
  simp only [run_inWorld, inWorld_inWorld] at saved hosted ⊢
  cases hg : s.run.resources.gain u.option.gain with
  | error fault =>
    cases fault <;> exact .stopped hg
  | ok resources =>
    rw [hg] at saved hosted
    simp only at saved hosted ⊢
    obtain ⟨fault, lost, ha⟩ | ⟨kept, ha⟩ :=
      advance_cases player.toHost s.run.current u.option.next []
        ((s.inWorld later).settle resources [])
    · rw [ha] at saved
      exact absurd rfl (saved fault)
    · rw [ha] at hosted ⊢
      simp only at hosted ⊢
      obtain ⟨hrun, hok | ⟨fault, hf⟩⟩ := on_pauseIfRunning player
        (movedOn player.toHost s.run.current u.option.next ((s.inWorld later).settle resources [])
          kept)
      · rw [hok, hrun]
        exact .moved hg
      · exact absurd hf (hosted fault)

end Round

/-- The player picks one of the options that have just been offered.  If neither the save nor
the host stops the round, that option is taken just if the first option on offer of its id
may be picked, gains the same and leads to the same node.  So an option that may be picked
is taken where no option before it has its id. -/
theorem picked_option_taken_iff {before : Stage σ} {result : StepResult} {v : ChoiceView}
    {world : σ} (offered : (step player.toHost).on before = (.ok result, s))
    (hv : v ∈ result.choices)
    (picks : (player.pick s.run.pending s.run.resources).on s.gateway.world = (.ok v.option, world))
    (saved : ∀ fault, ((round player).on s).1 ≠ .error (.save fault))
    (hosted : ∀ fault, ((round player).on s).1 ≠ .error (.host fault)) :
    s.run.Taken v.option ((round player).on s).1 ((round player).on s).2.run ↔
      ∃ u, result.choices.find? (fun u => u.option.id = v.option.id) = some u ∧
        u.selectable = true ∧
        s.run.resources.gain u.option.gain = s.run.resources.gain v.option.gain ∧
        ∀ resources, s.run.resources.gain v.option.gain = .ok resources →
          u.option.next = v.option.next := by
  obtain ⟨waiting, hpending, fresh⟩ := offer_of_step offered hv
  rw [← hpending] at hv ⊢
  obtain ⟨u, first⟩ : ∃ u, s.run.pending.find? (fun u => u.option.id = v.option.id) = some u :=
    Option.isSome_iff_exists.1 (List.find?_isSome.2 ⟨v, hv, by simp⟩)
  cases hu : u.selectable with
  | true =>
    have taken := round_of_selectable waiting fresh first picks hu saved hosted
    rw [Run.taken_iff taken]
    constructor
    · intro h
      exact ⟨u, first, hu, h⟩
    · rintro ⟨_, hfirst, -, h⟩
      rw [first] at hfirst
      cases hfirst
      exact h
  | false =>
    obtain ⟨hanswer, hrun⟩ := round_of_not_selectable waiting fresh first picks hu
    rw [hanswer, hrun]
    constructor
    · -- The option picked is still on offer, so nothing has been taken.
      intro h
      obtain ⟨resources, -, hnone⟩ := Run.gain_of_moved h
      rw [hnone] at hv
      cases hv
    · rintro ⟨_, hfirst, hselectable, -⟩
      rw [first] at hfirst
      cases hfirst
      rw [hu] at hselectable
      cases hselectable

/-- A gate that takes a rune to open. -/
def gate : Episode where
  id := "gate"
  title := "Gate"
  start := "gate"
  nodes := Table.ofList [("gate", .choice "A gate." [
    ⟨"leave", "Leave", "road", none, none, none⟩,
    ⟨"open", "Open it", "garden", some (Table.ofList [("runes", .int (-1))]), none, none⟩])]

/-- The gate opens for the player who picks to open it. -/
theorem gate_opens :
    let player := Rehearsal.inMemory [] []
    let s := ((step player.toHost).on
      (Rehearsal.opening gate (Table.ofList [("runes", .number (.int 3))]) [] [.byPlace 1])).2
    ∃ v ∈ s.run.pending, v.option.id = "open" ∧
      s.run.Taken v.option ((round player).on s).1 ((round player).on s).2.run := by
  intro player s
  let opened : ChoiceView := ⟨⟨"open", "Open it", "garden",
    some (Table.ofList [("runes", .int (-1))]), none, none⟩, true, " (1 runes)"⟩
  let left : ChoiceView := ⟨⟨"leave", "Leave", "road", none, none, none⟩, true, ""⟩
  have offered : ((step player.toHost).on (Rehearsal.opening gate
      (Table.ofList [("runes", .number (.int 3))]) [] [.byPlace 1])).1 =
      .ok ⟨"gate", .awaitingChoice, none, [.narration "A gate."], [left, opened]⟩ := by
    decide +kernel
  have hpending : s.run.pending = [left, opened] := by decide +kernel
  have picks : ((player.pick s.run.pending s.run.resources).on s.gateway.world).1 =
      .ok opened.option := by decide +kernel
  have done : ((round player).on s).1 = .ok () := by decide +kernel
  have hoffered : (step player.toHost).on (Rehearsal.opening gate
      (Table.ofList [("runes", .number (.int 3))]) [] [.byPlace 1]) =
      (.ok ⟨"gate", .awaitingChoice, none, [.narration "A gate."], [left, opened]⟩, s) :=
    Act.eq_of_answer offered
  have hpicks := Act.eq_of_answer picks
  have saved : ∀ fault, ((round player).on s).1 ≠ .error (.save fault) := by
    intro fault h
    rw [done] at h
    cases h
  have hosted : ∀ fault, ((round player).on s).1 ≠ .error (.host fault) := by
    intro fault h
    rw [done] at h
    cases h
  have first : [left, opened].find? (fun u => u.option.id = opened.option.id) = some opened := by
    decide +kernel
  have hmem : opened ∈ [left, opened] := List.mem_cons_of_mem _ List.mem_cons_self
  have hiff := picked_option_taken_iff hoffered hmem hpicks saved hosted
  have htaken := hiff.2 ⟨opened, first, rfl, rfl, fun _ _ => rfl⟩
  exact ⟨opened, by rw [hpending]; exact hmem, rfl, htaken⟩

/-- The document of a fork in the road.  The path on the right has no id of its own, and the
one on the left has that which the other gets. -/
def forkDocument : Json := .object [
  ("episodeId", .string "fork"),
  ("start", .string "fork"),
  ("nodes", .object [("fork", .object [
    ("type", .string "choice"),
    ("options", .array [
      .object [("id", .string "1"), ("label", .string "Left"), ("next", .string "left")],
      .object [("label", .string "Right"), ("next", .string "right")]])])])]

/-- The fork as it is read. -/
def fork : Episode where
  id := "fork"
  title := "fork"
  start := "fork"
  nodes := Table.ofList [("fork", .choice "" [
    ⟨"1", "Left", "left", none, none, none⟩, ⟨"1", "Right", "right", none, none, none⟩])]

/-- The player who picks the path on the right goes left. -/
theorem right_leads_left :
    let player := Rehearsal.inMemory [] []
    let s := ((step player.toHost).on (Rehearsal.opening fork Table.empty [] [.byPlace 1])).2
    Episode.ofJson none forkDocument = .ok fork ∧
      s.run.pending.map (fun v => (v.selectable, v.option.next)) =
        [(true, "left"), (true, "right")] ∧
      (((player.pick s.run.pending s.run.resources).on s.gateway.world).1.map fun o => o.next) =
        .ok "right" ∧
      ((round player).on s).1 = .ok () ∧ ((round player).on s).2.run.current = "left" := by
  decide +kernel

end Stage

end Storyline
