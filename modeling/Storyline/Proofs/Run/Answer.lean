import Storyline.Proofs.Run.Status

/-!
# Storyline.Proofs.Run.Answer

What a call settles on, worked out from the run alone.  The host has no part in it but to
decide a minigame, unless it stops the call.
-/

namespace Storyline

/-- What a beat settles on, if a minigame comes out as told. -/
def Beat.answer {ε : Type} (r : Run) (won : Bool) (beat : Beat) : Except (RunFault ε) Intent :=
  match beat.turn with
  | .go next => .ok (.move beat.resources r.pending beat.events next)
  | .offer options => do
    return .suspend beat.events (← options.mapM (ChoiceOption.view beat.resources))
  | .contest _ onWin onLose =>
    .ok (.move beat.resources r.pending beat.events (if won then onWin else onLose))

/-- What a call settles on, if a minigame comes out as told. -/
def Run.answer {ε : Type} (r : Run) (won : Bool) : Call → Except (RunFault ε) Intent
  | .step =>
    match r.status with
    | .terminated => .error .ended
    | .awaitingChoice => .error (.awaitingChoice r.current)
    | .running =>
      match r.episode.node? r.current with
      | none => .error (.missingNode r.current)
      | some node => node.beat r.current r.resources >>= Beat.answer r won
  | .choose option =>
    if r.status = .awaitingChoice then
      match r.offered? option with
      | none => .error (.rejected (.notOffered option r.current))
      | some picked => do
        if ← (r.resources.meets picked.requirement).mapError .clash then
          let resources ← (r.resources.gain picked.gain).mapError (RunFault.ofUpdate r.current)
          return .move resources [] [] picked.next
        else throw (.rejected (.unmet option))
    else .error .noChoice

namespace Stage

variable {σ ε : Type} {host : Host σ ε} {Q : ε → Prop}

theorem offer_answer (host : Host σ ε) (resources : Resources) (options : List ChoiceOption)
    (s : Stage σ) :
    ((offer host resources options).on s).1 =
      options.mapM (ChoiceOption.view (ε := ε) resources) := by
  induction options generalizing s with
  | nil => rfl
  | cons o rest ih =>
    obtain ⟨world, hw⟩ := on_noteConflict host resources o.requirement s
    simp only [offer, Act.on_bind, hw, Act.on_known, List.mapM_cons]
    cases (o.view resources : Except (RunFault ε) ChoiceView) with
    | error fault => rfl
    | ok view =>
      simp only [mapError_ok, ← ih (s.inWorld world)]
      cases (offer host resources rest).on (s.inWorld world) with
      | mk answer after => cases answer <;> rfl

/-- A quiet action that stops only for what its host stops for stops so, or goes on. -/
theorem hostFault_or_ok {α : Type} {act : Act (Stage σ) (RunFault ε) α}
    (quiet : Quiet (fun _ => ()) act)
    (stops : StopsOnly (fun fault => ∃ e, Q e ∧ fault = .host e) act) (s : Stage σ) :
    (∃ e world, Q e ∧ act.on s = (.error (.host e), s.inWorld world)) ∨
      ∃ a world, act.on s = (.ok a, s.inWorld world) := by
  obtain ⟨fault, world, h, -, -⟩ | ⟨a, world, h, -⟩ := quiet.cases s
  · obtain ⟨e, he, rfl⟩ := stops s fault (by rw [h])
    exact .inl ⟨e, world, he, h⟩
  · exact .inr ⟨a, world, h⟩

theorem resolveNode_answer (stops : StopsFor host Q) (node : Node) (s : Stage σ) :
    (∃ e, Q e ∧ ((resolveNode host node).on s).1 = .error (.host e)) ∨
      ∃ won, ((resolveNode host node).on s).1 =
        node.beat s.run.current s.run.resources >>= Beat.answer s.run won := by
  have stops' : StopsFor host fun e => ∃ e', Q e' ∧ (RunFault.host e : RunFault ε) = .host e' :=
    ⟨fun event world e h => ⟨e, stops.render event world e h, rfl⟩,
      fun decide hd game r world e h => ⟨e, stops.minigame decide hd game r world e h, rfl⟩⟩
  obtain ⟨world, hw⟩ := on_noteConflict host s.run.resources node.tested
    (s.inWorld (host.note (.dispatching s.run.current node.kindName) s.gateway.world))
  rw [inWorld_inWorld] at hw
  simp only [resolveNode, Act.on_bind, on_theRun, on_note, hw, Act.on_known]
  cases (node.beat s.run.current s.run.resources : Except (RunFault ε) Beat) with
  | error fault => exact .inr ⟨true, rfl⟩
  | ok beat =>
    change _ ∨ ∃ won, _ = beat.answer s.run won
    obtain ⟨e, after, he, hemit⟩ | ⟨_, after, hemit⟩ := hostFault_or_ok
      (quiet_emitAll (spares_nothing host) beat.events) (stopsOnly_emitAll stops' beat.events)
      (s.inWorld world)
    · exact .inl ⟨e, he, by simp only [mapError_ok, hemit]⟩
    · simp only [mapError_ok, hemit, inWorld_inWorld, Beat.answer]
      cases beat.turn with
      | go next => exact .inr ⟨true, rfl⟩
      | offer options =>
        refine .inr ⟨true, ?_⟩
        simp only [Act.on_bind, ← offer_answer host beat.resources options (s.inWorld after)]
        cases (offer host beat.resources options).on (s.inWorld after) with
        | mk answer later => cases answer <;> rfl
      | contest game onWin onLose =>
        simp only [Act.on_bind]
        obtain ⟨e, later, he, hc⟩ | ⟨won, later, hc⟩ := hostFault_or_ok
          (quiet_contest (spares_nothing host) game) (stopsOnly_contest stops' game)
          (s.inWorld after)
        · exact .inl ⟨e, he, by simp only [hc]⟩
        · exact .inr ⟨won, by simp only [hc]; rfl⟩

/-- What resolving a call comes to is the run's answer, unless the host stops it. -/
theorem resolve_answer (stops : StopsFor host Q) (c : Call) (s : Stage σ) :
    (∃ e, Q e ∧ ((resolve host c).on s).1 = .error (.host e)) ∨
      ∃ won, ((resolve host c).on s).1 = s.run.answer won c := by
  cases c with
  | step =>
    simp only [resolve, resolveStep, Run.answer, Act.on_bind, on_theRun]
    cases hs : s.run.status with
    | terminated => exact .inr ⟨true, rfl⟩
    | awaitingChoice => exact .inr ⟨true, rfl⟩
    | running =>
      cases hn : s.run.episode.node? s.run.current with
      | none => exact .inr ⟨true, rfl⟩
      | some node => exact resolveNode_answer stops node s
  | choose option =>
    refine .inr ⟨true, ?_⟩
    simp only [resolve, resolvePick, Run.answer, Act.on_bind, on_theRun]
    by_cases hs : s.run.status = .awaitingChoice
    · simp only [if_pos hs]
      cases s.run.offered? option with
      | none => rfl
      | some picked =>
        obtain ⟨world, hw⟩ := on_noteConflict host s.run.resources picked.requirement s
        simp only [Act.on_bind, hw, Act.on_known]
        cases s.run.resources.meets picked.requirement with
        | error clash => rfl
        | ok met =>
          cases met with
          | false => rfl
          | true =>
            simp only [mapError_ok, if_true, Act.on_bind, Act.on_known]
            cases s.run.resources.gain picked.gain with
            | error e => rfl
            | ok resources => rfl
    · simp only [if_neg hs]
      rfl

end Stage

end Storyline
