import Storyline.Proofs.Run.Mirror
import Storyline.Proofs.Run.Visit

/-!
# Storyline.Proofs.Run.Rounds

Playing is making calls.  Whatever a player does besides, picking options and pausing, leaves
the run alone; so what calls keep is kept by playing, and what stops it is either the player
or a call on a stage that it has led to.
-/

namespace Storyline

/-- A part of the world that only the store touches: the player leaves it as it is as well. -/
structure Player.Spares {σ ε κ : Type} (player : Player σ ε) (kept : σ → κ) : Prop
    extends Stage.Spares player.toHost kept where
  pick : ∀ views resources world, kept ((player.pick views resources).on world).2 = kept world
  pause : ∀ pause, player.pause = some pause → ∀ world, kept (pause.on world).2 = kept world

theorem Player.spares_nothing {σ ε : Type} (player : Player σ ε) : player.Spares fun _ => () :=
  ⟨Stage.spares_nothing player.toHost, fun _ _ _ => rfl, fun _ _ _ => rfl⟩

namespace Stage

variable {σ ε κ : Type} {player : Player σ ε} {kept : σ → κ} {s t u : Stage σ}

/-- The stages that playing may lead through.  Calls are made, and a pick that is turned down
does not end it; in between the world may change, but for what is kept of it. -/
inductive Plays (player : Player σ ε) (kept : σ → κ) (s : Stage σ) : Stage σ → Prop
  | start : Plays player kept s s
  | world {t : Stage σ} {world : σ} (plays : Plays player kept s t)
    (spared : kept world = kept t.gateway.world) : Plays player kept s (t.inWorld world)
  | call {t after : Stage σ} {c : Call} {answer : Except (RunFault ε) StepResult}
    (plays : Plays player kept s t) (made : (call player.toHost c).on t = (answer, after))
    (onward : ∀ fault, answer = .error fault → ∃ rejection, fault = .rejected rejection) :
    Plays player kept s after

/-- What playing comes to. -/
inductive PlaysOut {α : Type} (player : Player σ ε) (kept : σ → κ) (s : Stage σ) :
    Except (RunFault ε) α × Stage σ → Prop
  | through {a : α} {t : Stage σ} (plays : Plays player kept s t) :
    PlaysOut player kept s (.ok a, t)
  /-- The player stops it. -/
  | left {e : ε} {t : Stage σ} (plays : Plays player kept s t) :
    PlaysOut player kept s (.error (.host e), t)
  /-- A call stops it, on a run that has not ended. -/
  | stopped {c : Call} {fault : RunFault ε} {t after : Stage σ} (plays : Plays player kept s t)
    (going : t.run.status ≠ .terminated)
    (made : (call player.toHost c).on t = (.error fault, after)) :
    PlaysOut player kept s (.error fault, after)

theorem Plays.trans (first : Plays player kept s t) (second : Plays player kept t u) :
    Plays player kept s u := by
  induction second with
  | start => exact first
  | world plays spared ih => exact .world ih spared
  | call plays made onward ih => exact .call ih made onward

theorem PlaysOut.after {α : Type} {came : Except (RunFault ε) α × Stage σ}
    (plays : Plays player kept s t) (out : PlaysOut player kept t came) :
    PlaysOut player kept s came := by
  cases out with
  | through later => exact .through (plays.trans later)
  | left later => exact .left (plays.trans later)
  | stopped later going made => exact .stopped (plays.trans later) going made

/-- What is true of a stage and kept by changes of the world and by calls that do not end the
playing is true of every stage it leads to. -/
theorem Plays.induction {P : Stage σ → Prop} (plays : Plays player kept s t)
    (worlds : ∀ t world, kept world = kept t.gateway.world → P t → P (t.inWorld world))
    (calls : ∀ t c, (∀ fault, ((Stage.call player.toHost c).on t).1 = .error fault →
      fault.ofSave = false) → P t → P ((Stage.call player.toHost c).on t).2)
    (start : P s) : P t := by
  induction plays with
  | start => exact start
  | world plays spared ih => exact worlds _ _ spared ih
  | @call t after c answer plays made onward ih =>
    have h := calls t c (fun fault hf => ?_) ih
    · rw [made] at h
      exact h
    · rw [made] at hf
      obtain ⟨rejection, rfl⟩ := onward fault hf
      rfl

section Rounds

variable (spares : player.Spares kept)

include spares

theorem playsOut_pauseIfRunning (plays : Plays player kept s t) :
    PlaysOut player kept s ((pauseIfRunning player).on t) := by
  simp only [pauseIfRunning, Act.on_bind, on_theRun]
  split
  · cases hp : player.pause with
    | none => exact .through plays
    | some pause =>
      have later := plays.world (spares.pause pause hp t.gateway.world)
      simp only [on_ofHost]
      cases (pause.on t.gateway.world).1 with
      | ok _ => exact .through later
      | error e => exact .left later
  · exact .through plays

/-- A call that does not end the playing, and then a pause. -/
theorem playsOut_call {c : Call} {result : StepResult} {after : Stage σ}
    (plays : Plays player kept s t) (made : (call player.toHost c).on t = (.ok result, after)) :
    PlaysOut player kept s ((pauseIfRunning player).on after) :=
  playsOut_pauseIfRunning spares (.call plays made nofun)

theorem playsOut_round (s : Stage σ) : PlaysOut player kept s ((round player).on s) := by
  cases status : s.run.status with
  | terminated =>
    simp only [round, Act.on_bind, on_theRun, status]
    exact .through .start
  | running =>
    simp only [round, Act.on_bind, on_theRun, status]
    cases made : (step player.toHost).on s with
    | mk answer after =>
      cases answer with
      | ok result => exact playsOut_call spares (c := .step) .start made
      | error fault => exact .stopped (c := .step) .start (by rw [status]; decide) made
  | awaitingChoice =>
    have picking := spares.pick s.run.pending s.run.resources s.gateway.world
    cases picks : (player.pick s.run.pending s.run.resources).on s.gateway.world with
    | mk picked world =>
      rw [picks] at picking
      have plays : Plays player kept s (s.inWorld world) := .world .start picking
      have going : (s.inWorld world).run.status ≠ .terminated := by
        rw [run_inWorld, status]
        decide
      cases picked with
      | error e =>
        rw [on_round_unpicked status picks]
        exact .left plays
      | ok o =>
        rw [on_round_waiting status picks]
        cases made : (choose player.toHost o.id).on (s.inWorld world) with
        | mk answer after =>
          cases answer with
          | ok result => exact playsOut_call spares (c := .choose o.id) plays made
          | error fault =>
            cases fault with
            | rejected rejection =>
              have later : Plays player kept s after := .call (c := .choose o.id) plays made
                fun _ h => ⟨rejection, by cases h; rfl⟩
              exact .through (later.world (spares.note _ _))
            | _ => exact .stopped (c := .choose o.id) plays going made

theorem playsOut_play (rounds : Nat) (s : Stage σ) :
    PlaysOut player kept s ((play player rounds).on s) := by
  induction rounds generalizing s with
  | zero =>
    simp only [play, Act.on_bind, on_theRun, Act.on_pure]
    exact .through .start
  | succ rounds ih =>
    cases going : s.run.isFinished with
    | true =>
      rw [on_play_of_finished player going]
      exact .through .start
    | false =>
      have out := playsOut_round spares s
      simp only [play, Act.on_bind, on_theRun, going, Bool.false_eq_true, if_false]
      generalize (round player).on s = came at out
      cases out with
      | through plays => exact (ih _).after plays
      | left plays => exact .left plays
      | stopped plays going made => exact .stopped plays going made

end Rounds

/-! ## What playing keeps -/

section Kept

variable {P : σ → Prop} {host : Host σ ε}

/-- A call keeps what is true of the world if the host spares it and saving keeps it. -/
theorem kept_call (spares : Spares host P)
    (writes : ∀ text world, P world → P ((host.write Save.autoKey text).on world).2) (c : Call)
    (h : P s.gateway.world) : P ((call host c).on s).2.gateway.world := by
  obtain ⟨world, spared, ⟨fault, -, -, made⟩ | ⟨intent, -, -, made⟩⟩ := call_cases spares c s
  · rw [made]
    exact spared.symm ▸ h
  · have hworld : P world := spared.symm ▸ h
    rw [made]
    cases intent with
    | suspend events views =>
      rw [on_commit_suspend]
      exact hworld
    | move resources pending events next =>
      rw [on_commit_move, on_advance]
      cases (((s.inWorld world).settle resources pending).run.recordAt next).text with
      | error fault => exact hworld
      | ok text =>
        have hwritten := writes text world hworld
        simp only [gateway_settle, world_inWorld]
        cases hw : (host.write Save.autoKey text).on world with
        | mk answer after =>
          rw [hw] at hwritten
          cases answer with
          | error fault => exact hwritten
          | ok _ =>
            show P (if next = "" then host.note _ (host.note _ after) else host.note _ after)
            split
            · rw [spares.note, spares.note]
              exact hwritten
            · rw [spares.note]
              exact hwritten

variable (spares : player.Spares P)
  (writes : ∀ text world, P world → P ((player.write Save.autoKey text).on world).2)

include spares writes

theorem kept_of_plays (plays : Plays player P s t) (h : P s.gateway.world) :
    P t.gateway.world :=
  plays.induction (P := fun t => P t.gateway.world) (fun _ _ spared hworld => spared.symm ▸ hworld)
    (fun _ c _ hworld => kept_call spares.toSpares writes c hworld) h

/-- However playing comes out. -/
theorem kept_of_playsOut {α : Type} {came : Except (RunFault ε) α × Stage σ}
    (out : PlaysOut player P s came) (h : P s.gateway.world) : P came.2.gateway.world := by
  cases out with
  | through plays => exact kept_of_plays spares writes plays h
  | left plays => exact kept_of_plays spares writes plays h
  | @stopped c fault t after plays going made =>
    have hcall := kept_call spares.toSpares writes c (kept_of_plays spares writes plays h)
    rw [made] at hcall
    exact hcall

end Kept

/-! ## What is saved while playing -/

/-- A call that stops, but at no save, leaves the run as it is. -/
theorem run_of_stopped {host : Host σ ε} {c : Call} {fault : RunFault ε} {after : Stage σ}
    (made : (call host c).on s = (.error fault, after)) (other : fault.ofSave = false) :
    after.run = s.run := by
  have h := outcome_call (spares_nothing host) c s
  rw [made] at h
  cases h with
  | stopped reason spared => rfl
  | unsaved intends => cases other

/-- A run that is mirrored and has not ended stands at a node. -/
theorem Mirrored.current_ne_empty {held : σ → Option String} {e : Episode}
    (mirrored : Mirrored ε held s) (orderly : s.run.Orderly e)
    (going : s.run.status ≠ .terminated) : s.run.current ≠ "" := by
  by_cases waiting : s.run.status = .awaitingChoice
  · exact Status.at_eq_running_iff.1 (mirrored.waiting waiting).1
  · intro hc
    exact going ((orderly.status waiting).trans (Status.at_eq_terminated_iff.2 hc))

/-- How a stage goes on from one on which nothing is saved yet: nothing is saved still, and what
was held is, or the run is mirrored. -/
structure Follows (ε : Type) (held : σ → Option String) (e : Episode) (s t : Stage σ) : Prop where
  orderly : t.run.Orderly e
  saved : t.gateway.last = none ∧ held t.gateway.world = held s.gateway.world ∨ Mirrored ε held t

section Follows

variable {held : σ → Option String} {e : Episode} {host : Host σ ε}

theorem Follows.inWorld (follows : Follows ε held e s t) {world : σ}
    (spared : held world = held t.gateway.world) : Follows ε held e s (t.inWorld world) := by
  refine ⟨follows.orderly, ?_⟩
  obtain ⟨hlast, hheld⟩ | mirrored := follows.saved
  · exact .inl ⟨hlast, spared.trans hheld⟩
  · obtain ⟨text, encoded, hheld⟩ := mirrored.text
    exact .inr ⟨⟨⟨text, encoded, spared.trans hheld⟩, mirrored.waiting⟩, mirrored.last⟩

theorem follows_call (keeps : host.toStore.Keeps Save.autoKey held) (spares : Spares host held)
    (follows : Follows ε held e s t) {c : Call}
    (unfailing : ∀ fault, ((call host c).on t).1 = .error fault → fault.ofSave = false) :
    Follows ε held e s ((call host c).on t).2 := by
  refine ⟨orderly_call follows.orderly host c, ?_⟩
  obtain ⟨hlast, hheld⟩ | mirrored := follows.saved
  · have h := outcome_call spares c t
    have completes : ∀ result : StepResult, ((call host c).on t).1 = .ok result →
        result.next.isSome = true → Mirrored ε held ((call host c).on t).2 :=
      fun _ => mirrored_of_completed keeps spares
    generalize (call host c).on t = came at h completes unfailing ⊢
    cases h with
    | stopped reason spared => exact .inl ⟨hlast, spared.trans hheld⟩
    | suspended intends spared => exact .inl ⟨hlast, spared.trans hheld⟩
    | unsaved intends => cases unfailing _ rfl
    | moved intends spared encoded written => exact .inr (completes _ rfl rfl)
  · exact .inr (mirrored_call keeps spares follows.orderly mirrored unfailing)

variable (keeps : player.toStore.Keeps Save.autoKey held) (spares : player.Spares held)
  (orderly : s.run.Orderly e) (fresh : s.gateway.last = none)

include keeps spares orderly fresh

theorem follows_of_plays (plays : Plays player held s t) : Follows ε held e s t :=
  plays.induction (fun _ _ spared follows => follows.inWorld spared)
    (fun _ _ unfailing follows => follows_call keeps spares.toSpares follows unfailing)
    ⟨orderly, .inl ⟨fresh, rfl⟩⟩

/-- However playing comes out, unless a save stops it. -/
theorem follows_of_playsOut {α : Type} {came : Except (RunFault ε) α × Stage σ}
    (out : PlaysOut player held s came)
    (unfailing : ∀ fault, came.1 = .error fault → fault.ofSave = false) :
    Follows ε held e s came.2 := by
  cases out with
  | through plays => exact follows_of_plays keeps spares orderly fresh plays
  | left plays => exact follows_of_plays keeps spares orderly fresh plays
  | stopped plays going made =>
    have follows := follows_call keeps spares.toSpares
      (follows_of_plays keeps spares orderly fresh plays) fun fault h => by
        rw [made] at h
        cases h
        exact unfailing _ rfl
    rw [made] at follows
    exact follows

end Follows

end Stage

end Storyline
