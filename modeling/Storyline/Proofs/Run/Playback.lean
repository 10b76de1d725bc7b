import Storyline.Proofs.Rehearsal
import Storyline.Proofs.Run.Trace
import Storyline.Proofs.Run.Watch

/-!
# Storyline.Proofs.Run.Playback

Showing an event may fail, and a run does not heed it.  A *failing* player does what the
player beneath it does, but some of the events it shows are reported as not shown: which of
them, and why, is said by a plan that goes by how many events came before.

Whatever the plan, the calls on a run answer the same, make the same reach the host in the same
order and leave the same run, and so does playing it through.  All that is asked of the player
is that a note of such a failure makes no difference to it.
-/

namespace Storyline

/-- A world together with how many events have been shown in it. -/
structure Counted (σ : Type) where
  world : σ
  shown : Nat

namespace Player

variable {σ τ ε κ α : Type}

/-- An action of a player, who does not count. -/
def counted (act : Act σ ε α) : Act (Counted σ) ε α :=
  act.within Counted.world (fun w world => { w with world }) id

/-- A player for whom showing an event fails according to a plan: it says why the event that
comes after so many others is not shown. -/
def failing (player : Player σ ε) (plan : Nat → Option String) : Player (Counted σ) ε where
  read key := counted (player.read key)
  write key text := counted (player.write key text)
  note n w := { w with world := player.note n w.world }
  render event := do
    let index ← Act.look Counted.shown
    Act.change fun w => { w with shown := w.shown + 1 }
    let shown ← counted (player.render event)
    return (plan index).or shown
  minigame := player.minigame.map fun decide game resources => counted (decide game resources)
  pick views resources := counted (player.pick views resources)
  pause := player.pause.map counted

theorem on_counted (act : Act σ ε α) (w : Counted σ) :
    (counted act).on w = ((act.on w.world).1, { w with world := (act.on w.world).2 }) := by
  rw [counted, Act.on_within]
  cases act.on w.world with
  | mk answer after => cases answer <;> rfl

/-- The answer to an event is that of the player beneath, unless the plan has another. -/
theorem on_render_failing (player : Player σ ε) (plan : Nat → Option String) (event : Event)
    (w : Counted σ) :
    ((player.failing plan).render event).on w =
      (((player.render event).on w.world).1.map (plan w.shown).or,
        ⟨((player.render event).on w.world).2, w.shown + 1⟩) := by
  simp only [failing, Act.on_bind, Act.on_look, Act.on_change, on_counted]
  cases (player.render event).on w.world with
  | mk answer after => cases answer <;> rfl

/-- The parts of two worlds that a player goes by are the same, if one of the worlds counts. -/
def SameKept (kept : σ → κ) (world : σ) (w : Counted σ) : Prop := kept world = kept w.world

section Failing

variable {player : Player σ ε} {kept : σ → κ}

theorem tracks_counted {act : Act σ ε α}
    (h : Act.Tracks (fun w v => kept w = kept v) Eq act act) :
    Act.Tracks (SameKept kept) Eq act (counted act) := by
  intro world w hw
  rw [on_counted]
  exact h world w.world hw

variable (steady : player.Alike Eq (fun w v => kept w = kept v) player)
  (heedless : ∀ kind reason world, kept (player.note (.notPlayed kind reason) world) = kept world)
  (plan : Nat → Option String)

include heedless in
theorem kept_afterShowing (event : Event) (shown : Option String) (world : σ) :
    kept (player.toHost.afterShowing event shown world) = kept world := by
  cases shown with
  | none => rfl
  | some reason => exact heedless _ _ _

include steady heedless in
/-- A failing player answers like the player beneath it, but for what comes of showing
events. -/
theorem alikeUpTo_failing :
    player.AlikeUpTo Eq (SameKept kept) (fun _ _ => True) Eq (player.failing plan) where
  render event world w hw := by
    obtain ⟨hanswer, hkept⟩ := steady.render event world w.world hw
    rw [on_render_failing, ← Agree.eq_iff.1 hanswer]
    refine ⟨?_, hkept⟩
    cases ((player.render event).on world).1 with
    | ok shown => exact .ok trivial
    | error fault => exact .error fault
  shown event shown shown' _ world w hw := by
    have hfailing : (player.failing plan).toHost.afterShowing event shown' w =
        { w with world := player.toHost.afterShowing event shown' w.world } := by
      cases shown' <;> rfl
    rw [hfailing, SameKept, kept_afterShowing heedless, kept_afterShowing heedless]
    exact hw
  minigame := by
    have h := steady.minigame
    rw [failing]
    cases hd : player.minigame with
    | none => exact .none
    | some decide =>
      rw [hd] at h
      cases h with
      | some h =>
        apply Option.Rel.some
        intro game r s like
        subst like
        exact tracks_counted (h game r r rfl)
  write key text text' h := by
    subst h
    exact tracks_counted (steady.write key text)
  note n world w hw := steady.note n world w.world hw
  pick views r s like := by
    subst like
    exact tracks_counted (steady.pick views r r rfl)
  pause := by
    have h := steady.pause
    rw [failing]
    cases hp : player.pause with
    | none => exact .none
    | some pause =>
      rw [hp] at h
      cases h with
      | some h => exact .some (tracks_counted h)

end Failing

end Player

namespace Stage

variable {σ τ ε κ : Type}

/-- Players who answer alike but for what comes of showing events get the same from the same
calls, and the same reaches them. -/
theorem calls_alike_but_shown {rel : σ → τ → Prop} {S : Option String → Option String → Prop}
    {host : Host σ ε} {other : Host τ ε} (alike : AlikeUpTo Eq rel S Eq host other)
    (made : List Call) {s : Stage σ} {t : Stage τ} (h : s.Like Eq rel t) :
    (calls host made s).1 = (calls other made t).1 ∧ trace host made s = trace other made t ∧
      (calls host made s).2.run = (calls other made t).2.run := by
  have saved := savedAlong_of_likeness Resources.likeness_eq
  obtain ⟨hanswers, hlike⟩ :=
    calls_alike_upTo Resources.likeness_eq.tallying saved alike made h
  have htrace := trace_alike_upTo Resources.likeness_eq.tallying saved alike made h
  exact ⟨hanswers, Trace.eq_of_along htrace, hlike.run.eq⟩

/-- The stage of a failing player, before it shows anything. -/
def counted (s : Stage σ) : Stage (Counted σ) where
  run := s.run
  gateway := ⟨s.gateway.last, s.gateway.world, 0⟩

/-- Failures to show events never change what a run does.  Whichever of the events fail, and
for whatever reasons: calls made one after the other answer the same, make the same reach the
host in the same order, and leave the same run.  Playing the run through comes to the same,
lets the same be seen in the same order, and leaves the same run. -/
theorem playback_failures_change_nothing {player : Player σ ε} {kept : σ → κ}
    (steady : player.Alike Eq (fun w v => kept w = kept v) player)
    (heedless : ∀ kind reason world,
      kept (player.note (.notPlayed kind reason) world) = kept world)
    (plan : Nat → Option String) (s : Stage σ) :
    (∀ made : List Call,
      (calls (player.failing plan).toHost made s.counted).1 = (calls player.toHost made s).1 ∧
        trace (player.failing plan).toHost made s.counted = trace player.toHost made s ∧
        (calls (player.failing plan).toHost made s.counted).2.run =
          (calls player.toHost made s).2.run) ∧
      ∀ rounds : Nat,
        ((play (player.failing plan) rounds).on s.counted).1 = ((play player rounds).on s).1 ∧
          ((play (player.failing plan).watched rounds).on s.counted.watched).2.seen =
            ((play player.watched rounds).on s.watched).2.seen ∧
          ((play (player.failing plan) rounds).on s.counted).2.run =
            ((play player rounds).on s).2.run := by
  have alike := Player.alikeUpTo_failing steady heedless plan
  have start : s.Like Eq (Player.SameKept kept) s.counted := ⟨⟨rfl, rfl, rfl, rfl, rfl⟩, rfl⟩
  constructor
  · intro made
    obtain ⟨hanswers, htrace, hrun⟩ := calls_alike_but_shown alike.toAlikeUpTo made start
    exact ⟨hanswers.symm, htrace.symm, hrun.symm⟩
  · intro rounds
    obtain ⟨hanswer, hseen, hlike⟩ := play_alike alike rounds start
    exact ⟨hanswer.symm, hseen.symm, hlike.run.eq.symm⟩

/-- A toll at a bridge, with a bell. -/
def bridge : Episode := ⟨"bridge", "The bridge", "bell", Table.ofList [
  ("bell", .sound "bell" "gate"),
  ("gate", .choice "The toll is a coin." [
    ⟨"pay", "Pay", "over", some (Table.ofList [("coins", .int (-1))]), none, none⟩]),
  ("over", .ending (some "Coins left: {coins}") (some true))]⟩

/-- The bridge is crossed though neither the bell nor the last line can be played. -/
theorem bridge_crossed_in_silence :
    let player := Rehearsal.inMemory [] []
    let plan := fun index => if index = 1 then none else some "no device"
    let s := Rehearsal.opening bridge (Table.ofList [("coins", .number (.int 3))]) []
      [.byPlace 0]
    let made := [.step, .step, .choose "pay", .step]
    (((player.failing plan).render (.soundPlayed "bell")).on s.counted.gateway.world).1 =
        .ok (some "no device") ∧
      trace (player.failing plan).toHost made s.counted = trace player.toHost made s ∧
      (trace (player.failing plan).toHost made s.counted).filter (fun step =>
          match step with
          | .shown _ => true
          | _ => false) =
        [.shown (.soundPlayed "bell"), .shown (.narration "The toll is a coin."),
          .shown (.narration "Coins left: 2"), .shown (.narration "The End"),
          .shown (.episodeEnded (some "Coins left: 2") (some true))] ∧
      ((play (player.failing plan) 4).on s.counted).1 = .ok true := by
  intro player plan s made
  have steady : player.Alike Eq (fun world other => id world = id other) player :=
    Player.Alike.refl player
  have heedless : ∀ kind reason world,
      id (player.note (.notPlayed kind reason) world) = id world := fun _ _ _ => rfl
  obtain ⟨hcalls, hplay⟩ := playback_failures_change_nothing steady heedless plan s
  refine ⟨?_, (hcalls made).2.1, ?_, ?_⟩
  · decide +kernel
  · rw [(hcalls made).2.1]
    decide +kernel
  · rw [(hplay 4).1]
    decide +kernel

end Stage

end Storyline
