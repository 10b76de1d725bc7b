import Storyline.Proofs.Run.Alike
import Storyline.Run.Play

/-!
# Storyline.Proofs.Run.Watch

All that can be seen of a run while it is played: the events that are shown, the minigames
that are decided, the texts that are written, the options that are presented and picked, and
the pauses, in the order in which they come.  A *watched* player keeps that beside the world
of the player it stands for, and does otherwise what that player does.

What an action lets be seen is said by `Stage.Sees`: all of certain moments if it answers, and
the first of them if it stops.
-/

namespace Storyline

/-- Something that can be seen of a run while it is played. -/
inductive Moment
  | shown (event : Event)
  | contested (game : String)
  | written (key text : String)
  | presented (views : List ChoiceView) (resources : Resources)
  | picked (option : ChoiceOption)
  | paused
deriving DecidableEq, Repr

/-- A world together with what has been seen, in order. -/
structure Watched (σ : Type) where
  world : σ
  seen : List Moment

namespace Player

variable {σ τ ε α : Type}

/-- Lets a moment be seen. -/
def see (moment : Moment) : Act (Watched σ) ε Unit :=
  Act.change fun w => { w with seen := w.seen ++ [moment] }

/-- An action of a player, after a moment is seen. -/
def seeing (moment : Moment) (act : Act σ ε α) : Act (Watched σ) ε α := do
  see moment
  act.within Watched.world (fun w world => { w with world }) id

/-- A player who is watched.  A pick is seen once it is made. -/
def watched (player : Player σ ε) : Player (Watched σ) ε where
  read key := (player.read key).within Watched.world (fun w world => { w with world }) id
  write key text := seeing (.written key text) (player.write key text)
  note n w := { w with world := player.note n w.world }
  render event := seeing (.shown event) (player.render event)
  minigame := player.minigame.map fun decide game resources =>
    seeing (.contested game) (decide game resources)
  pick views resources := do
    let option ← seeing (.presented views resources) (player.pick views resources)
    see (.picked option)
    return option
  pause := player.pause.map (seeing .paused)

theorem on_seeing (moment : Moment) (act : Act σ ε α) (w : Watched σ) :
    (seeing moment act).on w =
      ((act.on w.world).1, ⟨(act.on w.world).2, w.seen ++ [moment]⟩) := by
  rw [seeing, see, Act.on_bind, Act.on_change]
  simp only [Act.on_within]
  cases act.on w.world with
  | mk answer after => cases answer <;> rfl

theorem on_pick_watched (player : Player σ ε) (views : List ChoiceView) (resources : Resources)
    (w : Watched σ) :
    (player.watched.pick views resources).on w =
      match (player.pick views resources).on w.world with
      | (.ok option, world) =>
        (.ok option, ⟨world, w.seen ++ [.presented views resources, .picked option]⟩)
      | (.error fault, world) =>
        (.error fault, ⟨world, w.seen ++ [.presented views resources]⟩) := by
  simp only [watched, see, Act.on_bind, on_seeing]
  cases (player.pick views resources).on w.world with
  | mk answer world =>
    cases answer with
    | ok option => simp only [Act.on_change, List.append_assoc]; rfl
    | error fault => rfl

/-! ## Being watched changes nothing -/

/-- Two players answer alike to everything on related worlds, and leave related worlds. -/
structure Alike (E : Resources → Resources → Prop) (rel : σ → τ → Prop) (player : Player σ ε)
    (other : Player τ ε) : Prop extends Storyline.Alike E rel player.toHost other.toHost where
  pick : ∀ views r s, E r s → Act.Tracks rel Eq (player.pick views r) (other.pick views s)
  pause : Option.Rel (Act.Tracks rel Eq) player.pause other.pause

/-- A player answers like itself. -/
theorem Alike.refl (player : Player σ ε) : player.Alike Eq Eq player where
  toAlike := Storyline.Alike.refl player.toHost
  pick views r s h := by
    subst h
    exact Act.tracks_refl _
  pause := by
    cases player.pause with
    | none => exact .none
    | some pause => exact .some (Act.tracks_refl _)

/-- Two players answer alike on related worlds, and leave related worlds, as far as runs can
tell. -/
structure AlikeUpTo (E : Resources → Resources → Prop) (rel : σ → τ → Prop)
    (S : Option String → Option String → Prop) (W : String → String → Prop)
    (player : Player σ ε) (other : Player τ ε) : Prop
    extends Storyline.AlikeUpTo E rel S W player.toHost other.toHost where
  pick : ∀ views r s, E r s → Act.Tracks rel Eq (player.pick views r) (other.pick views s)
  pause : Option.Rel (Act.Tracks rel Eq) player.pause other.pause

theorem Alike.upTo {E : Resources → Resources → Prop} {rel : σ → τ → Prop} {player : Player σ ε}
    {other : Player τ ε} (alike : player.Alike E rel other) :
    player.AlikeUpTo E rel Eq Eq other :=
  ⟨alike.toAlike.upTo, alike.pick, alike.pause⟩

theorem tracks_seeing (moment : Moment) (act : Act σ ε α) :
    Act.Tracks (fun world (w : Watched σ) => world = w.world) Eq act (seeing moment act) := by
  intro world w h
  rw [on_seeing, h]
  exact ⟨.refl _, rfl⟩

/-- A watched player answers like the player it stands for. -/
theorem alike_of_watched (player : Player σ ε) :
    Alike Eq (fun world (w : Watched σ) => world = w.world) player player.watched where
  render event := tracks_seeing _ _
  minigame := by
    rw [watched]
    cases player.minigame with
    | none => exact .none
    | some decide =>
      apply Option.Rel.some
      intro game r s like
      subst like
      exact tracks_seeing _ _
  write key text := tracks_seeing _ _
  note n world w h := congrArg (player.note n) h
  pick views r s like := by
    subst like
    intro world w h
    rw [on_pick_watched, h]
    cases (player.pick views r).on w.world with
    | mk answer after =>
      cases answer with
      | ok option => exact ⟨.ok rfl, rfl⟩
      | error fault => exact ⟨.error fault, rfl⟩
  pause := by
    rw [watched]
    cases player.pause with
    | none => exact .none
    | some pause => exact .some (tracks_seeing _ _)

section SameSight

variable {rel : σ → τ → Prop} {S : Option String → Option String → Prop}
  {player : Player σ ε} {other : Player τ ε}

/-- Two watched worlds are related, and the same has been seen in them. -/
def SameSight (rel : σ → τ → Prop) (w : Watched σ) (v : Watched τ) : Prop :=
  rel w.world v.world ∧ w.seen = v.seen

theorem tracks_sight {β : Type} {A : α → β → Prop} (moment : Moment) {act : Act σ ε α}
    {act' : Act τ ε β} (h : Act.Tracks rel A act act') :
    Act.Tracks (SameSight rel) A (seeing moment act) (seeing moment act') := by
  intro w v hwv
  obtain ⟨ha, hw⟩ := h w.world v.world hwv.1
  rw [on_seeing, on_seeing, hwv.2]
  exact ⟨ha, hw, rfl⟩

theorem afterShowing_watched (player : Player σ ε) (event : Event) (shown : Option String)
    (w : Watched σ) :
    player.watched.toHost.afterShowing event shown w =
      { w with world := player.toHost.afterShowing event shown w.world } := by
  cases shown <;> rfl

/-- Players who answer alike but for what comes of showing an event still do when they are
watched, and the same is seen of them. -/
theorem alikeUpTo_watched (alike : player.AlikeUpTo Eq rel S Eq other) :
    player.watched.AlikeUpTo Eq (SameSight rel) S Eq other.watched where
  render event := tracks_sight _ (alike.render event)
  shown event shown shown' h w v hwv := by
    rw [afterShowing_watched, afterShowing_watched]
    exact ⟨alike.shown event shown shown' h _ _ hwv.1, hwv.2⟩
  minigame := by
    have h := alike.minigame
    rw [watched, watched]
    revert h
    cases player.minigame with
    | none => cases other.minigame with
      | none => exact fun _ => .none
      | some decide' => nofun
    | some decide => cases other.minigame with
      | none => nofun
      | some decide' =>
        intro h
        cases h with
        | some h => exact .some fun game r s like => tracks_sight _ (h game r s like)
  write key text text' h := by
    subst h
    exact tracks_sight _ (alike.write key text text rfl)
  note n w v h := ⟨alike.note n _ _ h.1, h.2⟩
  pick views r s like := by
    subst like
    refine Act.tracks_bind (tracks_sight _ (alike.pick views r r rfl)) fun option _ h => ?_
    subst h
    refine Act.tracks_bind (Act.tracks_change fun w v hwv => ?_) fun _ _ _ => Act.tracks_pure rfl
    exact ⟨hwv.1, congrArg (· ++ _) hwv.2⟩
  pause := by
    have h := alike.pause
    rw [watched, watched]
    revert h
    cases player.pause with
    | none => cases other.pause with
      | none => exact fun _ => .none
      | some pause' => nofun
    | some pause => cases other.pause with
      | none => nofun
      | some pause' =>
        intro h
        cases h with
        | some h => exact .some (tracks_sight _ h)

end SameSight

end Player

namespace Stage

variable {σ τ ε : Type}

section Alike

variable {E : Resources → Resources → Prop} {rel : σ → τ → Prop}
  {S : Option String → Option String → Prop} {W : String → String → Prop} {player : Player σ ε}
  {other : Player τ ε} (tallying : Resources.Tallying E) (saved : SavedAlong E W)
  (alike : player.AlikeUpTo E rel S W other)

include alike

theorem tracks_pauseIfRunning :
    Act.Tracks (Like E rel) Eq (pauseIfRunning player) (pauseIfRunning other) := by
  rw [pauseIfRunning, pauseIfRunning]
  refine Act.tracks_bind tracks_theRun fun r s h => ?_
  rw [h.status]
  split
  · have hpause := alike.pause
    cases hp : player.pause with
    | none =>
      rw [hp] at hpause
      cases ho : other.pause with
      | none => exact Act.tracks_pure rfl
      | some pause' => simp only [ho] at hpause; contradiction
    | some pause =>
      rw [hp] at hpause
      cases ho : other.pause with
      | none => simp only [ho] at hpause; contradiction
      | some pause' =>
        rw [ho] at hpause
        cases hpause with
        | some h => exact tracks_ofHost h
  · exact Act.tracks_pure rfl

include tallying saved

theorem tracks_tryChoose (option : String) :
    Act.Tracks (Like E rel) Eq (tryChoose player.toHost option)
      (tryChoose other.toHost option) := by
  intro s t hst
  obtain ⟨hanswer, hlike⟩ :=
    tracks_call_upTo tallying saved alike.toAlikeUpTo (.choose option) s t hst
  rw [call, call] at hanswer hlike
  rw [tryChoose, tryChoose, Act.on_of, Act.on_of]
  cases hs : (choose player.toHost option).on s with
  | mk answer after =>
    cases ht : (choose other.toHost option).on t with
    | mk answer' after' =>
      rw [hs, ht] at hanswer hlike
      cases hanswer with
      | ok _ => exact ⟨.ok rfl, hlike⟩
      | error fault =>
        cases fault with
        | rejected rejection => exact ⟨.ok rfl, hlike⟩
        | _ => exact ⟨.error _, hlike⟩

/-- A round comes to the same on stages that are alike, and leaves them alike. -/
theorem tracks_round : Act.Tracks (Like E rel) Eq (round player) (round other) := by
  rw [round, round]
  refine Act.tracks_bind tracks_theRun fun r s h => ?_
  rw [h.status, h.pending, h.current]
  cases s.status with
  | terminated => exact Act.tracks_pure rfl
  | running =>
    have hstep := tracks_call_upTo tallying saved alike.toAlikeUpTo .step
    refine Act.tracks_bind hstep fun _ _ _ => ?_
    exact tracks_pauseIfRunning alike
  | awaitingChoice =>
    refine Act.tracks_bind (tracks_ofHost (alike.pick _ _ _ h.resources)) fun option _ ho => ?_
    subst ho
    have hchoose := tracks_tryChoose tallying saved alike option.id
    refine Act.tracks_bind hchoose fun rejection _ hr => ?_
    subst hr
    cases rejection with
    | none => exact tracks_pauseIfRunning alike
    | some rejection => exact tracks_note alike.toAlikeUpTo _

/-- So do any number of rounds. -/
theorem tracks_play (rounds : Nat) :
    Act.Tracks (Like E rel) Eq (play player rounds) (play other rounds) := by
  have finished : ∀ r s : Run, r.Like E s → r.isFinished = s.isFinished := by
    intro r s h
    rw [Run.isFinished, Run.isFinished, h.status]
  induction rounds with
  | zero =>
    refine Act.tracks_bind tracks_theRun fun r s h => ?_
    exact Act.tracks_pure (finished r s h)
  | succ rounds ih =>
    rw [play, play]
    refine Act.tracks_bind tracks_theRun fun r s h => ?_
    rw [finished r s h]
    split
    · exact Act.tracks_pure rfl
    · exact Act.tracks_bind (tracks_round tallying saved alike) fun _ _ _ => ih

end Alike

/-! ## Playing on -/

theorem on_play_of_finished (player : Player σ ε) {s : Stage σ} (h : s.run.isFinished = true)
    (rounds : Nat) : (play player rounds).on s = (.ok true, s) := by
  cases rounds with
  | zero => simp only [play, Act.on_bind, on_theRun, h, Act.on_pure]
  | succ rounds => simp only [play, Act.on_bind, on_theRun, h, if_true, Act.on_pure]

/-- Unless the run goes on, more rounds make no difference. -/
theorem on_play_more {player : Player σ ε} {rounds : Nat} {s : Stage σ}
    (h : ((play player rounds).on s).1 ≠ .ok false) (more : Nat) :
    (play player (rounds + more)).on s = (play player rounds).on s := by
  induction rounds generalizing s with
  | zero =>
    have finished : s.run.isFinished = true := by
      cases hf : s.run.isFinished with
      | true => rfl
      | false =>
        rw [play, Act.on_bind, on_theRun] at h
        simp only [hf] at h
        exact absurd rfl h
    rw [on_play_of_finished player finished, on_play_of_finished player finished]
  | succ rounds ih =>
    rw [Nat.add_right_comm]
    cases hf : s.run.isFinished with
    | true => rw [on_play_of_finished player hf, on_play_of_finished player hf]
    | false =>
      simp only [play, Act.on_bind, on_theRun, hf, Bool.false_eq_true, if_false] at h ⊢
      cases hr : (round player).on s with
      | mk answer after =>
        rw [hr] at h
        cases answer with
        | ok _ => exact ih h
        | error fault => rfl

/-- The answer says whether the run has ended. -/
theorem isFinished_of_play {player : Player σ ε} {rounds : Nat} {s after : Stage σ} {ended : Bool}
    (h : (play player rounds).on s = (.ok ended, after)) : after.run.isFinished = ended := by
  induction rounds generalizing s with
  | zero =>
    simp only [play, Act.on_bind, on_theRun, Act.on_pure] at h
    cases h
    rfl
  | succ rounds ih =>
    cases hf : s.run.isFinished with
    | true =>
      rw [on_play_of_finished player hf] at h
      cases h
      exact hf
    | false =>
      simp only [play, Act.on_bind, on_theRun, hf, Bool.false_eq_true, if_false] at h
      cases hr : (round player).on s with
      | mk answer mid =>
        rw [hr] at h
        cases answer with
        | ok _ => exact ih h
        | error fault => cases h

/-! ## Watched stages -/

/-- The stage, watched from now on. -/
def watched (s : Stage σ) : Stage (Watched σ) where
  run := s.run
  gateway := ⟨s.gateway.last, s.gateway.world, []⟩

/-- What has been seen. -/
def seen (s : Stage (Watched σ)) : List Moment := s.gateway.world.seen

/-- Being watched makes no difference. -/
theorem play_watched (player : Player σ ε) (rounds : Nat) (s : Stage σ) :
    ((play player.watched rounds).on s.watched).1 = ((play player rounds).on s).1 ∧
      ((play player.watched rounds).on s.watched).2.run = ((play player rounds).on s).2.run ∧
      ((play player.watched rounds).on s.watched).2.gateway.world.world =
        ((play player rounds).on s).2.gateway.world := by
  have start : s.Like Eq (fun world (w : Watched σ) => world = w.world) s.watched :=
    ⟨⟨rfl, rfl, rfl, rfl, rfl⟩, rfl⟩
  obtain ⟨hanswer, hlike⟩ :=
    tracks_play Resources.likeness_eq.tallying (savedAlong_of_likeness Resources.likeness_eq)
      player.alike_of_watched.upTo rounds s s.watched start
  exact ⟨(Agree.eq_iff.1 hanswer).symm, hlike.run.eq.symm, hlike.world.symm⟩

/-- Players who answer alike but for what comes of showing an event play alike, and the same
is seen of them. -/
theorem play_alike {rel : σ → τ → Prop} {S : Option String → Option String → Prop}
    {player : Player σ ε} {other : Player τ ε} (alike : player.AlikeUpTo Eq rel S Eq other)
    (rounds : Nat) {s : Stage σ} {t : Stage τ} (h : s.Like Eq rel t) :
    ((play player rounds).on s).1 = ((play other rounds).on t).1 ∧
      ((play player.watched rounds).on s.watched).2.seen =
        ((play other.watched rounds).on t.watched).2.seen ∧
      ((play player rounds).on s).2.Like Eq rel ((play other rounds).on t).2 := by
  have saved := savedAlong_of_likeness Resources.likeness_eq
  obtain ⟨hanswer, hlike⟩ := tracks_play Resources.likeness_eq.tallying saved alike rounds s t h
  have start : s.watched.Like Eq (Player.SameSight rel) t.watched := ⟨h.run, h.world, rfl⟩
  obtain ⟨-, hwatched⟩ := tracks_play Resources.likeness_eq.tallying saved
    (Player.alikeUpTo_watched alike) rounds _ _ start
  exact ⟨Agree.eq_iff.1 hanswer, hwatched.world.2, hlike⟩

/-! ## What is seen of an action -/

section Sees

variable {α β : Type} {player : Player σ ε} {s : Stage (Watched σ)}

/-- On a stage an action lets moments be seen: all of them if it answers, and the first of
them if it stops. -/
structure Sees (moments : List Moment) (act : Act (Stage (Watched σ)) (RunFault ε) α)
    (s : Stage (Watched σ)) : Prop where
  ok : ∀ a t, act.on s = (.ok a, t) → t.seen = s.seen ++ moments
  error : ∀ fault t, act.on s = (.error fault, t) →
    ∃ cut, cut <+: moments ∧ t.seen = s.seen ++ cut

theorem sees_nothing {act : Act (Stage (Watched σ)) (RunFault ε) α}
    (h : (act.on s).2.seen = s.seen) : Sees [] act s := by
  constructor
  · intro a t hact
    rw [hact] at h
    rw [h, List.append_nil]
  · intro fault t hact
    rw [hact] at h
    exact ⟨[], List.prefix_rfl, by rw [h, List.append_nil]⟩

theorem sees_throw (moments : List Moment) (fault : RunFault ε) :
    Sees moments (throw fault : Act (Stage (Watched σ)) (RunFault ε) α) s := by
  constructor
  · intro a t hact
    cases hact
  · intro fault t hact
    cases hact
    exact ⟨[], List.nil_prefix, (List.append_nil _).symm⟩

/-- Of one action after another the moments of both are seen. -/
theorem sees_bind {act : Act (Stage (Watched σ)) (RunFault ε) α}
    {next : α → Act (Stage (Watched σ)) (RunFault ε) β} {first later : List Moment}
    (h : Sees first act s)
    (hnext : ∀ a t, act.on s = (.ok a, t) → Sees later (next a) t) :
    Sees (first ++ later) (act >>= next) s := by
  constructor
  · intro b t hact
    obtain ⟨a, mid, ha, hb⟩ := Act.ok_of_bind hact
    rw [(hnext a mid ha).ok b t hb, h.ok a mid ha, List.append_assoc]
  · intro fault t hact
    rw [Act.on_bind] at hact
    cases ha : act.on s with
    | mk answer mid =>
      rw [ha] at hact
      cases answer with
      | error fault =>
        cases hact
        obtain ⟨cut, hcut, hseen⟩ := h.error _ _ ha
        exact ⟨cut, hcut.trans (List.prefix_append first later), hseen⟩
      | ok a =>
        obtain ⟨cut, hcut, hseen⟩ := (hnext a mid ha).error fault t hact
        refine ⟨first ++ cut, (List.prefix_append_right_inj first).2 hcut, ?_⟩
        rw [hseen, h.ok a mid ha, List.append_assoc]

theorem sees_after {act : Act (Stage (Watched σ)) (RunFault ε) α}
    {next : α → Act (Stage (Watched σ)) (RunFault ε) β} {moments : List Moment}
    (h : Sees [] act s) (hnext : ∀ a t, act.on s = (.ok a, t) → Sees moments (next a) t) :
    Sees moments (act >>= next) s :=
  sees_bind h hnext

theorem sees_before {act : Act (Stage (Watched σ)) (RunFault ε) α}
    {next : α → Act (Stage (Watched σ)) (RunFault ε) β} {moments : List Moment}
    (h : Sees moments act s) (hnext : ∀ a t, act.on s = (.ok a, t) → Sees [] (next a) t) :
    Sees moments (act >>= next) s := by
  have hboth := sees_bind h hnext
  rwa [List.append_nil] at hboth

theorem sees_seeing (moment : Moment) (act : Act σ ε α) :
    Sees [moment] (ofHost (Player.seeing moment act)) s := by
  have hseen : ((ofHost (Player.seeing moment act)).on s).2.seen = s.seen ++ [moment] := by
    rw [on_ofHost, Player.on_seeing]
    rfl
  constructor
  · intro a t hact
    rw [hact] at hseen
    exact hseen
  · intro fault t hact
    rw [hact] at hseen
    exact ⟨[moment], List.prefix_rfl, hseen⟩

theorem sees_note (n : Note) : Sees [] (note player.watched.toHost n) s :=
  sees_nothing rfl

theorem sees_noteConflict (resources : Resources) (requirement : Option (Table Amount)) :
    Sees [] (noteConflict player.watched.toHost resources requirement) s := by
  rw [noteConflict]
  split
  · exact sees_note _
  · exact sees_nothing rfl

theorem sees_known {ε' : Type} (fault : ε' → RunFault ε) (answer : Except ε' α) :
    Sees [] (Act.known fault answer) s :=
  sees_nothing (by rw [Act.on_known])

theorem sees_emit (event : Event) : Sees [.shown event] (emit player.watched.toHost event) s := by
  refine sees_before (sees_seeing (.shown event) (player.render event)) fun shown _ _ => ?_
  cases shown with
  | none => exact sees_nothing rfl
  | some reason => exact sees_note _

theorem sees_emitAll (events : List Event) :
    Sees (events.map .shown) (emitAll player.watched.toHost events) s := by
  induction events generalizing s with
  | nil => exact sees_nothing rfl
  | cons event rest ih => exact sees_bind (sees_emit event) fun _ _ _ => ih

theorem sees_offer (resources : Resources) (options : List ChoiceOption) :
    Sees [] (offer player.watched.toHost resources options) s := by
  induction options generalizing s with
  | nil => exact sees_nothing rfl
  | cons o rest ih =>
    refine sees_after (sees_noteConflict resources o.requirement) fun _ _ _ => ?_
    refine sees_after (sees_known id _) fun view _ _ => ?_
    exact sees_after ih fun _ _ _ => sees_nothing rfl

end Sees

end Stage

end Storyline
