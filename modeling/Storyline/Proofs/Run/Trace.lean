import Mathlib.Data.List.Forall2
import Storyline.Proofs.Run.Alike

/-!
# Storyline.Proofs.Run.Trace

What calls make reach the host: the events to show, the texts to write and the minigames
to decide, in the order in which they come.  A *traced* host keeps them beside the world
of the host it stands for, and does otherwise what that host does.
-/

namespace Storyline

/-- Something that a call makes reach the host. -/
inductive Trace
  | shown (event : Event)
  | written (key text : String)
  | contested (game : String)
deriving DecidableEq, Repr

/-- The same reaches two hosts, up to the texts to write. -/
inductive Trace.Along (W : String → String → Prop) : Trace → Trace → Prop
  | shown (event : Event) : Along W (.shown event) (.shown event)
  | written (key : String) {text text' : String} (h : W text text') :
    Along W (.written key text) (.written key text')
  | contested (game : String) : Along W (.contested game) (.contested game)

theorem Trace.along_eq_iff {step step' : Trace} : Along Eq step step' ↔ step = step' := by
  constructor
  · rintro (event | ⟨key, h⟩ | game)
    · rfl
    · rw [h]
    · rfl
  · rintro rfl
    cases step with
    | shown event => exact .shown event
    | written key text => exact .written key rfl
    | contested game => exact .contested game

theorem Trace.eq_of_along {l m : List Trace} (h : List.Forall₂ (Along Eq) l m) : l = m := by
  rw [List.forall₂_eq_eq_eq.symm]
  exact h.imp fun _ _ => along_eq_iff.1

/-- A world together with what has reached its host, the latest first. -/
structure Traced (σ : Type) where
  world : σ
  trace : List Trace

namespace Host

variable {σ τ ε α : Type}

/-- An action of a host, after something is put on the trace. -/
def tracing (step : Trace) (act : Act σ ε α) : Act (Traced σ) ε α := do
  Act.change fun w => { w with trace := step :: w.trace }
  act.within Traced.world (fun w world => { w with world }) id

/-- A host that keeps a trace. -/
def traced (host : Host σ ε) : Host (Traced σ) ε where
  read key := (host.read key).within Traced.world (fun w world => { w with world }) id
  write key text := tracing (.written key text) (host.write key text)
  note n w := { w with world := host.note n w.world }
  render event := tracing (.shown event) (host.render event)
  minigame := host.minigame.map fun decide game resources =>
    tracing (.contested game) (decide game resources)

theorem on_tracing (step : Trace) (act : Act σ ε α) (w : Traced σ) :
    (tracing step act).on w = ((act.on w.world).1, ⟨(act.on w.world).2, step :: w.trace⟩) := by
  rw [tracing, Act.on_bind, Act.on_change]
  simp only [Act.on_within]
  cases act.on w.world with
  | mk answer after => cases answer <;> rfl

theorem on_render_traced {host : Host σ ε} {event : Event} {answer : Except ε (Option String)}
    {world after : σ} (h : (host.render event).on world = (answer, after)) (before : List Trace) :
    (host.traced.render event).on ⟨world, before⟩ = (answer, ⟨after, .shown event :: before⟩) := by
  have hon := on_tracing (.shown event) (host.render event) ⟨world, before⟩
  rw [h] at hon
  exact hon

section Along

variable {rel : σ → τ → Prop} {R : List Trace → List Trace → Prop}

theorem tracks_tracing {β : Type} {A : α → β → Prop} {act : Act σ ε α} {act' : Act τ ε β}
    {step step' : Trace} (grows : ∀ l m, R l m → R (step :: l) (step' :: m))
    (h : Act.Tracks rel A act act') :
    Act.Tracks (fun w v => rel w.world v.world ∧ R w.trace v.trace) A (tracing step act)
      (tracing step' act') := by
  intro w v hwv
  obtain ⟨ha, hw⟩ := h w.world v.world hwv.1
  rw [on_tracing, on_tracing]
  exact ⟨ha, hw, grows _ _ hwv.2⟩

theorem afterShowing_traced (host : Host σ ε) (event : Event) (shown : Option String)
    (w : Traced σ) :
    host.traced.afterShowing event shown w =
      { w with world := host.afterShowing event shown w.world } := by
  cases shown <;> rfl

/-- Hosts that answer alike up to texts still do when they are traced, and their traces stay
related in any way that is kept by what reaches them. -/
theorem alikeUpTo_traced {E : Resources → Resources → Prop}
    {S : Option String → Option String → Prop} {W : String → String → Prop}
    (grows : ∀ step step', Trace.Along W step step' → ∀ l m, R l m → R (step :: l) (step' :: m))
    {host : Host σ ε} {other : Host τ ε} (alike : AlikeUpTo E rel S W host other) :
    AlikeUpTo E (fun w v => rel w.world v.world ∧ R w.trace v.trace) S W host.traced
      other.traced where
  render event := tracks_tracing (grows _ _ (.shown event)) (alike.render event)
  shown event shown shown' h w v hwv := by
    rw [afterShowing_traced, afterShowing_traced]
    exact ⟨alike.shown event shown shown' h _ _ hwv.1, hwv.2⟩
  minigame := by
    have h := alike.minigame
    rw [traced, traced]
    revert h
    cases host.minigame with
    | none => cases other.minigame with
      | none => exact fun _ => .none
      | some decide' => nofun
    | some decide => cases other.minigame with
      | none => nofun
      | some decide' =>
        intro h
        cases h with
        | some h =>
          exact .some fun game r s like =>
            tracks_tracing (grows _ _ (.contested game)) (h game r s like)
  write key text text' h := tracks_tracing (grows _ _ (.written key h)) (alike.write key _ _ h)
  note n w v h := ⟨alike.note n _ _ h.1, h.2⟩

end Along

/-- A traced host does the same whatever is on its trace already. -/
theorem alike_traced_onto (host : Host σ ε) (old : List Trace) :
    Alike Eq (fun w v : Traced σ => w.world = v.world ∧ w.trace = v.trace ++ old)
      host.traced host.traced := by
  have grows : ∀ step step', Trace.Along Eq step step' → ∀ l m : List Trace, l = m ++ old →
      step :: l = step' :: m ++ old := by
    intro step step' hstep l m h
    rw [Trace.along_eq_iff.1 hstep, h]
    rfl
  exact (alikeUpTo_traced (R := fun l m => l = m ++ old) grows (Alike.refl host).upTo).alike

/-- A traced host answers like the host it stands for. -/
theorem alike_of_traced (host : Host σ ε) :
    Alike Eq (fun w (v : Traced σ) => w = v.world) host host.traced := by
  have htracing : ∀ {α : Type} (step : Trace) (act : Act σ ε α),
      Act.Tracks (fun w (v : Traced σ) => w = v.world) Eq act (tracing step act) := by
    intro α step act w v h
    rw [on_tracing, h]
    exact ⟨.refl _, rfl⟩
  have hminigame : Option.Rel (fun decide decide' => ∀ game r s, r = s →
      Act.Tracks (fun w (v : Traced σ) => w = v.world) Eq (decide game r) (decide' game s))
      host.minigame host.traced.minigame := by
    rw [traced]
    cases host.minigame with
    | none => exact .none
    | some decide =>
      apply Option.Rel.some
      intro game r s like
      subst like
      exact htracing _ _
  exact ⟨⟨fun event => htracing _ _, hminigame, fun n w v h => congrArg (host.note n) h⟩,
    fun key text => htracing _ _⟩

end Host

namespace Stage

variable {σ τ ε : Type}

/-- A stage whose world has an empty trace. -/
def traced (s : Stage σ) : Stage (Traced σ) where
  run := s.run
  gateway := ⟨s.gateway.last, s.gateway.world, []⟩

/-- What calls make reach the host, in order. -/
def trace (host : Host σ ε) (made : List Call) (s : Stage σ) : List Trace :=
  (calls host.traced made s.traced).2.gateway.world.trace.reverse

/-- Being traced changes nothing else. -/
theorem calls_traced (host : Host σ ε) (made : List Call) (s : Stage σ) :
    (calls host made s).1 = (calls host.traced made s.traced).1 ∧
      (calls host made s).2.run = (calls host.traced made s.traced).2.run ∧
      (calls host made s).2.gateway.world =
        (calls host.traced made s.traced).2.gateway.world.world := by
  have start : s.Like Eq (fun w (v : Traced σ) => w = v.world) s.traced :=
    ⟨⟨rfl, rfl, rfl, rfl, rfl⟩, rfl⟩
  obtain ⟨hanswers, hlike⟩ := calls_alike Resources.likeness_eq host.alike_of_traced made start
  exact ⟨hanswers, hlike.run.eq, hlike.world⟩

/-- The same calls on stages that are alike make the same reach hosts that answer alike up to
texts, up to these texts. -/
theorem trace_alike_upTo {E : Resources → Resources → Prop} {rel : σ → τ → Prop}
    {S : Option String → Option String → Prop} {W : String → String → Prop} {host : Host σ ε}
    {other : Host τ ε} (tallying : Resources.Tallying E) (saved : SavedAlong E W)
    (alike : AlikeUpTo E rel S W host other) (made : List Call) {s : Stage σ} {t : Stage τ}
    (h : s.Like E rel t) :
    List.Forall₂ (Trace.Along W) (trace host made s) (trace other made t) := by
  have start : s.traced.Like E
      (fun w v => rel w.world v.world ∧ List.Forall₂ (Trace.Along W) w.trace v.trace)
      t.traced := ⟨h.run, h.world, .nil⟩
  have halike := Host.alikeUpTo_traced
    (R := List.Forall₂ (Trace.Along W)) (fun _ _ hstep _ _ hl => .cons hstep hl) alike
  obtain ⟨-, hlike⟩ := calls_alike_upTo tallying saved halike made start
  exact List.rel_reverse hlike.world.2

/-- The same calls on stages that are alike make the same reach hosts that answer alike. -/
theorem trace_alike {E : Resources → Resources → Prop} (likeness : Resources.Likeness E)
    {rel : σ → τ → Prop} {host : Host σ ε} {other : Host τ ε} (alike : Alike E rel host other)
    (made : List Call) {s : Stage σ} {t : Stage τ} (h : s.Like E rel t) :
    trace host made s = trace other made t := by
  have saved := savedAlong_of_likeness likeness
  exact Trace.eq_of_along (trace_alike_upTo likeness.tallying saved alike.upTo made h)

/-- What calls make reach the host is what the first of them do, and then what the others do. -/
theorem trace_append (host : Host σ ε) (made later : List Call) (s : Stage σ) :
    trace host (made ++ later) s =
      trace host made s ++ trace host later (calls host made s).2 := by
  -- The other calls start on the trace that the first ones leave; let them start on an empty one.
  let old := (calls host.traced made s.traced).2.gateway.world.trace
  obtain ⟨-, hrun, hworld⟩ := calls_traced host made s
  have start : (calls host.traced made s.traced).2.Like Eq
      (fun w v : Traced σ => w.world = v.world ∧ w.trace = v.trace ++ old)
      (calls host made s).2.traced := by
    refine ⟨?_, hworld.symm, rfl⟩
    rw [← hrun]
    exact ⟨rfl, rfl, rfl, rfl, rfl⟩
  obtain ⟨-, hlike⟩ :=
    calls_alike Resources.likeness_eq (host.alike_traced_onto old) later start
  rw [trace, calls_append, hlike.world.2, List.reverse_append]
  rfl

end Stage

end Storyline
