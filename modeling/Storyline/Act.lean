/-!
# Storyline.Act

Actions on a world.  An action answers or stops with a fault; either way the
world is left as it then was.
-/

namespace Storyline

/-- An action on a world `σ` that may stop with a fault `ε`. -/
abbrev Act (σ ε α : Type) := ExceptT ε (StateM σ) α

namespace Act

variable {σ τ ε ε' α : Type}

/-- Runs an action: its answer or fault, and the world after it. -/
def on (act : Act σ ε α) (world : σ) : Except ε α × σ := act.run.run world

/-- The action that does what a function says. -/
def of (f : σ → Except ε α × σ) : Act σ ε α := ExceptT.mk f

/-- Actions that do the same on every world are the same. -/
theorem ext {act other : Act σ ε α} (h : ∀ world, act.on world = other.on world) : act = other :=
  funext h

@[simp] theorem on_of (f : σ → Except ε α × σ) (world : σ) : (of f).on world = f world := rfl

@[simp] theorem on_pure (a : α) (world : σ) :
    (pure a : Act σ ε α).on world = (.ok a, world) := rfl

@[simp] theorem on_throw (e : ε) (world : σ) :
    (throw e : Act σ ε α).on world = (.error e, world) := rfl

/-- One action after another: a fault of the first is the fault of both. -/
theorem on_bind {β : Type} (act : Act σ ε α) (next : α → Act σ ε β) (world : σ) :
    (act >>= next).on world =
      match act.on world with
      | (.ok a, world) => (next a).on world
      | (.error e, world) => (.error e, world) := by
  simp only [on, ExceptT.run, StateT.run, bind, ExceptT.bind, ExceptT.mk, StateT.bind,
    ExceptT.bindCont]
  cases act world with
  | mk answer after => cases answer <;> rfl

/-- Where two actions answer, so did the first, and the second went on from there. -/
theorem ok_of_bind {β : Type} {act : Act σ ε α} {next : α → Act σ ε β} {world after : σ} {b : β}
    (h : (act >>= next).on world = (.ok b, after)) :
    ∃ a mid, act.on world = (.ok a, mid) ∧ (next a).on mid = (.ok b, after) := by
  rw [on_bind] at h
  cases ha : act.on world with
  | mk answer mid =>
    rw [ha] at h
    cases answer with
    | error e => cases h
    | ok a => exact ⟨a, mid, rfl, h⟩

/-- An action on a part of a larger world, its faults among the larger world's. -/
def within (part : τ → σ) (put : τ → σ → τ) (fault : ε → ε') (act : Act σ ε α) : Act τ ε' α :=
  of fun world =>
    match act.on (part world) with
    | (.ok a, inner) => (.ok a, put world inner)
    | (.error e, inner) => (.error (fault e), put world inner)

/-- Changes the world. -/
def change (f : σ → σ) : Act σ ε Unit := of fun world => (.ok (), f world)

/-- Looks at the world. -/
def look (f : σ → α) : Act σ ε α := of fun world => (.ok (f world), world)

/-- What is already known, as an action. -/
def known (fault : ε → ε') : Except ε α → Act σ ε' α
  | .ok a => pure a
  | .error e => throw (fault e)

theorem on_within (part : τ → σ) (put : τ → σ → τ) (fault : ε → ε') (act : Act σ ε α) (world : τ) :
    (act.within part put fault).on world =
      match act.on (part world) with
      | (.ok a, inner) => (.ok a, put world inner)
      | (.error e, inner) => (.error (fault e), put world inner) := rfl

@[simp] theorem on_change (f : σ → σ) (world : σ) :
    (change f : Act σ ε Unit).on world = (.ok (), f world) := rfl

@[simp] theorem on_look (f : σ → α) (world : σ) :
    (look f : Act σ ε α).on world = (.ok (f world), world) := rfl

@[simp] theorem on_known (fault : ε → ε') (answer : Except ε α) (world : σ) :
    (known fault answer).on world = (answer.mapError fault, world) := by
  cases answer <;> rfl

theorem ok_of_known {fault : ε → ε'} {answer : Except ε α} {world after : σ} {a : α}
    (h : (known fault answer).on world = (.ok a, after)) : answer = .ok a := by
  cases answer with
  | ok b => cases h; rfl
  | error e => cases h

end Act

end Storyline
