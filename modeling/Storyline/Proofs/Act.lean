import Storyline.Act

/-!
# Storyline.Proofs.Act

Two actions, each on a world of its own, *track* each other if on related worlds
they give related answers, or stop with the same fault, and leave related worlds.
What is made up of actions that track each other does so too, so that it is
enough to look at the actions it is made up of.  An answer that is made up of
others is taken apart in the same way, by what it came to.
-/

namespace Storyline

instance decideAnswerEq {ε α : Type} [DecidableEq ε] [DecidableEq α] : DecidableEq (Except ε α)
  | .ok a, .ok b => decidable_of_iff (a = b) (by simp)
  | .error d, .error e => decidable_of_iff (d = e) (by simp)
  | .ok _, .error _ | .error _, .ok _ => .isFalse nofun

theorem mapError_ok {ε ε' α : Type} (fault : ε → ε') (a : α) :
    (Except.ok a).mapError fault = .ok a := rfl

theorem map_ok_iff {ε α β : Type} {answer : Except ε α} {f : α → β} {b : β} :
    answer.map f = .ok b ↔ ∃ a, answer = .ok a ∧ f a = b := by
  cases answer <;> simp [Except.map]

theorem map_error_iff {ε α β : Type} {answer : Except ε α} {f : α → β} {e : ε} :
    answer.map f = .error e ↔ answer = .error e := by
  cases answer <;> simp [Except.map]

theorem mapError_ok_iff {ε ε' α : Type} {answer : Except ε α} {fault : ε → ε'} {a : α} :
    answer.mapError fault = .ok a ↔ answer = .ok a := by
  cases answer with
  | ok b => rw [mapError_ok, Except.ok.injEq, Except.ok.injEq]
  | error e => exact iff_of_false (fun h => by cases h) (fun h => by cases h)

theorem mapError_error_iff {ε ε' α : Type} {answer : Except ε α} {fault : ε → ε'} {e : ε'} :
    answer.mapError fault = .error e ↔ ∃ d, answer = .error d ∧ fault d = e := by
  constructor
  · intro h
    cases answer with
    | ok a => cases h
    | error d =>
      cases h
      exact ⟨d, rfl, rfl⟩
  · rintro ⟨d, rfl, rfl⟩
    rfl

theorem bind_ok_iff {ε α β : Type} {answer : Except ε α} {next : α → Except ε β} {b : β} :
    answer >>= next = .ok b ↔ ∃ a, answer = .ok a ∧ next a = .ok b := by
  cases answer <;> simp [bind, Except.bind]

theorem bind_error_iff {ε α β : Type} {answer : Except ε α} {next : α → Except ε β} {e : ε} :
    answer >>= next = .error e ↔
      answer = .error e ∨ ∃ a, answer = .ok a ∧ next a = .error e := by
  cases answer <;> simp [bind, Except.bind]

theorem bind_pure_error_iff {ε α β : Type} {answer : Except ε α} {f : α → β} {e : ε} :
    (answer >>= fun a => pure (f a)) = .error e ↔ answer = .error e := by
  cases answer <;> simp [bind, Except.bind, pure, Except.pure]

/-- Two answers agree: related values, or the same fault. -/
inductive Agree {ε α β : Type} (A : α → β → Prop) : Except ε α → Except ε β → Prop
  | ok {a : α} {b : β} (h : A a b) : Agree A (.ok a) (.ok b)
  | error (e : ε) : Agree A (.error e) (.error e)

namespace Agree

variable {ε ε' α β γ : Type} {A : α → β → Prop}

/-- To agree on the values themselves is to be the same answer. -/
theorem eq_iff {answer other : Except ε α} : Agree Eq answer other ↔ answer = other := by
  constructor
  · rintro (h | e)
    · rw [h]
    · rfl
  · rintro rfl
    cases answer with
    | ok a => exact .ok rfl
    | error e => exact .error e

theorem refl (answer : Except ε α) : Agree Eq answer answer := eq_iff.2 rfl

theorem trans {B : β → γ → Prop} {C : α → γ → Prop} {first : Except ε α} {second : Except ε β}
    {third : Except ε γ} (h : Agree A first second) (h' : Agree B second third)
    (hc : ∀ a b c, A a b → B b c → C a c) : Agree C first third := by
  cases h with
  | ok ha => cases h' with
    | ok hb => exact .ok (hc _ _ _ ha hb)
  | error e => cases h'; exact .error e

theorem eq_ok {answer : Except ε α} {other : Except ε β} (h : Agree A answer other) {a : α}
    (ha : answer = .ok a) : ∃ b, other = .ok b ∧ A a b := by
  cases h with
  | ok hab => cases ha; exact ⟨_, rfl, hab⟩
  | error e => cases ha

theorem eq_error {answer : Except ε α} {other : Except ε β} (h : Agree A answer other) {e : ε}
    (he : answer = .error e) : other = .error e := by
  cases h with
  | ok hab => cases he
  | error e => cases he; rfl

theorem map {α' β' : Type} {B : α' → β' → Prop} {answer : Except ε α} {other : Except ε β}
    {f : α → α'} {g : β → β'} (h : Agree A answer other) (hfg : ∀ a b, A a b → B (f a) (g b)) :
    Agree B (answer.map f) (other.map g) := by
  cases h with
  | ok hab => exact .ok (hfg _ _ hab)
  | error e => exact .error e

theorem mapError {answer : Except ε α} {other : Except ε β} (fault : ε → ε')
    (h : Agree A answer other) : Agree A (answer.mapError fault) (other.mapError fault) := by
  cases h with
  | ok hab => exact .ok hab
  | error e => exact .error (fault e)

theorem bind {α' β' : Type} {B : α' → β' → Prop} {answer : Except ε α} {other : Except ε β}
    {next : α → Except ε α'} {then' : β → Except ε β'} (h : Agree A answer other)
    (hnext : ∀ a b, A a b → Agree B (next a) (then' b)) :
    Agree B (answer >>= next) (other >>= then') := by
  cases h with
  | ok hab => exact hnext _ _ hab
  | error e => exact .error e

end Agree

namespace Act

variable {σ τ σ' τ' ε ε' α α' β β' : Type}

theorem eq_of_answer {p : Except ε α × σ} {answer : Except ε α} (h : p.1 = answer) :
    p = (answer, p.2) := by
  rw [← h]

/-- Two actions track each other along a relation of their worlds. -/
def Tracks (R : σ → τ → Prop) (A : α → β → Prop) (act : Act σ ε α) (other : Act τ ε β) : Prop :=
  ∀ world image, R world image →
    Agree A (act.on world).1 (other.on image).1 ∧ R (act.on world).2 (other.on image).2

variable {R : σ → τ → Prop} {A : α → β → Prop} {A' : α' → β' → Prop}

theorem tracks_refl (act : Act σ ε α) : Tracks Eq Eq act act :=
  fun _ _ hr => hr ▸ ⟨.refl _, rfl⟩

theorem tracks_pure {a : α} {b : β} (h : A a b) :
    Tracks (ε := ε) R A (pure a) (pure b) :=
  fun _ _ hr => ⟨.ok h, hr⟩

theorem tracks_throw (e : ε) : Tracks R A (throw e : Act σ ε α) (throw e : Act τ ε β) :=
  fun _ _ hr => ⟨.error e, hr⟩

theorem tracks_known {answer : Except ε' α} {other : Except ε' β} (fault : ε' → ε)
    (h : Agree A answer other) : Tracks R A (known fault answer) (known fault other) := by
  cases h with
  | ok h => exact tracks_pure h
  | error e => exact tracks_throw (fault e)

theorem tracks_look {f : σ → α} {g : τ → β}
    (h : ∀ world image, R world image → A (f world) (g image)) :
    Tracks (ε := ε) R A (look f) (look g) :=
  fun world image hr => ⟨.ok (h world image hr), hr⟩

theorem tracks_change {f : σ → σ} {g : τ → τ}
    (h : ∀ world image, R world image → R (f world) (g image)) :
    Tracks (ε := ε) R Eq (change f) (change g) :=
  fun world image hr => ⟨.ok rfl, h world image hr⟩

/-- One action after another tracks the like. -/
theorem tracks_bind {act : Act σ ε α} {other : Act τ ε β} {next : α → Act σ ε α'}
    {then' : β → Act τ ε β'} (h : Tracks R A act other)
    (hnext : ∀ a b, A a b → Tracks R A' (next a) (then' b)) :
    Tracks R A' (act >>= next) (other >>= then') := by
  intro world image hr
  obtain ⟨ha, hr'⟩ := h world image hr
  rw [on_bind, on_bind]
  cases hw : act.on world with
  | mk answer after =>
    cases hi : other.on image with
    | mk answer' after' =>
      rw [hw, hi] at ha hr'
      cases ha with
      | ok hab => exact hnext _ _ hab after after' hr'
      | error e => exact ⟨.error e, hr'⟩

/-- Where the first actions give the same answer, what follows need only track for that one. -/
theorem tracks_bind_eq {act : Act σ ε α} {other : Act τ ε α} {next : α → Act σ ε α'}
    {then' : α → Act τ ε β'} (h : Tracks R Eq act other)
    (hnext : ∀ a, Tracks R A' (next a) (then' a)) :
    Tracks R A' (act >>= next) (other >>= then') := by
  refine tracks_bind h fun a _ ha => ?_
  subst ha
  exact hnext a

/-- Actions on parts of larger worlds track each other if the parts are put back alike. -/
theorem tracks_within {S : σ' → τ' → Prop} {act : Act σ ε' α} {other : Act τ ε' β}
    {part : σ' → σ} {put : σ' → σ → σ'} {part' : τ' → τ} {put' : τ' → τ → τ'} (fault : ε' → ε)
    (h : Tracks R A act other) (hpart : ∀ world image, S world image → R (part world) (part' image))
    (hput : ∀ world image inner inner', S world image → R inner inner' →
      S (put world inner) (put' image inner')) :
    Tracks S A (act.within part put fault) (other.within part' put' fault) := by
  intro world image hs
  obtain ⟨ha, hr⟩ := h _ _ (hpart world image hs)
  rw [on_within, on_within]
  cases hw : act.on (part world) with
  | mk answer after =>
    cases hi : other.on (part' image) with
    | mk answer' after' =>
      rw [hw, hi] at ha hr
      have hs' := hput world image after after' hs hr
      cases ha with
      | ok hab => exact ⟨.ok hab, hs'⟩
      | error e => exact ⟨.error (fault e), hs'⟩

end Act

end Storyline
