import Storyline.Proofs.Run.Alike
import Storyline.Rehearsal

/-!
# Storyline.Proofs.Rehearsal

What a rehearsal does to its own progress.  Only saves touch the store and the count
of the writes.  Two rehearsals of one script are in step while they have the same left of
it, whatever they have written.
-/

namespace Storyline.Rehearsal

variable {τ ε : Type}

theorem on_render (script : Script) (event : Event) (p : Progress τ) :
    (render script event : Act (Progress τ) (Fault ε) (Option String)).on p =
      (if script.unplayable.contains event.kindName then .ok (some "playback failed")
        else if script.crashing.contains event.kindName then .error .crash
        else .ok none, { p with cues := .rendered event :: p.cues }) := by
  simp only [render, cue, Act.on_bind, Act.on_change]
  by_cases hu : script.unplayable.contains event.kindName
  · simp only [if_pos hu, Act.on_pure]
  · by_cases hc : script.crashing.contains event.kindName
    · simp only [if_neg hu, if_pos hc, Act.on_bind, Act.on_throw]
    · simp only [if_neg hu, if_neg hc, Act.on_pure]

theorem on_minigame (game : String) (resources : Resources) (p : Progress τ) :
    (minigame game resources : Act (Progress τ) (Fault ε) Bool).on p =
      match p.outcomes with
      | [] => (.error .noOutcome, { p with cues := .contested game resources :: p.cues })
      | won :: rest =>
        (.ok won, { p with outcomes := rest, cues := .contested game resources :: p.cues }) := by
  simp only [minigame, cue, Act.on_bind, Act.on_change, Act.on_look]
  cases p.outcomes <;> rfl

theorem on_write (script : Script) (inner : Save.Store τ ε) (key text : String) (p : Progress τ) :
    (write script inner key text).on p =
      if script.failingWrites.contains p.writes then
        (.error .diskFull, { p with writes := p.writes + 1, cues := .writeFailed key :: p.cues })
      else
        match (inner.write key text).on p.store with
        | (.ok (), store) =>
          (.ok (), { p with store, writes := p.writes + 1, cues := .written key text :: p.cues })
        | (.error fault, store) =>
          (.error (.store fault), { p with store, writes := p.writes + 1 }) := by
  simp only [write, ofStore, cue, Act.on_bind, Act.on_change, Act.on_look]
  by_cases hf : script.failingWrites.contains p.writes
  · simp only [if_pos hf, Act.on_bind, Act.on_change, Act.on_throw]
  · simp only [if_neg hf, Act.on_bind, Act.on_within]
    cases (inner.write key text).on p.store with
    | mk answer store => cases answer <;> rfl

/-- A rehearsal of an episode over a store in memory, before its first step. -/
def opening (e : Episode) (resources : Resources) (outcomes : List Bool) (picks : List Pick) :
    Stage (Progress (Table String)) where
  run := Run.start e none resources
  gateway := ⟨none, ⟨Table.empty, 0, 0, outcomes, picks, []⟩⟩

/-- The host of a rehearsal over a store in memory, which decides minigames. -/
def inMemory (failingWrites : List Nat) (crashing : List String) :
    Player (Progress (Table String)) (Fault Empty) :=
  player ⟨failingWrites, [], crashing, true, none⟩ Save.memoryStore

/-- Two rehearsals have come to where the same outcomes are left, the same is stored and
the same saves to come go wrong. -/
structure Progress.Even (script script' : Script) (p q : Progress τ) : Prop where
  store : p.store = q.store
  outcomes : p.outcomes = q.outcomes
  failing : ∀ k, script.failingWrites.contains (p.writes + k) =
    script'.failingWrites.contains (q.writes + k)

/-- From there on they are alike if they show events alike. -/
theorem alike_of_even {E : Resources → Resources → Prop} {script script' : Script}
    (inner : Save.Store τ ε) (unplayable : script.unplayable = script'.unplayable)
    (crashing : script.crashing = script'.crashing)
    (decides : script.decidesMinigames = script'.decidesMinigames) :
    Alike E (Progress.Even script script') (player script inner).toHost
      (player script' inner).toHost where
  render event p q h := by
    show Agree Eq ((render script event).on p).1 ((render script' event).on q).1 ∧
      Progress.Even script script' ((render script event).on p).2 ((render script' event).on q).2
    rw [on_render, on_render, unplayable, crashing]
    exact ⟨.refl _, h.store, h.outcomes, h.failing⟩
  minigame := by
    simp only [player, decides]
    split
    · refine .some fun game r s _ p q h => ?_
      rw [on_minigame, on_minigame, h.outcomes]
      cases q.outcomes with
      | nil => exact ⟨.refl _, h.store, rfl, h.failing⟩
      | cons won rest => exact ⟨.refl _, h.store, rfl, h.failing⟩
    · exact .none
  write key text p q h := by
    have hfailing : script.failingWrites.contains p.writes =
        script'.failingWrites.contains q.writes := h.failing 0
    have hnext : ∀ k, script.failingWrites.contains (p.writes + 1 + k) =
        script'.failingWrites.contains (q.writes + 1 + k) := by
      intro k
      rw [Nat.add_assoc, Nat.add_assoc]
      exact h.failing (1 + k)
    show Agree Eq ((write script inner key text).on p).1 ((write script' inner key text).on q).1 ∧
      Progress.Even script script' ((write script inner key text).on p).2
        ((write script' inner key text).on q).2
    rw [on_write, on_write, hfailing, h.store]
    split
    · exact ⟨.refl _, rfl, h.outcomes, hnext⟩
    · cases (inner.write key text).on q.store with
      | mk answer store =>
        cases answer <;> exact ⟨.refl _, rfl, h.outcomes, hnext⟩
  note n p q h := ⟨congrArg (inner.note n) h.store, h.outcomes, h.failing⟩

/-- Two rehearsals have come to where as many saves were tried and the same outcomes are left. -/
structure Progress.InStep (p q : Progress τ) : Prop where
  writes : p.writes = q.writes
  outcomes : p.outcomes = q.outcomes

/-- From there on they are alike whatever texts they save, if they follow one script and the
store takes every text. -/
theorem alikeUpTo_of_inStep {E : Resources → Resources → Prop} {W : String → String → Prop}
    (script : Script) {inner : Save.Store τ ε}
    (takes : ∀ key text store, ∃ after, (inner.write key text).on store = (.ok (), after)) :
    AlikeUpTo E Progress.InStep Eq W (player script inner).toHost (player script inner).toHost where
  render event p q h := by
    show Agree Eq ((render script event).on p).1 ((render script event).on q).1 ∧
      Progress.InStep ((render script event).on p).2 ((render script event).on q).2
    rw [on_render, on_render]
    exact ⟨.refl _, h.writes, h.outcomes⟩
  shown event shown shown' _ p q h := by
    cases shown <;> cases shown' <;> exact ⟨h.writes, h.outcomes⟩
  minigame := by
    simp only [player]
    split
    · refine .some fun game r s _ p q h => ?_
      rw [on_minigame, on_minigame, h.outcomes]
      cases q.outcomes with
      | nil => exact ⟨.refl _, h.writes, rfl⟩
      | cons won rest => exact ⟨.refl _, h.writes, rfl⟩
    · exact .none
  note n p q h := ⟨h.writes, h.outcomes⟩
  write key text text' _ p q h := by
    show Agree Eq ((write script inner key text).on p).1
        ((write script inner key text').on q).1 ∧
      Progress.InStep ((write script inner key text).on p).2 ((write script inner key text').on q).2
    have hnext : p.writes + 1 = q.writes + 1 := congrArg (· + 1) h.writes
    obtain ⟨after, hafter⟩ := takes key text p.store
    obtain ⟨after', hafter'⟩ := takes key text' q.store
    rw [on_write, on_write, hafter, hafter', h.writes]
    split
    · exact ⟨.refl _, rfl, h.outcomes⟩
    · exact ⟨.refl _, rfl, h.outcomes⟩

/-- What only saves touch: the store and the count of the writes. -/
def Progress.saved (p : Progress τ) : τ × Nat := (p.store, p.writes)

/-- A rehearsal leaves its store alone but for saves, if no note goes into the store. -/
theorem spares_saved (script : Script) {inner : Save.Store τ ε}
    (silent : ∀ n world, inner.note n world = world) :
    Stage.Spares (player script inner).toHost Progress.saved where
  render event p := by
    show Progress.saved ((render script event).on p).2 = _
    rw [on_render]
    rfl
  minigame decide hd game resources p := by
    simp only [player] at hd
    split at hd
    · cases hd
      rw [on_minigame]
      cases p.outcomes <;> rfl
    · cases hd
  note n p := by
    show (inner.note n p.store, p.writes) = _
    rw [silent]
    rfl

/-- The store of a rehearsal keeps what the one beneath it keeps. -/
theorem store_keeps (script : Script) {inner : Save.Store τ ε} {key : String}
    {held : τ → Option String} (keeps : inner.Keeps key held) :
    (store script inner).Keeps key fun p => held p.store where
  read p text h := by
    obtain ⟨after, hread, hheld⟩ := keeps.read p.store text h
    refine ⟨{ p with store := after }, ?_, hheld⟩
    show (ofStore (inner.read key)).on p = _
    rw [ofStore, Act.on_within, hread]
  write p after text plain h := by
    replace h : (Rehearsal.write script inner key text).on p = (.ok (), after) := h
    rw [on_write] at h
    split at h
    · cases h
    · split at h
      · next kept hwrite =>
        cases h
        exact keeps.write p.store kept text plain hwrite
      · cases h

/-- Its texts are in a table if those of the one beneath it are: a write that goes wrong does
not reach it. -/
theorem store_tabled (script : Script) {inner : Save.Store τ ε} {texts : τ → Table String}
    (tabled : inner.Tabled texts) : (store script inner).Tabled fun p => texts p.store where
  read key p := by
    obtain ⟨after, hread, htexts⟩ := tabled.read key p.store
    refine ⟨{ p with store := after }, ?_, htexts⟩
    show (ofStore (inner.read key)).on p = _
    rw [ofStore, Act.on_within, hread]
  taken key text p after h := by
    replace h : (write script inner key text).on p = (.ok (), after) := h
    rw [on_write] at h
    split at h
    · cases h
    · split at h
      · next kept hwrite =>
        cases h
        exact tabled.taken key text p.store kept hwrite
      · cases h
  refused key text p fault after h := by
    replace h : (write script inner key text).on p = (.error fault, after) := h
    rw [on_write] at h
    split at h
    · cases h
      rfl
    · split at h
      · cases h
      · next refusal kept hwrite =>
        cases h
        exact tabled.refused key text p.store refusal kept hwrite
  note n p := tabled.note n p.store

/-- A write that the script lets be goes as it goes in the store beneath. -/
theorem store_takes {script : Script} {inner : Save.Store τ ε} {key text : String} {p : Progress τ}
    {kept : τ} (spared : script.failingWrites.contains p.writes = false)
    (h : (inner.write key text).on p.store = (.ok (), kept)) :
    ∃ after, ((store script inner).write key text).on p = (.ok (), after) := by
  refine ⟨⟨kept, p.writes + 1, p.pauses, p.outcomes, p.picks, .written key text :: p.cues⟩, ?_⟩
  show (write script inner key text).on p = _
  rw [on_write, if_neg (by rw [spared]; decide), h]

section InMemory

variable (failingWrites : List Nat) (crashing : List String) (key : String)

theorem keeps_inMemory :
    (inMemory failingWrites crashing).toStore.Keeps key fun p => p.store.find? key :=
  store_keeps _ (Save.memoryStore_keeps key)

theorem saved_inMemory :
    Stage.Spares (inMemory failingWrites crashing).toHost Progress.saved :=
  spares_saved _ fun _ _ => rfl

theorem spares_inMemory :
    Stage.Spares (inMemory failingWrites crashing).toHost fun p => p.store.find? key :=
  (saved_inMemory failingWrites crashing).map fun saved => saved.1.find? key

end InMemory

end Storyline.Rehearsal
