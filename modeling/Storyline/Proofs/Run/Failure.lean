import Storyline.Proofs.Rehearsal
import Storyline.Proofs.Run.Alike

/-!
# Storyline.Proofs.Run.Failure

Calls that stop for another reason than a save.  They leave the run where it was and
nothing is written, so that the call can be made again once the reason is gone.
-/

namespace Storyline.Stage

variable {σ ε κ : Type}

theorem eq_of_agree {answer other : Except (RunFault ε) Intent}
    (h : Agree (Intent.Like Eq) answer other) : answer = other := by
  cases h with
  | error e => rfl
  | ok h => cases h with
    | suspend events views => rfl
    | move like pending events next => rw [like]

/-- Before a call has settled on something the store is not asked to write. -/
theorem resolve_write (host : Host σ ε) (write : String → String → Act σ ε Unit) (c : Call) :
    resolve { host with write } c = resolve host c := by
  apply Act.ext
  intro s
  have alike : AlikeButSaves Eq Eq { host with write } host :=
    { (Alike.refl host).toAlikeButSaves with }
  have hlike : s.Like Eq Eq s := ⟨⟨rfl, rfl, rfl, rfl, rfl⟩, rfl⟩
  obtain ⟨ha, hs⟩ := tracks_resolve Resources.likeness_eq.tallying alike.upTo c s s hlike
  obtain ⟨world, hw, -⟩ := (quiet_resolve (spares_nothing { host with write }) c).world s
  obtain ⟨world', hw', -⟩ := (quiet_resolve (spares_nothing host) c).world s
  have hworld : world = world' := by
    have h := hs.world
    rw [hw, hw'] at h
    exact h
  exact Prod.ext (eq_of_agree ha) (by rw [hw, hw', hworld])

/-- A call that stops for another reason than a save has only been resolving. -/
theorem resolve_of_failed {host : Host σ ε} {kept : σ → κ} (spares : Spares host kept) {c : Call}
    {s after : Stage σ} {fault : RunFault ε} (h : (call host c).on s = (.error fault, after))
    (hf : fault.ofSave = false) :
    ∃ world, kept world = kept s.gateway.world ∧
      (resolve host c).on s = (.error fault, s.inWorld world) ∧ after = s.inWorld world := by
  obtain ⟨world, hk, ⟨other, -, hr, hc⟩ | ⟨intent, -, -, hc⟩⟩ := call_cases spares c s
  · rw [hc] at h
    cases h
    exact ⟨world, hk, hr, rfl⟩
  · rw [hc] at h
    rw [commit_fault h] at hf
    cases hf

/-- A call that stops for another reason than a save leaves the run and the last record as
they were.  Nothing is written: it would have come to the same with any other way to write,
and what only saves touch is untouched.  Once the reason is gone, by a change of the host or
of the run, the same call comes to what it would have come to in the first place. -/
theorem failed_call_leaves_run {host : Host σ ε} {kept : σ → κ} (spares : Spares host kept)
    {c : Call} {s after : Stage σ} {fault : RunFault ε}
    (h : (call host c).on s = (.error fault, after)) (hf : fault.ofSave = false) :
    after.run = s.run ∧ after.gateway.last = s.gateway.last ∧
      kept after.gateway.world = kept s.gateway.world ∧
      (∀ write, (call { host with write } c).on s = (.error fault, after)) ∧
      ∀ (later : Host σ ε) (rel : σ → σ → Prop) (edit : Run → Run),
        Alike Eq rel later later → rel after.gateway.world s.gateway.world →
        ((call later c).on { after with run := edit after.run }).1 =
            ((call later c).on { s with run := edit s.run }).1 ∧
          ((call later c).on { after with run := edit after.run }).2.run =
            ((call later c).on { s with run := edit s.run }).2.run ∧
          rel ((call later c).on { after with run := edit after.run }).2.gateway.world
            ((call later c).on { s with run := edit s.run }).2.gateway.world := by
  obtain ⟨world, hk, hr, rfl⟩ := resolve_of_failed spares h hf
  have hwrite : ∀ write, (call { host with write } c).on s = (.error fault, s.inWorld world) := by
    intro write
    rw [call_eq, Act.on_bind, resolve_write, hr]
  refine ⟨rfl, rfl, hk, hwrite, ?_⟩
  intro later rel edit alike hrel
  have hedited : Like Eq rel { s.inWorld world with run := edit (s.inWorld world).run }
      { s with run := edit s.run } := ⟨⟨rfl, rfl, rfl, rfl, rfl⟩, hrel⟩
  obtain ⟨ha, hlike⟩ := tracks_call Resources.likeness_eq alike c _ _ hedited
  exact ⟨Agree.eq_iff.1 ha, hlike.run.eq, hlike.world⟩

/-- An ending as the only node. -/
def lastPage : Episode :=
  ⟨"last-page", "Last page", "fin", Table.ofList [("fin", .ending none none)]⟩

/-- The host crashes at the last event of an ending. -/
theorem crashed_ending_leaves_run :
    let host := (Rehearsal.inMemory [] ["EpisodeEndedEvent"]).toHost
    let s := Rehearsal.opening lastPage (Table.ofList [("runes", .number (.int 3))]) [] []
    let after := ((call host .step).on s).2
    ((call host .step).on s).1 = .error (.host .crash) ∧ after.run = s.run ∧
      after.gateway.world.saved = s.gateway.world.saved := by
  have h : ((call (Rehearsal.inMemory [] ["EpisodeEndedEvent"]).toHost .step).on
      (Rehearsal.opening lastPage (Table.ofList [("runes", .number (.int 3))]) [] [])).1 =
      .error (.host .crash) := by decide +kernel
  have spares := Rehearsal.saved_inMemory [] ["EpisodeEndedEvent"]
  have hleft := failed_call_leaves_run spares (Act.eq_of_answer h) rfl
  exact ⟨h, hleft.1, hleft.2.2.1⟩

end Storyline.Stage
