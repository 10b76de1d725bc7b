import Storyline.Proofs.Rehearsal
import Storyline.Proofs.Run.Trace
import Storyline.Proofs.Save.Codec

/-!
# Storyline.Proofs.Run.Tally

A resource that was never set counts as zero, and a run cannot tell it from one that holds a
zero.  Nor can it tell in which order the resources came in.  Two runs of an episode whose
resources tally at the start therefore stay in step: the same calls answer the same and make
the same reach the host, up to the zeros that are written into the saves, and the resources
tally at every moment.
-/

namespace Storyline

namespace Resources

variable {r s : Resources}

/-- What is held by resources that tally is the same, but for zeros. -/
theorem Tally.holds {P : Json → Prop} (h : r.Tally s) (zero : P unset) (each : r.Holds P) :
    s.Holds P := by
  intro name held hf
  obtain hsame | ⟨-, hs⟩ | ⟨-, hs⟩ := tally_iff.1 h name
  · exact each name held (hsame.trans hf)
  · simp [hs] at hf
  · rw [hs] at hf
    cases hf
    exact zero

theorem Tally.symm (h : r.Tally s) : s.Tally r := fun name => (h name).symm

theorem writable_unset : unset.Writable := ⟨['0'], by decide +kernel⟩

end Resources

namespace Save.Record

/-- Two records differ at most in zeros that only one of them keeps. -/
structure SameButZeros (r s : Record) : Prop where
  episode : r.episode = s.episode
  node : r.node = s.node
  version : r.version = s.version
  resources : ∀ name, r.resources.find? name = s.resources.find? name ∨
    r.resources.find? name = some Resources.unset ∧ s.resources.find? name = none ∨
    r.resources.find? name = none ∧ s.resources.find? name = some Resources.unset

/-- Two texts are those of records that differ at most in zeros that only one of them keeps. -/
def TextsButZeros (text text' : String) : Prop :=
  ∃ r s : Record, r.text = .ok text ∧ s.text = .ok text' ∧ r.SameButZeros s

end Save.Record

open Save.Record (TextsButZeros exists_text_iff text_fault)

/-- Resources that tally are saved as such texts, or neither can be saved. -/
theorem savedAlong_tally : SavedAlong Resources.Tally TextsButZeros := by
  intro episode node r s h
  have hwritable : r.Holds Json.Writable ↔ s.Holds Json.Writable :=
    ⟨h.holds Resources.writable_unset, h.symm.holds Resources.writable_unset⟩
  have hsome : (∃ text, Save.Record.text ⟨episode, node, r, .whole⟩ = .ok text) ↔
      ∃ text, Save.Record.text ⟨episode, node, s, .whole⟩ = .ok text := by
    rw [exists_text_iff, exists_text_iff]
    exact hwritable
  cases hr : Save.Record.text ⟨episode, node, r, .whole⟩ with
  | ok text =>
    obtain ⟨text', hs⟩ := hsome.1 ⟨text, hr⟩
    rw [hs]
    exact .ok ⟨_, _, hr, hs, rfl, rfl, rfl, Resources.tally_iff.1 h⟩
  | error fault =>
    cases hs : Save.Record.text ⟨episode, node, s, .whole⟩ with
    | ok text =>
      obtain ⟨text', hr'⟩ := hsome.2 ⟨text, hs⟩
      rw [hr] at hr'
      cases hr'
    | error fault' =>
      rw [text_fault hr, text_fault hs]
      exact .error _

namespace Stage

variable {σ τ ε : Type}

/-- A resource that was never set and one that holds zero cannot be told apart, nor can the
order in which the resources came in.  Whatever calls are made on two runs of an episode whose
resources tally at the start, on hosts that answer alike: they answer the same or stop for the
same reasons, the same reaches the hosts in the same order but for the saves, which differ at
most in zeros that only one of them keeps, and the runs stand at the same node in the same
status with the same options on offer, and their resources tally. -/
theorem zeros_make_no_difference {host : Host σ ε} {other : Host τ ε} {rel : σ → τ → Prop}
    (alike : AlikeUpTo Resources.Tally rel Eq TextsButZeros host other) (e : Episode)
    (node : Option String) {r s : Resources} (tally : r.Tally s) {g : Save.Gateway σ}
    {g' : Save.Gateway τ}
    (begun : rel (start host g e node r).gateway.world (start other g' e node s).gateway.world)
    (made : List Call) :
    let first := start host g e node r
    let second := start other g' e node s
    (calls host made first).1 = (calls other made second).1 ∧
      List.Forall₂ (Trace.Along TextsButZeros) (trace host made first)
        (trace other made second) ∧
      (calls host made first).2.run.Like Resources.Tally (calls other made second).2.run := by
  intro first second
  have start : first.Like Resources.Tally rel second := ⟨⟨rfl, rfl, rfl, rfl, tally⟩, begun⟩
  obtain ⟨hanswers, hlike⟩ :=
    calls_alike_upTo Resources.tallying_tally savedAlong_tally alike made start
  exact ⟨hanswers, trace_alike_upTo Resources.tallying_tally savedAlong_tally alike made start,
    hlike.run⟩

/-- A market where an apple is sold on credit. -/
def market : Episode := ⟨"market", "The market", "gate", Table.ofList [
  ("gate", .check (some (Table.ofList [("coins", .int 0)])) "stall" "home"),
  ("stall", .choice "An apple?" [
    ⟨"buy", "Buy", "home", some (Table.ofList [("apples", .int 1), ("coins", .int (-1))]),
      some (Table.ofList [("debts", .int 0)]), none⟩]),
  ("home", .ending (some "Coins: {coins}, pears: {pears}") none)]⟩

/-- The apple is bought alike with an empty purse and with one that holds zeros, though the
texts that are saved differ. -/
theorem market_with_empty_purse :
    let host := (Rehearsal.inMemory [] []).toHost
    let gateway : Save.Gateway (Rehearsal.Progress (Table String)) :=
      ⟨none, ⟨Table.empty, 0, 0, [], [], []⟩⟩
    let purse : Resources := Table.ofList [("pears", .number (.int 0)), ("coins", .number (.int 0))]
    let empty := start host gateway market none Table.empty
    let zeros := start host gateway market none purse
    let made := [.step, .step, .choose "buy", .step]
    (calls host made empty).1 = (calls host made zeros).1 ∧
      (calls host made empty).1.map Except.isOk = [true, true, true, true] ∧
      List.Forall₂ (Trace.Along TextsButZeros) (trace host made empty)
        (trace host made zeros) ∧
      trace host made empty ≠ trace host made zeros ∧
      (calls host made empty).2.run.Like Resources.Tally (calls host made zeros).2.run := by
  intro host gateway purse empty zeros made
  have takes : ∀ key text texts, ∃ after,
      ((Save.memoryStore (ε := Empty)).write key text).on texts = (.ok (), after) :=
    fun key text texts => ⟨texts.insert key text, rfl⟩
  have alike : AlikeUpTo Resources.Tally Rehearsal.Progress.InStep Eq TextsButZeros host host :=
    Rehearsal.alikeUpTo_of_inStep ⟨[], [], [], true, none⟩ takes
  have tally : Resources.Tally Table.empty purse := by
    intro name
    simp only [purse, Table.ofList, Table.insertAll, List.foldl, Resources.value_insert]
    split
    · rfl
    · split <;> rfl
  have begun : Rehearsal.Progress.InStep (start host gateway market none Table.empty).gateway.world
      (start host gateway market none purse).gateway.world := ⟨rfl, rfl⟩
  obtain ⟨hanswers, htrace, hlike⟩ :=
    zeros_make_no_difference alike market none tally begun made
  have answered : (calls host made empty).1.map Except.isOk = [true, true, true, true] := by
    decide +kernel
  have differ : trace host made empty ≠ trace host made zeros := by decide +kernel
  have hempty : start host gateway market none Table.empty = empty := rfl
  have hzeros : start host gateway market none purse = zeros := rfl
  rw [hempty, hzeros] at hlike
  exact ⟨hanswers, answered, htrace, differ, hlike⟩

end Stage

end Storyline
