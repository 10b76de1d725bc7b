import Mathlib.Data.List.Chain
import Mathlib.Data.List.Perm.Subperm
import Storyline.Proofs.Run.Reach

/-!
# Storyline.Proofs.Run.Acyclic

Acyclic episodes end.  Each call that leads on goes to a successor of the node the run
stands at, so where no node that a run can reach leads back to itself, the nodes it goes
through are all different, and there are no more of them than the episode has.  A call that
answers either leads on or waits for a choice, and it never waits twice in a row: so after
finitely many calls the run has ended, or a call stops.
-/

namespace Storyline

theorem Episode.mem_names_of_node? {e : Episode} {id : String} {node : Node}
    (h : e.node? id = some node) : id ∈ e.nodes.names :=
  List.mem_map_of_mem (Table.find?_eq_some_iff.1 h)

/-- No node that is reached from an id leads back to itself. -/
def Episode.Acyclic (e : Episode) (id : String) : Prop :=
  ∀ reached, Relation.ReflTransGen e.Leads id reached → ¬Relation.TransGen e.Leads reached reached

/-- An episode is acyclic if every node is of a higher rank than its successors. -/
theorem Episode.acyclic_of_rank {e : Episode} (rank : String → Nat)
    (falls : ∀ entry ∈ e.nodes.entries, ∀ next ∈ entry.2.successors, rank next < rank entry.1)
    (id : String) : e.Acyclic id := by
  have hleads : ∀ here next, e.Leads here next → rank next < rank here := by
    rintro here next ⟨-, node, hnode, hnext⟩
    exact falls _ (Table.find?_eq_some_iff.1 hnode) next hnext
  intro reached _ cycle
  have hfalls : Relation.TransGen (· > ·) (rank reached) (rank reached) := cycle.lift rank hleads
  rw [Relation.transGen_eq_self] at hfalls
  exact Nat.lt_irrefl _ hfalls

/-- The nodes of a path through an acyclic episode are all different. -/
theorem Episode.Acyclic.nodup {e : Episode} {id : String} (acyclic : e.Acyclic id)
    {path : List String} (chain : (id :: path).IsChain e.Leads) : (id :: path).Nodup := by
  have forward : (id :: path).Pairwise (Relation.TransGen e.Leads) :=
    List.isChain_iff_pairwise.1 (chain.imp fun _ _ => Relation.TransGen.single)
  have reached : ∀ node ∈ id :: path, Relation.ReflTransGen e.Leads id node := by
    intro node hnode
    rcases List.mem_cons.1 hnode with rfl | hnode
    · exact .refl
    · exact (List.rel_of_pairwise_cons forward hnode).to_reflTransGen
  refine forward.imp_of_mem fun {a b} ha _ hab => ?_
  rintro rfl
  exact acyclic a (reached a ha) hab

namespace Stage

variable {σ ε : Type} {host : Host σ ε} {e : Episode} {s : Stage σ}

/-- The node that a call has left for another, if it has. -/
def Passage.departed? (p : Passage σ ε) : Option String :=
  p.next?.map fun _ => p.before.run.current

/-- The nodes that calls leave for others, in order. -/
def departures (host : Host σ ε) (made : List Call) (s : Stage σ) : List String :=
  (passages host made s).filterMap Passage.departed?

theorem departures_cons (host : Host σ ε) (c : Call) (rest : List Call) (s : Stage σ) :
    departures host (c :: rest) s =
      (passage host c s).departed?.toList ++ departures host rest (passage host c s).after := by
  rw [departures, passages, List.filterMap_cons]
  cases (passage host c s).departed? <;> rfl

/-- Only nodes of the episode are left. -/
theorem departures_subset_names (grounded : s.run.Grounded e) (host : Host σ ε)
    (made : List Call) : departures host made s ⊆ e.nodes.names := by
  intro id hid
  obtain ⟨p, hp, hid⟩ := List.mem_filterMap.1 hid
  obtain ⟨next, hnext, rfl⟩ := Option.map_eq_some_iff.1 hid
  obtain ⟨heq, hgrounded⟩ := forall_passages (P := fun s => s.run.Grounded e)
    (fun _ c h => grounded_call h host c) grounded p hp
  rw [heq] at hnext
  obtain ⟨hnone, -⟩ | ⟨_, -, -, -, node, hnode, -⟩ := passage_leads hgrounded host p.call
  · rw [hnone] at hnext
    cases hnext
  · exact Episode.mem_names_of_node? hnode

/-- The nodes that are left, and the one where the run stands in the end, are the one where it
started and those that were led to. -/
theorem departures_concat (grounded : s.run.Grounded e) (host : Host σ ε) (made : List Call) :
    departures host made s ++ [(calls host made s).2.run.current] =
      s.run.current :: arrivals host made s := by
  induction made generalizing s with
  | nil => rfl
  | cons c rest ih =>
    have hrest := ih (s := (passage host c s).after) (grounded_call grounded host c)
    have hcalls : (calls host (c :: rest) s).2 = (calls host rest (passage host c s).after).2 := rfl
    rw [departures_cons, arrivals_cons, List.append_assoc, hcalls, hrest, Passage.departed?]
    obtain ⟨hnone, hstays⟩ | ⟨next, hsome, harrives, -⟩ := passage_leads grounded host c
    · rw [hnone, hstays]
      rfl
    · rw [hsome, harrives]
      rfl

/-- In an acyclic episode the nodes that are left are all different, and the run does not stand
at one of them in the end. -/
theorem nodup_departures (grounded : s.run.Grounded e) (acyclic : e.Acyclic s.run.current)
    (host : Host σ ε) (made : List Call) :
    (departures host made s).Nodup ∧
      (calls host made s).2.run.current ∉ departures host made s := by
  have hnodup := acyclic.nodup (isChain_arrivals grounded host made)
  rw [← departures_concat grounded, List.nodup_append] at hnodup
  obtain ⟨hnodup, -, hdisjoint⟩ := hnodup
  exact ⟨hnodup, fun hmem => hdisjoint _ hmem _ (List.mem_singleton_self _) rfl⟩

/-! ## How long a run goes on -/

/-- One while the run waits for a choice, else nothing. -/
def waits (s : Stage σ) : Nat := if s.run.status = .awaitingChoice then 1 else 0

theorem waits_le_one (s : Stage σ) : waits s ≤ 1 := by
  rw [waits]
  split <;> decide

/-- A call that answers leads on, or makes a run wait that did not. -/
theorem waits_of_answer {c : Call} (answer : ((call host c).on s).1.isOk = true) :
    1 + waits s ≤
      2 * (passage host c s).departed?.toList.length + waits (passage host c s).after := by
  have hwaits := waits_le_one s
  have h := outcome_call (spares_nothing host) c s
  rw [Passage.departed?, Passage.next?, passage]
  generalize (call host c).on s = came at h answer ⊢
  cases h with
  | stopped reason spared => cases answer
  | suspended intends spared =>
    cases intends with
    | suspend running found offer => simp [waits, running]
  | unsaved intends => cases answer
  | moved intends spared encoded written =>
    simp only [Option.map_some, Option.toList_some, List.length_singleton]
    omega

/-- Calls that all answer lead on at least every other time. -/
theorem length_le_departures {made : List Call}
    (answers : ∀ answer ∈ (calls host made s).1, answer.isOk = true) :
    made.length + waits s ≤ 2 * (departures host made s).length + waits (calls host made s).2 := by
  induction made generalizing s with
  | nil => simp [calls, departures, passages]
  | cons c rest ih =>
    rw [calls, List.forall_mem_cons] at answers
    have hfirst := waits_of_answer answers.1
    have hrest := ih (s := (passage host c s).after) answers.2
    have hcalls : (calls host (c :: rest) s).2 = (calls host rest (passage host c s).after).2 := rfl
    rw [departures_cons, List.length_append, List.length_cons, hcalls]
    omega

/-- In an acyclic episode a run leaves no more nodes than there are, and while it waits at one
there is one more. -/
theorem departures_add_waits_le (grounded : s.run.Grounded e) (acyclic : e.Acyclic s.run.current)
    (host : Host σ ε) (made : List Call) :
    (departures host made s).length + waits (calls host made s).2 ≤ e.nodes.size := by
  obtain ⟨hnodup, hnew⟩ := nodup_departures grounded acyclic host made
  have hsubset := departures_subset_names grounded host made
  have hsize : e.nodes.names.length = e.nodes.size := List.length_map _
  rw [waits]
  split
  · next hs =>
    obtain ⟨-, prompt, options, found, -⟩ := (grounded_calls grounded host made).waiting hs
    have hmore := ((List.nodup_cons.2 ⟨hnew, hnodup⟩).subperm
      (List.cons_subset.2 ⟨Episode.mem_names_of_node? found, hsubset⟩)).length_le
    rwa [List.length_cons, hsize] at hmore
  · have hfewer := (hnodup.subperm hsubset).length_le
    rwa [hsize] at hfewer

/-- Calls that all answer are at most twice as many as the nodes of an acyclic episode. -/
theorem length_le_of_acyclic (grounded : s.run.Grounded e) (acyclic : e.Acyclic s.run.current)
    {made : List Call} (answers : ∀ answer ∈ (calls host made s).1, answer.isOk = true) :
    made.length ≤ 2 * e.nodes.size := by
  have hlength := length_le_departures answers
  have hsize := departures_add_waits_le grounded acyclic host made
  omega

/-- If a list of calls all answer, then so does one more, or the run has ended or it stops. -/
theorem answers_concat {made : List Call} {c : Call}
    (answers : ∀ answer ∈ (calls host made s).1, answer.isOk = true)
    (goes : ∀ fault, ((call host c).on (calls host made s).2).1 ≠ .error fault) :
    ∀ answer ∈ (calls host (made ++ [c]) s).1, answer.isOk = true := by
  have hlast : (calls host [c] (calls host made s).2).1 =
      [((call host c).on (calls host made s).2).1] := rfl
  rw [answers_append, List.forall_mem_append, hlast, List.forall_mem_singleton]
  refine ⟨answers, ?_⟩
  cases h : ((call host c).on (calls host made s).2).1 with
  | ok result => rfl
  | error fault => exact absurd h (goes fault)

/-- Acyclic episodes end, wherever a run starts from where no node leads back to itself,
whatever it holds, and whatever calls are made, whether they stop or not.  No node is left
twice, and at most as many are left as the episode has.  However calls go on, the run has ended
or one of them stops after at most two of them for each node. -/
theorem acyclic_run_ends (host : Host σ ε) (gateway : Save.Gateway σ) (e : Episode)
    (node : Option String) (initial : Resources) (acyclic : e.Acyclic (node.getD e.start)) :
    let fresh := start host gateway e node initial
    (∀ made, (departures host made fresh).Nodup ∧
      (departures host made fresh).length ≤ e.nodes.size) ∧
    ∀ made : Nat → Call, ∃ n ≤ 2 * e.nodes.size,
      let first := (List.range n).map made
      let s := (calls host first fresh).2
      (∀ answer ∈ (calls host first fresh).1, answer.isOk = true) ∧
        (s.run.status = .terminated ∨ ∃ fault, ((call host (made n)).on s).1 = .error fault) := by
  intro fresh
  have grounded : fresh.run.Grounded e := .start e node initial
  refine ⟨fun made => ⟨(nodup_departures grounded acyclic host made).1, ?_⟩, fun made => ?_⟩
  · have hsize := departures_add_waits_le grounded acyclic host made
    omega
  · by_contra never
    have answers : ∀ n ≤ 2 * e.nodes.size + 1,
        ∀ answer ∈ (calls host ((List.range n).map made) fresh).1, answer.isOk = true := by
      intro n
      induction n with
      | zero => exact fun _ => nofun
      | succ n ih =>
        intro hn
        have hfirst := ih (by omega)
        rw [List.range_succ, List.map_append]
        refine answers_concat hfirst fun fault hf => never ?_
        exact ⟨n, by omega, hfirst, .inr ⟨fault, hf⟩⟩
    have hlength := length_le_of_acyclic grounded acyclic (answers _ (Nat.le_refl _))
    rw [List.length_map, List.length_range] at hlength
    omega

/-- The ferry lands, though a wrong pick is turned down: the dock and the shore are left, each
once, and no more than four calls can answer. -/
theorem ferry_ends :
    let host := (Rehearsal.inMemory [] []).toHost
    let fresh := start host ⟨none, ⟨Table.empty, 0, 0, [], [], []⟩⟩ ferry none Table.empty
    let landed := [.step, .choose "swim", .choose "pay", .step]
    ferry.Acyclic "dock" ∧ departures host landed fresh = ["dock", "shore"] ∧
      (departures host (landed ++ landed) fresh).Nodup ∧
      ∀ made : Nat → Call, ∃ n ≤ 4,
        let s := (calls host ((List.range n).map made) fresh).2
        s.run.status = .terminated ∨ ∃ fault, ((call host (made n)).on s).1 = .error fault := by
  intro host fresh landed
  have acyclic : ferry.Acyclic "dock" :=
    Episode.acyclic_of_rank (fun id => if id = "dock" then 2 else if id = "shore" then 1 else 0)
      (by decide +kernel) "dock"
  obtain ⟨honce, hends⟩ := acyclic_run_ends host _ ferry none Table.empty acyclic
  refine ⟨acyclic, by decide +kernel, (honce (landed ++ landed)).1, fun made => ?_⟩
  obtain ⟨n, hn, -, hend⟩ := hends made
  exact ⟨n, hn, hend⟩

end Stage

end Storyline
