import Mathlib.Data.List.Chain
import Storyline.Proofs.Run.Resume
import Storyline.Proofs.Run.Status

/-!
# Storyline.Proofs.Run.Mirror

The save mirrors the run.  A call that leads to a node makes one write reach the store, the
record of that node with the resources as they are then, and any other call makes none.  So
what is saved last is where the run stands, and the nodes that were saved are a path
through the episode.
-/

namespace Storyline

/-- The key and the text that a step of a trace writes, if it is a write. -/
def Trace.write? : Trace → Option (String × String)
  | .written key text => some (key, text)
  | _ => none

/-- A node that a run may leave for another: it is not the empty one, and it names the other
among its successors. -/
def Episode.Leads (e : Episode) (id next : String) : Prop :=
  id ≠ "" ∧ ∃ node, e.node? id = some node ∧ next ∈ node.successors

/-- A write mirrors a record: it goes to the automatic slot, and its text is read as that
record, the resources taken as a mapping. -/
def Mirrors (ε : Type) (write : String × String) (record : Save.Record) : Prop :=
  write.1 = Save.autoKey ∧
    ∃ back, Save.readRecord (ε := ε) 0 write.2 = .ok back ∧ back.Same record

/-! ## Where a run moves on to -/

/-- A node turns only to its successors. -/
theorem mem_successors_of_mem_targets {ε : Type} {id : String} {resources : Resources} {node : Node}
    {beat : Beat} {next : String} (beats : node.beat (ε := ε) id resources = .ok beat)
    (leads : next ∈ beat.turn.targets) : next ∈ node.successors := by
  cases node with
  | assign assignments after =>
    simp only [Node.beat] at beats
    split at beats <;> cases beats
    exact leads
  | check requirement onPass onFail =>
    simp only [Node.beat] at beats
    split at beats <;> cases beats
    rw [Turn.targets, List.mem_singleton] at leads
    rw [leads, Node.successors]
    split <;> simp
  | ending summary save =>
    simp only [Node.beat] at beats
    split at beats <;> cases beats
    exact leads
  | unknown kind => cases beats
  | choice prompt options => cases beats; cases leads
  | _ => cases beats; exact leads

/-- A run that moves on goes to a successor of the node it stands at. -/
theorem Run.Intends.leads {ε : Type} {e : Episode} {r : Run} {c : Call} {resources : Resources}
    {pending : List ChoiceView} {events : List Event} {next : String}
    (h : r.Intends ε c (.move resources pending events next)) (grounded : r.Grounded e) :
    e.Leads r.current next := by
  have hepisode := grounded.episode
  cases h with
  | move running found beats leads =>
    have hcurrent : r.current ≠ "" := grounded.current_ne_empty (by rw [running]; decide)
    exact ⟨hcurrent, _, hepisode ▸ found, mem_successors_of_mem_targets beats leads⟩
  | pick waiting offered met gained =>
    obtain ⟨hcurrent, prompt, options, found, hoptions⟩ := grounded.waiting waiting
    obtain ⟨v, hv, rfl⟩ := Option.map_eq_some_iff.1 offered
    have hmem : v.option ∈ options := hoptions v (List.mem_of_find?_eq_some hv)
    exact ⟨hcurrent, _, found, List.mem_map_of_mem hmem⟩

namespace Stage

variable {σ ε : Type} {host : Host σ ε} {e : Episode} {s : Stage σ}

/-! ## Passages -/

/-- One of the calls made one after the other: the stage before it, its answer, and the stage
after it. -/
structure Passage (σ ε : Type) where
  before : Stage σ
  call : Call
  answer : Except (RunFault ε) StepResult
  after : Stage σ

/-- The passage of a call. -/
def passage (host : Host σ ε) (c : Call) (s : Stage σ) : Passage σ ε :=
  ⟨s, c, ((Stage.call host c).on s).1, ((Stage.call host c).on s).2⟩

/-- The passages of calls made one after the other. -/
def passages (host : Host σ ε) : List Call → Stage σ → List (Passage σ ε)
  | [], _ => []
  | c :: rest, s => passage host c s :: passages host rest (passage host c s).after

/-- What is true of a stage and kept by every call is true before each of them. -/
theorem forall_passages {P : Stage σ → Prop} {made : List Call}
    (keeps : ∀ s c, P s → P ((call host c).on s).2) (start : P s) :
    ∀ p ∈ passages host made s, p = passage host p.call p.before ∧ P p.before := by
  induction made generalizing s with
  | nil =>
    intro p hp
    cases hp
  | cons c rest ih =>
    intro p hp
    rcases List.mem_cons.1 hp with rfl | hp
    · exact ⟨rfl, start⟩
    · exact ih (keeps s c start) p hp

theorem answers_eq (host : Host σ ε) (made : List Call) (s : Stage σ) :
    (calls host made s).1 = (passages host made s).map Passage.answer := by
  induction made generalizing s with
  | nil => rfl
  | cons c rest ih => exact congrArg (_ :: ·) (ih _)

theorem answers_append (host : Host σ ε) (made later : List Call) (s : Stage σ) :
    (calls host (made ++ later) s).1 =
      (calls host made s).1 ++ (calls host later (calls host made s).2).1 := by
  induction made generalizing s with
  | nil => rfl
  | cons c rest ih => exact congrArg (_ :: ·) (ih _)

/-- The node that a call has led to, if it has led to one. -/
def Passage.next? (p : Passage σ ε) : Option String :=
  match p.answer with
  | .ok result => result.next
  | .error _ => none

/-- The nodes that calls lead to, in order. -/
def arrivals (host : Host σ ε) (made : List Call) (s : Stage σ) : List String :=
  (passages host made s).filterMap Passage.next?

theorem arrivals_cons (host : Host σ ε) (c : Call) (rest : List Call) (s : Stage σ) :
    arrivals host (c :: rest) s =
      (passage host c s).next?.toList ++ arrivals host rest (passage host c s).after := by
  rw [arrivals, passages, List.filterMap_cons]
  cases (passage host c s).next? <;> rfl

/-- The record of a call that has led to a node: that node, with the resources right after. -/
def Passage.record? (e : Episode) (p : Passage σ ε) : Option Save.Record :=
  match p.answer with
  | .ok result => result.next.map fun next => ⟨e.id, next, p.after.run.resources, .whole⟩
  | .error _ => none

theorem completed_of_record? {p : Passage σ ε} {record : Save.Record}
    (h : p.record? e = some record) :
    ∃ result, p.answer = .ok result ∧ result.next.isSome = true := by
  rw [Passage.record?] at h
  cases ha : p.answer with
  | error fault => simp [ha] at h
  | ok result =>
    simp only [ha, Option.map_eq_some_iff] at h
    obtain ⟨next, hnext, -⟩ := h
    exact ⟨result, rfl, by rw [hnext]; rfl⟩

/-- The writes that calls make reach the store, in order. -/
def writes (host : Host σ ε) (made : List Call) (s : Stage σ) : List (String × String) :=
  (trace host made s).filterMap Trace.write?

/-- The records of the nodes that calls lead to, in order. -/
def records (host : Host σ ε) (e : Episode) (made : List Call) (s : Stage σ) : List Save.Record :=
  (passages host made s).filterMap (Passage.record? e)

theorem records_cons (host : Host σ ε) (e : Episode) (c : Call) (rest : List Call) (s : Stage σ) :
    records host e (c :: rest) s =
      ((passage host c s).record? e).toList ++ records host e rest (passage host c s).after := by
  rw [records, passages, List.filterMap_cons]
  cases (passage host c s).record? e <;> rfl

theorem writes_cons (host : Host σ ε) (c : Call) (rest : List Call) (s : Stage σ) :
    writes host (c :: rest) s = writes host [c] s ++ writes host rest (passage host c s).after := by
  rw [writes, ← List.singleton_append, trace_append, List.filterMap_append]
  rfl

/-- What is true of a stage and kept by calls that no save stops is true before each of them. -/
theorem passages_induction {P : Stage σ → Prop} {made : List Call}
    (unfailing : ∀ fault, .error fault ∈ (calls host made s).1 → fault.ofSave = false)
    (keeps : ∀ s c, P s → (∀ fault, ((call host c).on s).1 = .error fault →
      fault.ofSave = false) → P ((call host c).on s).2)
    (start : P s) : ∀ p ∈ passages host made s, ∃ before c, p = passage host c before ∧ P before ∧
      ∀ fault, ((call host c).on before).1 = .error fault → fault.ofSave = false := by
  induction made generalizing s with
  | nil =>
    intro p hp
    cases hp
  | cons c rest ih =>
    obtain ⟨hfirst, hrest⟩ := unfailing_cons unfailing
    intro p hp
    rcases List.mem_cons.1 hp with rfl | hp
    · exact ⟨s, c, rfl, start, hfirst⟩
    · exact ih hrest (keeps s c start hfirst) p hp

/-! ## What is written -/

/-- Only saves put writes on a trace. -/
theorem spares_traced_writes (host : Host σ ε) :
    Spares host.traced fun w => w.trace.filterMap Trace.write? where
  render event w := by
    show ((Host.tracing (.shown event) (host.render event)).on w).2.trace.filterMap _ = _
    rw [Host.on_tracing]
    rfl
  minigame decide hd game resources w := by
    obtain ⟨decide, -, rfl⟩ := Option.map_eq_some_iff.1 hd
    rw [Host.on_tracing]
    rfl
  note _ _ := rfl

/-- A call makes a write reach the store just if it leads to a node, and the write mirrors the
record of that node. -/
theorem writes_passage (orderly : s.run.Orderly e) {c : Call}
    (unfailing : ∀ fault, ((call host c).on s).1 = .error fault → fault.ofSave = false) :
    List.Forall₂ (Mirrors ε) (writes host [c] s) ((passage host c s).record? e).toList := by
  obtain rfl := orderly.episode
  obtain ⟨hanswers, hrun, -⟩ := calls_traced host [c] s
  have hanswer : ((call host c).on s).1 = ((call host.traced c).on s.traced).1 :=
    (List.cons.inj hanswers).1
  have hafter : ((call host c).on s).2.run = ((call host.traced c).on s.traced).2.run := hrun
  have hwrites : writes host [c] s =
      (((call host.traced c).on s.traced).2.gateway.world.trace.filterMap
        Trace.write?).reverse := List.filterMap_reverse
  have h := outcome_call (spares_traced_writes host) c s.traced
  rw [hwrites, Passage.record?, passage, hafter]
  simp only [hanswer] at unfailing ⊢
  generalize (call host.traced c).on s.traced = came at h unfailing ⊢
  cases h with
  | stopped reason spared =>
    rw [world_inWorld, spared]
    exact .nil
  | suspended intends spared =>
    simp only [world_inWorld, spared]
    exact .nil
  | unsaved intends => cases unfailing _ rfl
  | @moved resources pending events next text world after intends spared encoded written =>
    have hstore := Host.on_tracing (.written Save.autoKey text) (host.write Save.autoKey text) world
    have htrace : after.trace = .written Save.autoKey text :: world.trace :=
      congrArg (fun came => came.2.trace) (written.symm.trans hstore)
    have hnoted : (movedOn host.traced s.traced.run.current next
        (s.traced.settle resources pending) after).gateway.world.trace = after.trace := by
      rw [movedOn]
      split <;> rfl
    have hone : (after.trace.filterMap Trace.write?).reverse = [(Save.autoKey, text)] := by
      rw [htrace, List.filterMap_cons, spared]
      rfl
    have hread := Save.readRecord_text (ε := ε) (intends.typed orderly.typed)
      (Save.Record.joined_string _) encoded 0
    rw [hnoted, hone]
    exact .cons ⟨rfl, _, hread, Save.Record.inOrder_same _⟩ .nil

/-- So what reaches the store are the records of the nodes that were led to, one by one. -/
theorem writes_calls {made : List Call} (orderly : s.run.Orderly e)
    (unfailing : ∀ fault, .error fault ∈ (calls host made s).1 → fault.ofSave = false) :
    List.Forall₂ (Mirrors ε) (writes host made s) (records host e made s) := by
  induction made generalizing s with
  | nil => exact .nil
  | cons c rest ih =>
    obtain ⟨hfirst, hrest⟩ := unfailing_cons unfailing
    have hmirrors := ih (s := (passage host c s).after) (orderly_call orderly host c) hrest
    rw [writes_cons, records_cons]
    exact List.rel_append (writes_passage orderly hfirst) hmirrors

/-! ## What is saved last -/

/-- The last record that was saved is that of the run as it stands, and it is held. -/
structure Mirrored (ε : Type) (held : σ → Option String) (s : Stage σ) : Prop
    extends Saved ε held s where
  last : s.gateway.last = some (s.run.recordAt s.run.current)

section Mirrored

variable {held : σ → Option String} (keeps : host.toStore.Keeps Save.autoKey held)
  (spares : Spares host held)

include keeps spares

/-- After a call that has led to a node the run is mirrored there. -/
theorem mirrored_of_completed {c : Call} {result : StepResult}
    (answer : ((call host c).on s).1 = .ok result) (completed : result.next.isSome = true) :
    Mirrored ε held ((call host c).on s).2 := by
  refine ⟨saved_of_completed keeps spares answer completed, ?_⟩
  have h := outcome_call spares c s
  generalize (call host c).on s = came at h answer ⊢
  cases h with
  | stopped reason spared => cases answer
  | suspended intends spared => cases answer; cases completed
  | unsaved intends => cases answer
  | moved intends spared encoded written => rfl

/-- Once it is mirrored it stays so, unless a save fails. -/
theorem mirrored_call (orderly : s.run.Orderly e) (mirrored : Mirrored ε held s) {c : Call}
    (unfailing : ∀ fault, ((call host c).on s).1 = .error fault → fault.ofSave = false) :
    Mirrored ε held ((call host c).on s).2 := by
  refine ⟨saved_call keeps spares orderly mirrored.toSaved unfailing, ?_⟩
  have h := outcome_call spares c s
  generalize (call host c).on s = came at h unfailing ⊢
  cases h with
  | stopped reason spared => exact mirrored.last
  | suspended intends spared => exact mirrored.last
  | unsaved intends => cases unfailing _ rfl
  | moved intends spared encoded written => rfl

/-- After calls of which one has led to a node the run is mirrored. -/
theorem mirrored_calls {made : List Call} (orderly : s.run.Orderly e)
    (unfailing : ∀ fault, .error fault ∈ (calls host made s).1 → fault.ofSave = false)
    (h : Mirrored ε held s ∨ records host e made s ≠ []) :
    Mirrored ε held (calls host made s).2 := by
  induction made generalizing s with
  | nil => exact h.resolve_right fun h => h rfl
  | cons c rest ih =>
    obtain ⟨hfirst, hrest⟩ := unfailing_cons unfailing
    refine ih (s := (passage host c s).after) (orderly_call orderly host c) hrest ?_
    rcases h with mirrored | arrived
    · exact .inl (mirrored_call keeps spares orderly mirrored hfirst)
    · rw [records_cons] at arrived
      cases hr : (passage host c s).record? e with
      | none =>
        rw [hr] at arrived
        exact .inr arrived
      | some record =>
        obtain ⟨result, answer, completed⟩ := completed_of_record? hr
        exact .inl (mirrored_of_completed keeps spares answer completed)

end Mirrored

/-! ## The path through the episode -/

/-- A call either leads to a successor of the node the run stands at, and the run then stands
there, or leaves it at its node. -/
theorem passage_leads (grounded : s.run.Grounded e) (host : Host σ ε) (c : Call) :
    (passage host c s).next? = none ∧ (passage host c s).after.run.current = s.run.current ∨
      ∃ next, (passage host c s).next? = some next ∧
        (passage host c s).after.run.current = next ∧ e.Leads s.run.current next := by
  have h := outcome_call (spares_nothing host) c s
  rw [Passage.next?, passage]
  generalize (call host c).on s = came at h ⊢
  cases h with
  | stopped reason spared => exact .inl ⟨rfl, rfl⟩
  | suspended intends spared => exact .inl ⟨rfl, rfl⟩
  | unsaved intends => exact .inl ⟨rfl, rfl⟩
  | moved intends spared encoded written => exact .inr ⟨_, rfl, rfl, intends.leads grounded⟩

/-- The nodes that are led to are a path through the episode, whether calls stop or not. -/
theorem isChain_arrivals (grounded : s.run.Grounded e) (host : Host σ ε) (made : List Call) :
    (s.run.current :: arrivals host made s).IsChain e.Leads := by
  induction made generalizing s with
  | nil => exact .singleton _
  | cons c rest ih =>
    have hchain := ih (s := (passage host c s).after) (grounded_call grounded host c)
    rw [arrivals_cons]
    obtain ⟨hnone, hstays⟩ | ⟨next, hsome, harrives, hleads⟩ := passage_leads grounded host c
    · rw [hnone, ← hstays]
      exact hchain
    · rw [hsome]
      rw [harrives] at hchain
      exact .cons_cons hleads hchain

theorem map_node_records (host : Host σ ε) (e : Episode) (made : List Call) (s : Stage σ) :
    (records host e made s).map Save.Record.node = arrivals host made s := by
  rw [records, arrivals, List.map_filterMap]
  congr
  funext p
  rw [Passage.record?, Passage.next?]
  cases p.answer with
  | error fault => rfl
  | ok result => simp only [Option.map_map, Function.comp_def, Option.map_id']

end Stage

end Storyline
