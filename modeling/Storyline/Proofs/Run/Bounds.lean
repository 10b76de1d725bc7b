import Storyline.Proofs.Console.Playing
import Storyline.Proofs.Overreach
import Storyline.Proofs.Rehearsal
import Storyline.Proofs.Run.Answer
import Storyline.Proofs.Run.Ledger
import Storyline.Proofs.Save.Codec

/-!
# Storyline.Proofs.Run.Bounds

How far the numbers of a run may go.  A call is *overtaxing* if the node or the option that it
is about asks for a sum that there is not, or has a number read, shown or saved that is too
long for that.  On amounts and texts, with a host that obliges, these are just the calls that
stop with a fault that is none of the episode's; every other fault is one that a session
survives.
-/

namespace Storyline

/-! ## What is too much -/

/-- A node exceeds resources: its assignments overreach, an option that it offers announces a
cost that is too long to be shown, or its summary names a number that is. -/
def Node.Exceeds (r : Resources) : Node → Prop
  | .assign assignments _ => (Update.assign assignments).Overreaches r
  | .choice _ options => ∃ o ∈ options, o.Overpriced
  | .ending (some template) _ => r.Outgrows template
  | _ => False

/-- A call exceeds what a run holds: the node that the run stands at does, or the gain of the
option that is picked, and may be, overreaches. -/
def Run.Exceeds (r : Run) : Call → Prop
  | .step => r.status = .running ∧
      ∃ node, r.episode.node? r.current = some node ∧ node.Exceeds r.resources
  | .choose option => r.status = .awaitingChoice ∧
      ∃ picked, r.offered? option = some picked ∧
        r.resources.meets picked.requirement = .ok true ∧ picked.update.Overreaches r.resources

/-- A call would move a run on with resources that have no text. -/
def Run.Unwritable (ε : Type) (r : Run) (c : Call) : Prop :=
  ∃ resources pending events next,
    r.Intends ε c (.move resources pending events next) ∧ ¬resources.Holds Json.Writable

/-- A call asks too much of the numbers of a run: it exceeds them, or they cannot be saved. -/
def Run.Overtaxed (ε : Type) (r : Run) (c : Call) : Prop := r.Exceeds c ∨ r.Unwritable ε c

/-- Whether an answer is a fault that is none of the episode's. -/
def Foreign {ε α : Type} (answer : Except (RunFault ε) α) : Prop :=
  ∃ fault, answer = .error fault ∧ fault.isOfEpisode = false

section Answers

variable {ε α β : Type} {r : Resources}

theorem not_foreign_ok (a : α) : ¬Foreign (ε := ε) (.ok a) := nofun

theorem foreign_error_iff {fault : RunFault ε} :
    Foreign (α := α) (.error fault) ↔ fault.isOfEpisode = false :=
  ⟨fun ⟨_, h, foreign⟩ => by cases h; exact foreign, fun h => ⟨fault, rfl, h⟩⟩

theorem not_foreign_error {fault : RunFault ε} (own : fault.isOfEpisode = true) :
    ¬Foreign (α := α) (.error fault) := fun h => by
  rw [foreign_error_iff, own] at h
  cases h

theorem foreign_bind_iff {answer : Except (RunFault ε) α} {next : α → Except (RunFault ε) β} :
    Foreign (answer >>= next) ↔ Foreign answer ∨ ∃ a, answer = .ok a ∧ Foreign (next a) := by
  cases answer with
  | ok a =>
    simp only [not_foreign_ok, false_or, Except.ok.injEq, exists_eq_left']
    exact Iff.rfl
  | error fault =>
    simp only [reduceCtorEq, false_and, exists_false, or_false]
    exact foreign_error_iff.trans foreign_error_iff.symm

/-- Among amounts and texts an update fails beyond the episode just if it overreaches. -/
theorem foreign_update_iff (typed : r.Typed) (u : Update) (node : String) :
    Foreign ((u.apply r).mapError (RunFault.ofUpdate (ε := ε) node)) ↔ u.Overreaches r := by
  obtain ⟨hnumber, hclash⟩ := u.apply_cases typed
  rw [← hnumber]
  constructor
  · rintro ⟨_, h, foreign⟩
    obtain ⟨fault, hfault, rfl⟩ := mapError_error_iff.1 h
    cases fault with
    | number n => exact ⟨n, hfault⟩
    | clash clash => exact absurd hfault (hclash clash)
    | _ => cases foreign
  · rintro ⟨fault, h⟩
    rw [h]
    exact ⟨.number fault, rfl, rfl⟩

/-- Options cannot be offered just if one of them announces too much. -/
theorem foreign_offer_iff (typed : r.Typed) (options : List ChoiceOption) :
    Foreign (options.mapM (ChoiceOption.view (ε := ε) r)) ↔ ∃ o ∈ options, o.Overpriced := by
  have hview : ∀ o : ChoiceOption, (∃ fault, o.view (ε := ε) r = .error fault) ↔ o.Overpriced := by
    intro o
    obtain ⟨met, hmet⟩ := Resources.exists_meets typed o.requirement
    have heach : o.view (ε := ε) r = (costNote o.gain o.remark).mapError .number >>= fun cost =>
        pure ⟨o, met, cost⟩ := by
      rw [ChoiceOption.view, hmet]
      rfl
    rw [heach, ← costNote_error_iff]
    simp only [bind_pure_error_iff, mapError_error_iff]
    constructor
    · rintro ⟨_, fault, h, -⟩
      exact ⟨fault, h⟩
    · rintro ⟨fault, h⟩
      exact ⟨_, fault, h, rfl⟩
  simp only [← hview]
  rw [← Resources.exists_mapM_error_iff]
  constructor
  · rintro ⟨fault, h, -⟩
    exact ⟨fault, h⟩
  · rintro ⟨fault, h⟩
    refine ⟨fault, h, ?_⟩
    obtain ⟨-, o, -, -, -, ho⟩ := Resources.mapM_error_iff.1 h
    obtain ⟨clash, rfl⟩ | ⟨number, rfl⟩ := Stage.fault_of_view ho
    · rfl
    · rfl

theorem foreign_summary_iff (typed : r.Typed) (summary : Option String) :
    (∃ fault, summaryLine r summary = .error fault) ↔ ∃ template, summary = some template ∧
      r.Outgrows template := by
  unfold summaryLine
  split
  · exact iff_of_false nofun nofun
  · refine iff_of_false nofun ?_
    rintro ⟨_, ⟨⟩, name, hname, -⟩
    cases hname
  · next template _ =>
    simp only [map_error_iff, Option.some.injEq, exists_eq_left']
    exact Resources.interpolate_error_iff typed

end Answers

/-! ## Calls -/

section Calls

variable {ε : Type} {r : Run}

/-- Dealing with a node fails beyond the episode just if the node exceeds the resources. -/
theorem foreign_node_iff (typed : r.resources.Typed) (place : String) (won : Bool) (node : Node) :
    Foreign (node.beat (ε := ε) place r.resources >>= Beat.answer r won) ↔
      node.Exceeds r.resources := by
  cases node with
  | assign assignments next =>
    rw [Node.Exceeds, ← foreign_update_iff (ε := ε) typed (.assign assignments) place,
      Update.apply, Node.beat]
    cases r.resources.assign (assignments.map Value.toJson) with
    | ok after => exact iff_of_false (not_foreign_ok _) (not_foreign_ok _)
    | error fault => exact foreign_error_iff.trans foreign_error_iff.symm
  | choice prompt options =>
    rw [Node.Exceeds, ← foreign_offer_iff (ε := ε) typed options]
    have hanswer : Node.beat (ε := ε) place r.resources (.choice prompt options) >>=
        Beat.answer r won = options.mapM (ChoiceOption.view r.resources) >>= fun views =>
          .ok (.suspend [.narration prompt] views) := rfl
    rw [hanswer, foreign_bind_iff]
    refine or_iff_left ?_
    rintro ⟨_, _, h⟩
    exact not_foreign_ok _ h
  | check requirement onPass onFail =>
    obtain ⟨met, hmet⟩ := Resources.exists_meets typed requirement
    rw [Node.beat, hmet]
    exact iff_of_false (not_foreign_ok _) id
  | ending summary save =>
    have hsummary : (∃ fault, summaryLine r.resources summary = .error fault) ↔
        (Node.ending summary save).Exceeds r.resources := by
      rw [foreign_summary_iff typed]
      cases summary with
      | none => exact iff_of_false (by simp) id
      | some template => simp only [Option.some.injEq, exists_eq_left', Node.Exceeds]
    rw [← hsummary, Node.beat]
    cases summaryLine r.resources summary with
    | ok shown => exact iff_of_false (not_foreign_ok _) (by simp)
    | error fault => exact iff_of_true ⟨_, rfl, rfl⟩ ⟨fault, rfl⟩
  | unknown kind => exact iff_of_false (not_foreign_error rfl) id
  | _ => exact iff_of_false (not_foreign_ok _) id

/-- A call comes to a fault that is none of the episode's just if it exceeds the run. -/
theorem foreign_answer_iff (typed : r.resources.Typed) (won : Bool) (c : Call) :
    Foreign (r.answer (ε := ε) won c) ↔ r.Exceeds c := by
  cases c with
  | step =>
    simp only [Run.answer, Run.Exceeds]
    cases r.status with
    | terminated => exact iff_of_false (not_foreign_error rfl) (by simp)
    | awaitingChoice => exact iff_of_false (not_foreign_error rfl) (by simp)
    | running =>
      simp only [true_and]
      cases r.episode.node? r.current with
      | none => exact iff_of_false (not_foreign_error rfl) (by simp)
      | some node =>
        simp only [Option.some.injEq, exists_eq_left']
        exact foreign_node_iff typed r.current won node
  | choose option =>
    simp only [Run.answer, Run.Exceeds]
    by_cases waiting : r.status = .awaitingChoice
    · simp only [waiting, if_true, true_and]
      cases r.offered? option with
      | none => exact iff_of_false (not_foreign_error rfl) (by simp)
      | some picked =>
        obtain ⟨met, hmet⟩ := Resources.exists_meets typed picked.requirement
        simp only [hmet, mapError_ok, Option.some.injEq, exists_eq_left']
        cases met with
        | false => exact iff_of_false (not_foreign_error rfl) (by simp)
        | true =>
          simp only [true_and, ← foreign_update_iff (ε := ε) typed picked.update r.current,
            Update.apply_option]
          cases r.resources.gain picked.gain with
          | ok after => exact iff_of_false (not_foreign_ok _) (not_foreign_ok _)
          | error fault => exact foreign_error_iff.trans foreign_error_iff.symm
    · simp only [waiting, if_false, false_and, iff_false]
      exact not_foreign_error rfl

/-- A run that intends to move on settles on that, whichever way a minigame comes out. -/
theorem Run.Intends.answer {c : Call} {resources : Resources} {pending : List ChoiceView}
    {events : List Event} {next : String}
    (h : r.Intends ε c (.move resources pending events next)) (won : Bool) :
    ∃ next', r.answer (ε := ε) won c = .ok (.move resources pending events next') := by
  cases h with
  | @move node beat next running found beats leads =>
    simp only [Run.answer, running, found, beats]
    change ∃ next', beat.answer r won = _
    rw [Beat.answer]
    cases hturn : beat.turn with
    | go next => exact ⟨next, rfl⟩
    | contest game onWin onLose => exact ⟨_, rfl⟩
    | offer options =>
      rw [hturn] at leads
      cases leads
  | pick waiting offered met gained =>
    simp only [Run.answer, waiting, if_true, offered, met, mapError_ok, gained]
    exact ⟨_, rfl⟩

end Calls

namespace Stage

variable {σ ε : Type} {host : Host σ ε} {Q R : ε → Prop} {s : Stage σ}

/-- What the store of a host refuses a write for. -/
def RefusesFor (host : Host σ ε) (R : ε → Prop) : Prop :=
  ∀ key text world e, ((host.write key text).on world).1 = .error e → R e

/-- A host that obliges: it never stops showing or deciding, and takes every write. -/
structure Obliges (host : Host σ ε) : Prop where
  stops : StopsFor host fun _ => False
  takes : RefusesFor host fun _ => False

/-- On amounts and texts a call stops for a fault that is none of the episode's only if the
host stops it, the store refuses a write, or it overtaxes the run. -/
theorem overtaxed_of_foreign (typed : s.run.resources.Typed) (stops : StopsFor host Q)
    (refuses : RefusesFor host R) {c : Call} {fault : RunFault ε}
    (h : ((call host c).on s).1 = .error fault) (foreign : fault.isOfEpisode = false) :
    (∃ e, Q e ∧ fault = .host e) ∨ (∃ e, R e ∧ fault = .save (.store e)) ∨
      s.run.Overtaxed ε c := by
  obtain ⟨world, -, ⟨other, -, hr, hc⟩ | ⟨intent, intends, hr, hc⟩⟩ :=
    call_cases (spares_nothing host) c s
  · rw [hc] at h
    cases h
    obtain ⟨e, he, hanswer⟩ | ⟨won, hanswer⟩ := resolve_answer stops c s
    · rw [hr] at hanswer
      cases hanswer
      exact .inl ⟨e, he, rfl⟩
    · rw [hr] at hanswer
      exact .inr (.inr (.inl ((foreign_answer_iff typed won c).1 ⟨fault, hanswer.symm, foreign⟩)))
  · rw [hc] at h
    cases intent with
    | suspend events views => rw [on_commit_suspend] at h; cases h
    | move resources pending events next =>
      rw [on_commit_move, on_advance] at h
      cases ht : (((s.inWorld world).settle resources pending).run.recordAt next).text with
      | error number =>
        have long : ¬resources.Holds Json.Writable := fun writable => by
          let record := ((s.inWorld world).settle resources pending).run.recordAt next
          obtain ⟨text, htext⟩ := Save.Record.exists_text_iff (r := record).2 writable
          cases ht.symm.trans htext
        exact .inr (.inr (.inr ⟨_, _, _, _, intends, long⟩))
      | ok text =>
        simp only [ht] at h
        cases hw : (host.write Save.autoKey text).on
            ((s.inWorld world).settle resources pending).gateway.world with
        | mk answer after =>
          rw [hw] at h
          cases answer with
          | ok _ => cases h
          | error e =>
            cases h
            exact .inr (.inl ⟨e, refuses _ _ _ e (congrArg Prod.fst hw), rfl⟩)

/-- With a host that never stops it, a call that overtaxes the run does stop so. -/
theorem foreign_of_overtaxed (typed : s.run.resources.Typed) (stops : StopsFor host fun _ => False)
    {c : Call} (overtaxed : s.run.Overtaxed ε c) : Foreign ((call host c).on s).1 := by
  obtain ⟨e, he, -⟩ | ⟨won, hanswer⟩ := resolve_answer stops c s
  · exact he.elim
  obtain exceeds | ⟨resources, pending, events, next, intends, long⟩ := overtaxed
  · obtain ⟨fault, hfault, foreign⟩ := (foreign_answer_iff typed won c).2 exceeds
    rw [hfault] at hanswer
    rw [call_eq, Act.on_bind, Act.eq_of_answer hanswer]
    exact ⟨fault, rfl, foreign⟩
  · obtain ⟨next', hintent⟩ := intends.answer won
    rw [hintent] at hanswer
    obtain ⟨number, htext⟩ : ∃ number,
        (Save.Record.mk s.run.episode.id next' resources .whole).text = .error number := by
      cases ht : (Save.Record.mk s.run.episode.id next' resources .whole).text with
      | error number => exact ⟨number, rfl⟩
      | ok text => exact absurd (Save.Record.exists_text_iff.1 ⟨text, ht⟩) long
    have hrun := run_of_resolve (Act.eq_of_answer hanswer)
    rw [call_eq, Act.on_bind, Act.eq_of_answer hanswer]
    simp only [on_commit_move, on_advance, Run.recordAt, run_settle, hrun, htext]
    exact ⟨_, rfl, rfl⟩

/-- Playing at the console stops for a fault that is none of the episode's only if the console
or the store stops it, or if a call overtaxes the run that it has led to. -/
theorem overtaxed_of_played {env : Environment} {directory : Path} {e : Episode}
    {settings : RawSettings} {saved : Option Save.Record} {c : Console}
    (typed : ∀ record, saved = some record → record.resources.Typed)
    {fault : RunFault ConsoleFault}
    (h : (Console.played env directory e settings saved c).1 = .error fault)
    (foreign : fault.isOfEpisode = false) :
    (∃ cause, fault = .host cause) ∨ (∃ cause, fault = .save (.store cause)) ∨
      ∃ s c', Plays (Console.player env directory settings.textMode) (fun _ => ())
          (Console.stageOf env directory e settings saved c) s ∧
        ((call (Console.player env directory settings.textMode).toHost c').on s).1 =
          .error fault ∧
        s.run.Overtaxed ConsoleFault c' := by
  have out := Console.playsOut_played
    (Player.spares_nothing (Console.player env directory settings.textMode)) e saved c
  generalize Console.played env directory e settings saved c = came at out h
  cases out with
  | through plays => cases h
  | left plays => cases h; exact .inl ⟨_, rfl⟩
  | @stopped c' _ s after plays going made =>
    cases h
    have orderly : s.run.Orderly e := plays.induction (P := fun s => s.run.Orderly e)
      (fun _ _ _ orderly => orderly) (fun _ c _ orderly => orderly_call orderly _ c)
      (Console.orderly_stageOf env directory e settings c typed)
    have hanswer := congrArg Prod.fst made
    have refuses : RefusesFor (Console.player env directory settings.textMode).toHost
        fun _ => True := fun _ _ _ _ _ => trivial
    obtain ⟨cause, -, rfl⟩ | ⟨cause, -, rfl⟩ | overtaxed := overtaxed_of_foreign (Q := fun _ => True)
      orderly.typed (stopsFor_any fun _ => trivial) refuses hanswer foreign
    · exact .inl ⟨cause, rfl⟩
    · exact .inr (.inl ⟨cause, rfl⟩)
    · exact .inr (.inr ⟨s, c', plays, hanswer, overtaxed⟩)

/-- So playing an episode leads back to the menu, or ends the session for the console, for its
store, or for a call that overtaxes the run. -/
theorem leads_back_or_overtaxed {env : Environment} {directory : Path} {e : Episode}
    {settings : RawSettings} {saved : Option Save.Record} {c : Console}
    (typed : ∀ record, saved = some record → record.resources.Typed) :
    ((Console.playEpisode env directory e settings saved).on c).1 = .ok () ∨
      ∃ fault, ((Console.playEpisode env directory e settings saved).on c).1 =
          .error (.run fault) ∧
        ((∃ cause, fault = .host cause) ∨ (∃ cause, fault = .save (.store cause)) ∨
          ∃ s c', Plays (Console.player env directory settings.textMode) (fun _ => ())
              (Console.stageOf env directory e settings saved c) s ∧
            ((call (Console.player env directory settings.textMode).toHost c').on s).1 =
              .error fault ∧
            s.run.Overtaxed ConsoleFault c') := by
  rw [Console.on_playEpisode]
  cases hplayed : Console.played env directory e settings saved c with
  | mk answer s =>
    cases answer with
    | ok finished => exact .inl rfl
    | error fault =>
      cases own : fault.isOfEpisode with
      | true => exact .inl (by simp only [own, if_true])
      | false =>
        refine .inr ⟨fault, by simp only [own, Bool.false_eq_true, if_false], ?_⟩
        exact overtaxed_of_played typed (congrArg Prod.fst hplayed) own

/-- With a host that obliges, each of the calls on a run that starts with amounts and texts stops
for a fault that is none of the episode's just if it overtaxes the run. -/
theorem foreign_passage_iff {host : Host σ ε} (obliges : Obliges host)
    (gateway : Save.Gateway σ) (e : Episode) (node : Option String) {initial : Resources}
    (typed : initial.Typed) {made : List Call} {p : Passage σ ε}
    (hp : p ∈ passages host made (start host gateway e node initial)) :
    Foreign p.answer ↔ p.before.run.Overtaxed ε p.call := by
  obtain ⟨hp, orderly⟩ := forall_passages (P := fun s => s.run.Orderly e)
    (fun _ c orderly => orderly_call orderly host c) (orderly_start e node typed) p hp
  have hanswer : p.answer = ((call host p.call).on p.before).1 := congrArg Passage.answer hp
  rw [hanswer]
  constructor
  · rintro ⟨fault, hfault, foreign⟩
    obtain ⟨_, he, -⟩ | ⟨_, he, -⟩ | overtaxed :=
      overtaxed_of_foreign orderly.typed obliges.stops obliges.takes hfault foreign
    · exact he.elim
    · exact he.elim
    · exact overtaxed
  · exact foreign_of_overtaxed orderly.typed obliges.stops

/-- Only numbers make a run fail beyond the episode.  With a host that obliges, each call on a
run that starts with amounts and texts stops for a fault that is none of the episode's just if
it overtaxes the run as it then is; so all faults are the episode's just if no call does.  At
the console, playing an episode leads back to the menu unless the console itself stops it, a
write is refused, or a call overtaxes the run that playing has led to. -/
theorem fails_beyond_episode_iff_overtaxed {host : Host σ ε} (obliges : Obliges host)
    (gateway : Save.Gateway σ) (e : Episode) (node : Option String) {initial : Resources}
    (typed : initial.Typed) :
    (∀ made : List Call, ∀ p ∈ passages host made (start host gateway e node initial),
      Foreign p.answer ↔ p.before.run.Overtaxed ε p.call) ∧
    (∀ made : List Call,
      (∀ fault, .error fault ∈ (calls host made (start host gateway e node initial)).1 →
        fault.isOfEpisode = true) ↔
      ∀ p ∈ passages host made (start host gateway e node initial),
        ¬p.before.run.Overtaxed ε p.call) ∧
    ∀ (env : Environment) (directory : Path) (settings : RawSettings)
      (saved : Option Save.Record) (c : Console),
      (∀ record, saved = some record → record.resources.Typed) →
      ((Console.playEpisode env directory e settings saved).on c).1 = .ok () ∨
        ∃ fault, ((Console.playEpisode env directory e settings saved).on c).1 =
            .error (.run fault) ∧
          ((∃ cause, fault = .host cause) ∨ (∃ cause, fault = .save (.store cause)) ∨
            ∃ s c', Plays (Console.player env directory settings.textMode) (fun _ => ())
                (Console.stageOf env directory e settings saved c) s ∧
              ((call (Console.player env directory settings.textMode).toHost c').on s).1 =
                .error fault ∧
              s.run.Overtaxed ConsoleFault c') := by
  have each {made : List Call} {p : Passage σ ε}
      (hp : p ∈ passages host made (start host gateway e node initial)) :=
    foreign_passage_iff obliges gateway e node typed hp
  refine ⟨fun made p => each, fun made => ?_, fun env directory settings saved c =>
    leads_back_or_overtaxed⟩
  rw [answers_eq]
  constructor
  · intro h p hp overtaxed
    obtain ⟨fault, hfault, foreign⟩ := (each hp).2 overtaxed
    rw [h fault (List.mem_map.2 ⟨p, hp, hfault⟩)] at foreign
    cases foreign
  · intro h fault hmem
    obtain ⟨p, hp, hfault⟩ := List.mem_map.1 hmem
    cases own : fault.isOfEpisode with
    | true => rfl
    | false => exact absurd ((each hp).1 ⟨fault, hfault, own⟩) (h p hp)

/-- A script by which nothing goes wrong, and no minigame is decided. -/
def smoothly : Rehearsal.Script := ⟨[], [], [], false, none⟩

/-- The host that follows it, with a store in memory. -/
def smooth : Host (Rehearsal.Progress (Table String)) (Rehearsal.Fault Empty) :=
  (Rehearsal.player smoothly Save.memoryStore).toHost

theorem obliges_smooth : Obliges smooth where
  stops :=
    { render := fun event p e h => by
        change ((Rehearsal.render smoothly event).on p).1 = .error e at h
        rw [Rehearsal.on_render] at h
        cases h
      minigame := fun decide hd => by cases hd }
  takes key text p e h := by
    change ((Rehearsal.write smoothly Save.memoryStore key text).on p).1 = .error e at h
    rw [Rehearsal.on_write] at h
    cases h

/-- A hoard to which half a coin may be added. -/
def hoard : Episode := ⟨"hoard", "The hoard", "heap", Table.ofList [
  ("heap", .choice "Add the half coin?" [⟨"add", "Add", "",
    some (Table.ofList [("coins", .real (Binary64.nearest false Binary64.one 2))]), none, none⟩])]⟩

/-- So many coins, past what a double can be. -/
def heap : Resources := Table.ofList [("coins", .number (.int (10 ^ 309)))]

/-- The stage on which the hoard is played with that many. -/
def hoardFresh : Stage (Rehearsal.Progress (Table String)) :=
  start smooth ⟨none, ⟨Table.empty, 0, 0, [], [], []⟩⟩ hoard none heap

/-- The half coin is too much for the heap, and it is nothing else that is. -/
theorem hoard_overtaxed :
    Obliges smooth ∧ heap.Typed ∧
      ((calls smooth [.step, .choose "add"] hoardFresh).1.map Except.isOk = [true, false]) ∧
      ∀ p ∈ passages smooth [.step, .choose "add"] hoardFresh,
        p.before.run.Overtaxed (Rehearsal.Fault Empty) p.call ↔ p.call = .choose "add" := by
  have typed : heap.Typed := Table.holds_iff.2 (by decide +kernel)
  obtain ⟨each, -, -⟩ := fails_beyond_episode_iff_overtaxed obliges_smooth
    ⟨none, ⟨Table.empty, 0, 0, [], [], []⟩⟩ hoard none typed
  have answers : ∀ p ∈ passages smooth [.step, .choose "add"] hoardFresh,
      p.call = .step ∧ p.answer.isOk = true ∨
        p.call = .choose "add" ∧ p.answer = .error (.number .beyondDoubles) := by
    decide +kernel
  refine ⟨obliges_smooth, typed, by decide +kernel, fun p hp => ?_⟩
  rw [← each [.step, .choose "add"] p hp]
  obtain ⟨hstep, hok⟩ | ⟨hadd, hfault⟩ := answers p hp
  · refine iff_of_false ?_ (by rw [hstep]; decide)
    rintro ⟨fault, hfault, -⟩
    rw [hfault] at hok
    cases hok
  · exact iff_of_true ⟨_, hfault, rfl⟩ hadd

/-- So a call stops for a fault that is none of the episode's, and a session that goes on with
the heap ends there. -/
theorem hoard_ends_session :
    let c : Console := ⟨["1"], "", [], ⟨[], []⟩⟩
    let env : Environment := ⟨Table.empty, Table.empty, false, Path.ofText "/app"⟩
    Obliges smooth ∧ heap.Typed ∧
      (∃ fault, .error fault ∈ (calls smooth [.step, .choose "add"] hoardFresh).1 ∧
        fault.isOfEpisode = false) ∧
      ((Console.playEpisode env (Path.ofText "saves") hoard (Settings.initial.raw)
        (some ⟨"hoard", "heap", heap, .whole⟩)).on c).1 =
          .error (.run (.number .beyondDoubles)) := by
  intro c env
  have answer : (calls smooth [.step, .choose "add"] hoardFresh).1.getLast? =
      some (.error (.number .beyondDoubles)) := by
    decide +kernel
  exact ⟨obliges_smooth, Table.holds_iff.2 (by decide +kernel),
    ⟨.number .beyondDoubles, List.mem_of_getLast? answer, rfl⟩, by decide +kernel⟩

end Stage

end Storyline
