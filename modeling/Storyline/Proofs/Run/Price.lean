import Storyline.Proofs.Run.Ledger

/-!
# Storyline.Proofs.Run.Price

Prices that are guarded.  If every option that takes something of a resource also asks for
as much of it, and nothing else takes any, the resource is never overdrawn.  It does not
matter what was shown when: whether the requirement of an option is met is asked again when
the option is picked, and of the very option whose gain is then taken.
-/

namespace Storyline

/-- Whether a value is a whole number not below zero. -/
def Json.isNatural : Json → Bool
  | .number (.int n) => 0 ≤ n
  | _ => false

theorem Json.isNatural_iff {j : Json} :
    j.isNatural = true ↔ ∃ n : Int, 0 ≤ n ∧ j = .number (.int n) := by
  constructor
  · intro h
    cases j with
    | number a =>
      cases a with
      | int n => exact ⟨n, by simpa [isNatural] using h, rfl⟩
      | real x => cases h
    | _ => cases h
  · rintro ⟨n, hn, rfl⟩
    simpa [isNatural] using hn

/-! ## Guarded episodes -/

/-- Whether what is assigned takes nothing: a whole number not below zero, or a delta that is
not negative. -/
def Value.isCredit : Value → Bool
  | .number (.int n) => 0 ≤ n
  | .number (.real _) => false
  | .text s => Numeral.isDelta s && 0 ≤ Numeral.denoted s

namespace ChoiceOption

/-- Whether an option asks for at least so much of a resource. -/
def asks (name : String) (least : Int) (o : ChoiceOption) : Bool :=
  match o.requirement.bind fun thresholds => thresholds.find? name with
  | some (.int threshold) => least ≤ threshold
  | _ => false

/-- Whether an option gains a whole number of a resource, if any of it, and asks for what it
takes. -/
def isGuarded (name : String) (o : ChoiceOption) : Bool :=
  match o.update.added? name with
  | some n => 0 ≤ n || o.asks name (-n)
  | none => false

end ChoiceOption

/-- Whether a node takes nothing of a resource but for prices that are guarded. -/
def Node.isGuarded (name : String) : Node → Bool
  | .assign assignments _ => (assignments.find? name).all Value.isCredit
  | .choice _ options => options.all (ChoiceOption.isGuarded name)
  | _ => true

/-- Whether no node of an episode takes anything of a resource but for guarded prices. -/
def Episode.isGuarded (e : Episode) (name : String) : Bool :=
  e.nodes.entries.all fun entry => entry.2.isGuarded name

theorem Episode.isGuarded_node {e : Episode} {name id : String} {node : Node}
    (guarded : e.isGuarded name = true) (found : e.node? id = some node) :
    node.isGuarded name = true :=
  List.all_eq_true.1 guarded (id, node) (Table.find?_eq_some_iff.1 found)

namespace Resources

variable {r after : Resources} {name : String}

/-- Whether a resource is not overdrawn: it is not there, or a whole number not below zero. -/
def solvent (name : String) (r : Resources) : Bool := (r.find? name).all Json.isNatural

theorem solvent_iff :
    r.solvent name = true ↔ ∃ n : Int, 0 ≤ n ∧ r.value name = .number (.int n) := by
  rw [← Json.isNatural_iff, solvent, value]
  cases r.find? name with
  | none => exact ⟨fun _ => rfl, fun _ => rfl⟩
  | some held => exact Iff.rfl

/-! ## What is asked for -/

/-- Where thresholds are reached nothing that is held is less than its threshold. -/
theorem judge_met {thresholds : List (String × Json)} (h : r.judge thresholds = .ok .met) :
    ∀ t ∈ thresholds, (r.value t.1).less t.2 = .ok false := by
  induction thresholds with
  | nil => exact List.forall_mem_nil _
  | cons t rest ih =>
    rw [judge] at h
    split at h
    · cases h
    · split at h
      · cases h
      · next hless => exact List.forall_mem_cons.2 ⟨hless, ih h⟩
      · cases h

/-- Whoever meets the requirement of an option has what it asks for. -/
theorem le_of_asks {o : ChoiceOption} {least n : Int} (asks : o.asks name least = true)
    (met : r.meets o.requirement = .ok true) (held : r.value name = .number (.int n)) :
    least ≤ n := by
  rw [ChoiceOption.asks] at asks
  split at asks
  · next threshold hfound =>
    obtain ⟨thresholds, hrequirement, hfind⟩ := Option.bind_eq_some_iff.1 hfound
    rw [hrequirement, meets, map_ok_iff] at met
    obtain ⟨verdict, hverdict, hmet⟩ := met
    obtain rfl : verdict = .met := by simpa using hmet
    have hless := judge_met hverdict _ (Table.mem_entries_map Json.number hfind)
    simp only [held, Json.less_number, Amount.less_int, Except.ok.injEq,
      decide_eq_false_iff_not] at hless
    have hleast : least ≤ threshold := by simpa using asks
    omega
  · cases asks

/-! ## What is taken -/

/-- The gain of a guarded option overdraws nothing where its requirement is met. -/
theorem solvent_gain {o : ChoiceOption} (guarded : o.isGuarded name = true)
    (solvent : r.solvent name = true) (met : r.meets o.requirement = .ok true)
    (gained : r.gain o.gain = .ok after) : after.solvent name = true := by
  obtain ⟨n, hn, held⟩ := solvent_iff.1 solvent
  rw [ChoiceOption.isGuarded] at guarded
  split at guarded
  · next d adds =>
    have hvalue := Update.value_of_apply ((Update.apply_option r o).trans gained) held adds
    have hleft : 0 ≤ n + d := by
      simp only [Bool.or_eq_true, decide_eq_true_eq] at guarded
      -- An option that takes some was picked with at least as much still held.
      rcases guarded with hd | asks
      · omega
      · have hle := le_of_asks asks met held
        omega
    exact solvent_iff.2 ⟨n + d, hleft, hvalue⟩
  · cases guarded

/-- Assignments that take nothing overdraw nothing. -/
theorem solvent_assign {assignments : Table Value}
    (credits : (assignments.find? name).all Value.isCredit = true)
    (solvent : r.solvent name = true)
    (assigned : r.assign (assignments.map Value.toJson) = .ok after) :
    after.solvent name = true := by
  obtain ⟨n, hn, held⟩ := solvent_iff.1 solvent
  have applied : (Update.assign assignments).apply r = .ok after := assigned
  cases hf : assignments.find? name with
  | none =>
    have unnamed := Update.value_of_unnamed applied (Table.find?_eq_none_iff.1 hf)
    exact solvent_iff.2 ⟨n, hn, unnamed.trans held⟩
  | some v =>
    rw [hf] at credits
    cases v with
    | number a =>
      obtain ⟨hnamed, -⟩ := change_ok (Table.nodup_names _) assigned
      obtain ⟨value, hvalue, hfound⟩ := hnamed _ (Table.mem_entries_map Value.toJson hf)
      cases hvalue
      rw [Resources.solvent, hfound]
      cases a with
      | int m => exact credits
      | real x => cases credits
    | text s =>
      obtain ⟨hdelta, hcredit⟩ : Numeral.isDelta s = true ∧ 0 ≤ Numeral.denoted s := by
        simpa [Value.isCredit] using credits
      have adds : (Update.assign assignments).added? name = some (Numeral.denoted s) := by
        simp only [Update.added?, hf, hdelta, if_true]
      have hvalue := Update.value_of_apply applied held adds
      exact solvent_iff.2 ⟨n + Numeral.denoted s, by omega, hvalue⟩

end Resources

/-! ## Runs -/

/-- A run of an episode in which a resource is not overdrawn and whatever is on offer is
guarded. -/
structure Run.Sound (e : Episode) (name : String) (r : Run) : Prop where
  episode : r.episode = e
  offers : ∀ v ∈ r.pending, v.option.isGuarded name = true
  solvent : r.resources.solvent name = true

section Sound

variable {e : Episode} {name : String} {r : Run}

/-- What a node leaves of a resource is not overdrawn. -/
theorem solvent_beat {ε : Type} {id : String} {resources : Resources} {node : Node} {beat : Beat}
    (guarded : node.isGuarded name = true) (solvent : resources.solvent name = true)
    (beats : node.beat (ε := ε) id resources = .ok beat) :
    beat.resources.solvent name = true := by
  have applied := update_of_beat beats
  cases node with
  | assign assignments next => exact Resources.solvent_assign guarded solvent applied
  | _ =>
    cases applied
    exact solvent

/-- Nor is what a sound run intends to hold, and it keeps guarded options on offer. -/
theorem Run.Sound.settles {ε : Type} {c : Call} {resources : Resources}
    {pending : List ChoiceView} {events : List Event} {next : String} (sound : r.Sound e name)
    (guarded : e.isGuarded name = true)
    (intends : r.Intends ε c (.move resources pending events next)) :
    (∀ v ∈ pending, v.option.isGuarded name = true) ∧ resources.solvent name = true := by
  cases intends with
  | move running found beats leads =>
    rw [sound.episode] at found
    exact ⟨sound.offers, solvent_beat (Episode.isGuarded_node guarded found) sound.solvent beats⟩
  | pick waiting offered met gained =>
    obtain ⟨v, hv, rfl⟩ := Option.map_eq_some_iff.1 offered
    have hguarded := sound.offers v (List.mem_of_find?_eq_some hv)
    exact ⟨List.forall_mem_nil _, Resources.solvent_gain hguarded sound.solvent met gained⟩

/-- The options that a sound run intends to wait for are guarded. -/
theorem Run.Sound.offered {ε : Type} {c : Call} {events : List Event} {views : List ChoiceView}
    (sound : r.Sound e name) (guarded : e.isGuarded name = true)
    (intends : r.Intends ε c (.suspend events views)) :
    ∀ v ∈ views, v.option.isGuarded name = true := by
  cases intends with
  | suspend running found offer =>
    rw [sound.episode] at found
    have hoptions := List.all_eq_true.1 (Episode.isGuarded_node guarded found)
    intro v hv
    exact hoptions v.option (offer.1 ▸ List.mem_map_of_mem hv)

end Sound

/-- Whether a change of the resources by the host itself does not overdraw a resource; it may
take the resource away. -/
def Deed.isFair (name : String) : Deed → Bool
  | .put other value => other ≠ name || value.isNatural
  | _ => true

namespace Stage

variable {σ ε : Type} {host : Host σ ε} {e : Episode} {name : String} {s : Stage σ}

/-- A call keeps a run sound, even one that a save stops. -/
theorem sound_call (guarded : e.isGuarded name = true) (sound : s.run.Sound e name)
    (host : Host σ ε) (c : Call) : ((call host c).on s).2.run.Sound e name := by
  have h := outcome_call (spares_nothing host) c s
  generalize (call host c).on s = came at h ⊢
  cases h with
  | stopped reason spared => exact sound
  | suspended intends spared =>
    exact ⟨sound.episode, sound.offered guarded intends, sound.solvent⟩
  | unsaved intends =>
    obtain ⟨offers, solvent⟩ := sound.settles guarded intends
    exact ⟨sound.episode, offers, solvent⟩
  | moved intends spared encoded written =>
    obtain ⟨offers, solvent⟩ := sound.settles guarded intends
    exact ⟨sound.episode, offers, solvent⟩

/-- So does a host that does not overdraw the resource itself. -/
theorem sound_afterDeed (guarded : e.isGuarded name = true) (sound : s.run.Sound e name)
    (host : Host σ ε) {d : Deed} (fair : d.isFair name = true) :
    (afterDeed host s d).run.Sound e name := by
  cases d with
  | call c => exact sound_call guarded sound host c
  | put other value =>
    refine ⟨sound.episode, sound.offers, ?_⟩
    show Resources.solvent name (s.run.resources.insert other value) = true
    rw [Resources.solvent, Table.find?_insert]
    split
    · next hname =>
      simpa [Deed.isFair, hname] using fair
    · exact sound.solvent
  | drop other =>
    refine ⟨sound.episode, sound.offers, ?_⟩
    show Resources.solvent name (s.run.resources.erase other) = true
    rw [Resources.solvent, Table.find?_erase]
    split
    · rfl
    · exact sound.solvent

theorem sound_afterDeeds (guarded : e.isGuarded name = true) (sound : s.run.Sound e name)
    (host : Host σ ε) {deeds : List Deed} (fair : ∀ d ∈ deeds, d.isFair name = true) :
    (afterDeeds host deeds s).run.Sound e name := by
  induction deeds generalizing s with
  | nil => exact sound
  | cons d rest ih =>
    obtain ⟨hfirst, hrest⟩ := List.forall_mem_cons.1 fair
    exact ih (sound_afterDeed guarded sound host hfirst) hrest

/-- A resource whose prices are guarded is never overdrawn: if it starts as a whole number not
below zero or not at all, it is one or not there after any calls, and after any changes of the
resources between them that do not overdraw it themselves. -/
theorem guarded_price_never_overdraws (host : Host σ ε) (gateway : Save.Gateway σ) {e : Episode}
    {name : String} (guarded : e.isGuarded name = true) (node : Option String)
    {initial : Resources} (solvent : initial.solvent name = true) {deeds : List Deed}
    (fair : ∀ d ∈ deeds, d.isFair name = true) :
    (afterDeeds host deeds (start host gateway e node initial)).run.resources.solvent name =
      true := by
  have fresh : (start host gateway e node initial).run.Sound e name :=
    ⟨rfl, List.forall_mem_nil _, solvent⟩
  exact (sound_afterDeeds guarded fresh host fair).solvent

/-- A stall where a lantern is sold for two coins and deposits are paid back. -/
def stall : Episode := ⟨"stall", "The stall", "stall", Table.ofList [
  ("stall", .choice "A lantern?" [
    ⟨"buy", "Buy", "deposit", some (Table.ofList [("coins", .int (-2))]),
      some (Table.ofList [("coins", .int 2)]), none⟩,
    ⟨"leave", "Leave", "", none, none, none⟩]),
  ("deposit", .assign (Table.ofList [("coins", .text "+1")]) "stall")]⟩

/-- The lantern is on offer for three coins when two of them are lost: it is not sold.  It is
sold once two coins are there again, and the coins never run below zero. -/
theorem stall_never_overdraws :
    let host := (Rehearsal.inMemory [] []).toHost
    let gateway : Save.Gateway (Rehearsal.Progress (Table String)) :=
      ⟨none, ⟨Table.empty, 0, 0, [], [], []⟩⟩
    let fresh := start host gateway stall none (Table.ofList [("coins", .number (.int 3))])
    let robbed := afterDeeds host [.call .step, .put "coins" (.number (.int 1))] fresh
    let deeds : List Deed := [.call .step, .put "coins" (.number (.int 1)), .call (.choose "buy"),
      .put "coins" (.number (.int 2)), .call (.choose "buy")]
    let s := afterDeeds host deeds fresh
    stall.isGuarded "coins" = true ∧
      robbed.run.pending.map (fun v => (v.option.id, v.selectable)) =
        [("buy", true), ("leave", true)] ∧
      ((choose host "buy").on robbed).1 = .error (.rejected (.unmet "buy")) ∧
      s.run.current = "deposit" ∧ s.run.resources.solvent "coins" = true := by
  intro host gateway fresh robbed deeds s
  have guarded : stall.isGuarded "coins" = true := by decide +kernel
  have fair : ∀ d ∈ deeds, d.isFair "coins" = true := by decide +kernel
  have solvent : fresh.run.resources.solvent "coins" = true := by decide +kernel
  have sold := guarded_price_never_overdraws host gateway guarded none solvent fair
  have hs : s = afterDeeds host deeds (start host gateway stall none fresh.run.resources) := rfl
  rw [← hs] at sold
  exact ⟨guarded, by decide +kernel, by decide +kernel, by decide +kernel, sold⟩

end Stage

end Storyline
