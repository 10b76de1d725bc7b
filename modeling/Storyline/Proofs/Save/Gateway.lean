import Storyline.Proofs.Save.Record
import Storyline.Proofs.Save.Store
import Storyline.Save.Gateway

/-!
# Storyline.Proofs.Save.Gateway

What saving in the automatic slot comes to.  The text of the record is made first;
if there is one the store is asked to take it, and the record counts as the last
one only if the store does.  From a store that keeps what is held there, the record
that was saved is loaded.
-/

namespace Storyline.Save

/-- The key of the slot that runs are saved in. -/
def autoKey : String := "taleweave-save-0"

/-- The automatic slot always has its key. -/
theorem slotKey_zero {ε τ : Type} : slotKey (ε := ε) 0 τ = .ok autoKey := by
  have h : Numeral.write 0 = .ok "0" := by
    rw [Numeral.write, if_pos (by exact tenTo_pos Numeral.digitLimit)]
    rfl
  rw [slotKey, if_neg (by decide), h]
  rfl

/-- The text of a record is read as that record, with its resources in order. -/
theorem readRecord_text {ε τ : Type} [Textual τ] [DecidableEq τ] {record : Record τ}
    (typed : record.resources.Typed) (joined : record.Joined) {text : String}
    (written : record.text = .ok text) (slot : Int) :
    readRecord (ε := ε) slot (ofString text) = .ok record.inOrder := by
  rw [readRecord, Record.read_text typed joined written]
  simp only [Record.ofJson_toJson (r := record.inOrder) (Resources.typed_inOrder typed)]

namespace Gateway

variable {σ ε τ : Type}

theorem on_ofStore {α : Type} (act : Act σ ε α) (g : Gateway σ τ) :
    (ofStore act).on g =
      ((act.on g.world).1.mapError .store, { g with world := (act.on g.world).2 }) := by
  rw [ofStore, Act.on_within]
  cases h : act.on g.world with
  | mk answer world => cases answer <;> rfl

@[simp] theorem on_note (store : Store σ ε τ) (n : Note τ) (g : Gateway σ τ) :
    (note store n).on g = (.ok (), { g with world := store.note n g.world }) := rfl

section Slot

variable [Textual τ] {slot : Int} {key : String} (hkey : slotKey (ε := ε) slot τ = .ok key)

include hkey

/-- Saving in a slot, step by step. -/
theorem on_save_in (store : Store σ ε τ) (record : Record τ) (g : Gateway σ τ) :
    (save store record slot).on g =
      match record.text with
      | .error fault => (.error (.number fault), g)
      | .ok text =>
        match (store.write key text).on g.world with
        | (.error fault, world) => (.error (.store fault), { g with world })
        | (.ok (), world) =>
          (.ok (), ⟨some record, store.note (.saved record.episode record.node slot) world⟩) := by
  simp only [save, hkey, Act.on_bind, Act.on_known, mapError_ok]
  cases record.text with
  | error fault => rfl
  | ok text =>
    simp only [mapError_ok, on_ofStore]
    cases h : (store.write key text).on g.world with
    | mk answer world => cases answer <;> rfl

variable [DecidableEq τ]

/-- Loading what the store finds in a slot. -/
theorem on_load_found {store : Store σ ε τ} {text : τ} {g : Gateway σ τ} {after : σ}
    (found : (store.read key).on g.world = (.ok (some text), after)) :
    (load store slot).on g =
      match readRecord slot text with
      | .error fault => (.error fault, { g with world := after })
      | .ok record =>
        (.ok (some record), { g with
          world := store.note (.loaded record.episode record.node slot) after }) := by
  simp only [load, hkey, Act.on_bind, Act.on_known, mapError_ok, on_ofStore, found]
  cases readRecord (ε := ε) slot text <;> rfl

/-- Loading for an episode what the store finds in a slot. -/
theorem on_loadFor_found {store : Store σ ε τ} {text : τ} {g : Gateway σ τ} {after : σ}
    (found : (store.read key).on g.world = (.ok (some text), after)) (episode : τ) :
    (loadFor store episode slot).on g =
      match readRecord slot text with
      | .error fault => (.error fault, { g with world := after })
      | .ok record =>
        let loaded := store.note (.loaded record.episode record.node slot) after
        if record.episode = episode then (.ok (some record), { g with world := loaded })
        else
          (.ok none,
            { g with world := store.note (.foreignSave record.episode episode) loaded }) := by
  rw [loadFor, Act.on_bind, on_load_found hkey found]
  cases readRecord (ε := ε) slot text with
  | error fault => rfl
  | ok record =>
    by_cases h : record.episode = episode
    · simp only [if_pos h, Act.on_pure]
    · simp only [if_neg h, Act.on_bind, on_note, Act.on_pure]

/-- Loading from a store that stops. -/
theorem on_load_stopped {store : Store σ ε τ} {fault : ε} {g : Gateway σ τ} {after : σ}
    (stopped : (store.read key).on g.world = (.error fault, after)) :
    (load store slot).on g = (.error (.store fault), { g with world := after }) := by
  simp only [load, hkey, Act.on_bind, Act.on_known, mapError_ok, on_ofStore, stopped]
  rfl

variable {store : Store σ ε τ} {held : σ → Option τ} (keeps : store.Keeps key held)
  {g : Gateway σ τ}

include keeps

/-- What is loaded is the record in the text that is held. -/
theorem on_load_ok {text : τ} (h : held g.world = some text) {record : Record τ}
    (hread : readRecord (ε := ε) slot text = .ok record) :
    ∃ after, held after = some text ∧ (load store slot).on g = (.ok (some record),
      { g with world := store.note (.loaded record.episode record.node slot) after }) := by
  obtain ⟨after, hstore, hheld⟩ := keeps.read g.world text h
  exact ⟨after, hheld, by rw [on_load_found hkey hstore, hread]⟩

/-- The record that was saved is loaded, its resources in the order of their names. -/
theorem on_load_text {record : Record τ} (typed : record.resources.Typed)
    (joined : record.Joined) {text : String} (written : record.text = .ok text)
    (h : held g.world = some (ofString text)) :
    ∃ after, held after = some (ofString text) ∧
      (load store slot).on g = (.ok (some record.inOrder),
        { g with world := store.note (.loaded record.episode record.node slot) after }) :=
  on_load_ok hkey keeps h (readRecord_text typed joined written slot)

end Slot

/-- Saving in the automatic slot. -/
theorem on_save [Textual τ] (store : Store σ ε τ) (record : Record τ) (g : Gateway σ τ) :
    (save store record 0).on g =
      match record.text with
      | .error fault => (.error (.number fault), g)
      | .ok text =>
        match (store.write autoKey text).on g.world with
        | (.error fault, world) => (.error (.store fault), { g with world })
        | (.ok (), world) =>
          (.ok (), ⟨some record, store.note (.saved record.episode record.node 0) world⟩) :=
  on_save_in slotKey_zero store record g

/-- For its own episode the record that was saved is loaded. -/
theorem on_loadFor [Textual τ] [DecidableEq τ] {store : Store σ ε τ} {held : σ → Option τ}
    (keeps : store.Keeps autoKey held) {record : Record τ} (typed : record.resources.Typed)
    (joined : record.Joined) {text : String} (written : record.text = .ok text) {g : Gateway σ τ}
    (h : held g.world = some (ofString text)) :
    ∃ world, (loadFor store record.episode 0).on g =
      (.ok (some record.inOrder), { g with world }) := by
  obtain ⟨after, -, hload⟩ := on_load_text slotKey_zero keeps typed joined written h
  have hsame : record.inOrder.episode = record.episode := rfl
  exact ⟨_, by rw [loadFor, Act.on_bind, hload]; simp only [if_pos hsame]; rfl⟩

end Gateway

end Storyline.Save
