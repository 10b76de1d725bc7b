import Storyline.Json.Reader
import Storyline.Save.Record
import Storyline.Save.Store

/-!
# Storyline.Save.Gateway

Saving to and loading from the slots of a store.  A save replaces what its slot
held, and the last record that was saved is remembered.  A record counts as saved
only once the store has taken its text.
-/

namespace Storyline.Save

/-- A store's world together with the record that was saved last. -/
structure Gateway (σ : Type) (τ : Type := String) where
  last : Option (Record τ)
  world : σ

/-- Why saving or loading stops. -/
inductive GatewayFault (ε : Type) (τ : Type := String)
  /-- The slot is negative. -/
  | negativeSlot
  /-- A number is too long. -/
  | number (fault : NumberFault)
  /-- The text in the slot is no JSON. -/
  | notJson (slot : Int)
  /-- The JSON value in the slot is no record. -/
  | record (fault : RecordFault τ)
  /-- The store stops. -/
  | store (fault : ε)
deriving DecidableEq, Repr

/-- The wording of a fault. -/
def GatewayFault.message {ε : Type} (store : ε → String) : GatewayFault ε → String
  | .negativeSlot => "Slot index must be non-negative."
  | .number fault => fault.message
  | .notJson slot =>
    "Save slot " ++ String.ofList (Numeral.chars slot) ++ " does not contain valid JSON."
  | .record fault => fault.message
  | .store fault => store fault

/-- The key of a slot. -/
def slotKey {ε : Type} (slot : Int) (τ : Type := String) : Except (GatewayFault ε τ) String :=
  if slot < 0 then .error .negativeSlot
  else
    match Numeral.write slot with
    | .ok digits => .ok ("taleweave-save-" ++ digits)
    | .error fault => .error (.number fault)

variable {σ ε τ : Type}

/-- The record in a text. -/
def readRecord [Textual τ] [DecidableEq τ] (slot : Int) (text : τ) :
    Except (GatewayFault ε τ) (Record τ) :=
  match Json.read text with
  | .error (.malformed _ _) => .error (.notJson slot)
  | .error (.number fault) => .error (.number fault)
  | .ok j =>
    match Record.ofJson j with
    | .ok record => .ok record
    | .error (.record fault) => .error (.record fault)
    | .error (.number fault) => .error (.number fault)

namespace Gateway

/-- An action of the store. -/
def ofStore {α : Type} (act : Act σ ε α) : Act (Gateway σ τ) (GatewayFault ε τ) α :=
  act.within Gateway.world (fun g world => { g with world }) .store

/-- Takes a note. -/
def note (store : Store σ ε τ) (n : Note τ) : Act (Gateway σ τ) (GatewayFault ε τ) Unit :=
  Act.change fun g => { g with world := store.note n g.world }

variable [Textual τ]

/-- Saves a record in a slot. -/
def save (store : Store σ ε τ) (record : Record τ) (slot : Int) :
    Act (Gateway σ τ) (GatewayFault ε τ) Unit := do
  let key ← Act.known id (slotKey slot τ)
  let text ← Act.known .number record.text
  ofStore (store.write key text)
  Act.change fun g => { g with last := some record }
  note store (.saved record.episode record.node slot)

variable [DecidableEq τ]

/-- The record in a slot, if there is one. -/
def load (store : Store σ ε τ) (slot : Int) :
    Act (Gateway σ τ) (GatewayFault ε τ) (Option (Record τ)) := do
  let key ← Act.known id (slotKey slot τ)
  match ← ofStore (store.read key) with
  | none => return none
  | some text =>
    let record ← Act.known id (readRecord slot text)
    note store (.loaded record.episode record.node slot)
    return some record

/-- The record in a slot, if there is one and it belongs to an episode. -/
def loadFor (store : Store σ ε τ) (episode : τ) (slot : Int) :
    Act (Gateway σ τ) (GatewayFault ε τ) (Option (Record τ)) := do
  match ← load store slot with
  | none => return none
  | some record =>
    if record.episode = episode then return some record
    else
      note store (.foreignSave record.episode episode)
      return none

end Gateway

end Storyline.Save
