import Storyline.Run.Play

/-!
# Storyline.Rehearsal

Rehearsing an episode: a host and a player that follow a script.  The script says
which saves and which events go wrong, how the minigames come out, what is picked
and when the rehearsal is broken off.  All that reaches the host is kept as a list
of cues, in the order in which it came.
-/

namespace Storyline

/-- Something that reaches the host. -/
inductive Cue
  | rendered (event : Event)
  | written (key text : String)
  | writeFailed (key : String)
  | contested (game : String) (resources : Resources)
  | presented (views : List ChoiceView) (resources : Resources)
  | paused
deriving DecidableEq, Repr

namespace Rehearsal

/-- Why a rehearsal stops. -/
inductive Fault (ε : Type)
  /-- A save goes wrong, as the script says. -/
  | diskFull
  /-- An event goes wrong for good, as the script says. -/
  | crash
  /-- The script has no outcome for a minigame. -/
  | noOutcome
  /-- The script has no pick. -/
  | noPick
  /-- The script names an option by a place where there is none. -/
  | noSuchPlace
  /-- The rehearsal is broken off. -/
  | brokenOff
  /-- The store stops. -/
  | store (fault : ε)
deriving DecidableEq, Repr

/-- The wording of a fault. -/
def Fault.message {ε : Type} (store : ε → String) : Fault ε → String
  | .diskFull => "disk full"
  | .crash => "sink crashed"
  | .noOutcome => "no minigame outcome left"
  | .noPick => "no pick left"
  | .noSuchPlace => "list index out of range"
  | .brokenOff => "yield limit"
  | .store fault => store fault

/-- How an option is picked. -/
inductive Pick
  | byId (id : String)
  /-- By its place, counted from zero; below zero from the end. -/
  | byPlace (place : Int)
deriving DecidableEq, Repr

/-- What is fixed for a whole rehearsal. -/
structure Script where
  /-- The saves that go wrong, counted from zero. -/
  failingWrites : List Nat
  /-- The kinds of events that cannot be shown. -/
  unplayable : List String
  /-- The kinds of events that go wrong for good. -/
  crashing : List String
  /-- Whether the script decides the minigames. -/
  decidesMinigames : Bool
  /-- The pause at which the rehearsal is broken off; none if there are no pauses. -/
  lastPause : Option Nat
deriving Repr

/-- How far a rehearsal has come, over a store in a world `τ`. -/
structure Progress (τ : Type) where
  store : τ
  writes : Nat
  pauses : Nat
  outcomes : List Bool
  picks : List Pick
  /-- The cues so far, the latest first. -/
  cues : List Cue

variable {τ ε : Type}

/-- Keeps a cue. -/
def cue (c : Cue) : Act (Progress τ) (Fault ε) Unit :=
  Act.change fun p => { p with cues := c :: p.cues }

/-- An action of the store. -/
def ofStore {α : Type} (act : Act τ ε α) : Act (Progress τ) (Fault ε) α :=
  act.within Progress.store (fun p store => { p with store }) .store

/-- Writes to the store, unless the script says otherwise. -/
def write (script : Script) (store : Save.Store τ ε) (key text : String) :
    Act (Progress τ) (Fault ε) Unit := do
  let index ← Act.look Progress.writes
  Act.change fun p => { p with writes := p.writes + 1 }
  if script.failingWrites.contains index then
    cue (.writeFailed key)
    throw .diskFull
  ofStore (store.write key text)
  cue (.written key text)

/-- The store of a rehearsal. -/
def store (script : Script) (inner : Save.Store τ ε) : Save.Store (Progress τ) (Fault ε) where
  read key := ofStore (inner.read key)
  write := write script inner
  note n p := { p with store := inner.note n p.store }

/-- Shows an event, unless the script says otherwise.  An event that cannot be shown
does not go wrong for good, even if the script says both. -/
def render (script : Script) (event : Event) : Act (Progress τ) (Fault ε) (Option String) := do
  cue (.rendered event)
  if script.unplayable.contains event.kindName then return some "playback failed"
  if script.crashing.contains event.kindName then throw .crash
  return none

/-- Takes the next outcome of a minigame from the script. -/
def minigame (game : String) (resources : Resources) : Act (Progress τ) (Fault ε) Bool := do
  cue (.contested game resources)
  match ← Act.look Progress.outcomes with
  | [] => throw .noOutcome
  | won :: rest =>
    Act.change fun p => { p with outcomes := rest }
    return won

/-- The option of an id that is not on offer. -/
def notOnOffer (id : String) : ChoiceOption := ⟨id, "", "", none, none, none⟩

/-- The option that a pick means.  An id that is not on offer is picked all the same. -/
def Pick.option? (views : List ChoiceView) : Pick → Option ChoiceOption
  | .byId id =>
    some (((views.find? fun v => v.option.id = id).map ChoiceView.option).getD (notOnOffer id))
  | .byPlace place =>
    let fromStart := if place < 0 then place + views.length else place
    if fromStart < 0 then none else (views[fromStart.toNat]?).map ChoiceView.option

/-- Takes the next pick from the script. -/
def pick (views : List ChoiceView) (resources : Resources) :
    Act (Progress τ) (Fault ε) ChoiceOption := do
  cue (.presented views resources)
  match ← Act.look Progress.picks with
  | [] => throw .noPick
  | next :: rest =>
    Act.change fun p => { p with picks := rest }
    match next.option? views with
    | some option => return option
    | none => throw .noSuchPlace

/-- Pauses; at the last pause the rehearsal is broken off. -/
def pause (last : Nat) : Act (Progress τ) (Fault ε) Unit := do
  cue .paused
  Act.change fun p => { p with pauses := p.pauses + 1 }
  if last ≤ (← Act.look Progress.pauses) then throw .brokenOff

/-- The player that follows a script. -/
def player (script : Script) (inner : Save.Store τ ε) : Player (Progress τ) (Fault ε) where
  toStore := store script inner
  render := render script
  minigame := if script.decidesMinigames then some minigame else none
  pick := pick
  pause := script.lastPause.map pause

end Rehearsal

end Storyline
