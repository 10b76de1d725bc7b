import Storyline.Event
import Storyline.Save.Gateway

/-!
# Storyline.Run.Basic

A run of an episode: the node it stands at, its status, the options on offer, and
the resources.  Around it is the stage: the run with the gateway that saves it
and the world of its host.

The host shows events, decides minigames and keeps what is saved.  Showing an
event may fail, and that is the host's own affair: the run goes on.
-/

namespace Storyline

/-- Whether a run goes on. -/
inductive Status
  | running
  | awaitingChoice
  | terminated
deriving DecidableEq, Repr

/-- The word for a status. -/
def Status.word : Status → String
  | .running => "running"
  | .awaitingChoice => "awaiting_choice"
  | .terminated => "terminated"

/-- The status of a run that stands at a node: at the empty id it has ended. -/
def Status.at (node : String) : Status := if node = "" then .terminated else .running

/-- A run of an episode. -/
structure Run where
  episode : Episode
  /-- The id of the node that the run stands at. -/
  current : String
  status : Status
  /-- The options on offer. -/
  pending : List ChoiceView
  resources : Resources
deriving DecidableEq, Repr

namespace Run

/-- A run at its start: at a given node, or where the episode starts. -/
def start (e : Episode) (node : Option String) (resources : Resources) : Run where
  episode := e
  current := node.getD e.start
  status := Status.at (node.getD e.start)
  pending := []
  resources

/-- Whether a run has ended. -/
def isFinished (r : Run) : Bool := r.status = .terminated

/-- What is saved when a run moves on to a node. -/
def recordAt (r : Run) (node : String) : Save.Record where
  episode := r.episode.id
  node
  resources := r.resources

/-- The option on offer that a pick names: the first one of its id. -/
def offered? (r : Run) (option : String) : Option ChoiceOption :=
  (r.pending.find? fun v => v.option.id = option).map ChoiceView.option

end Run

/-! ## Faults -/

/-- Why a pick is turned down. -/
inductive Rejection
  | notOffered (option node : String)
  | unmet (option : String)
deriving DecidableEq, Repr

/-- The wording of a rejection. -/
def Rejection.message : Rejection → String
  | .notOffered option node => "Option '" ++ option ++ "' is not offered at node '" ++ node ++ "'."
  | .unmet option => "Option '" ++ option ++ "' does not meet its requirement."

/-- Why a call on a run stops. -/
inductive RunFault (ε : Type)
  /-- The run has reached an id without a node. -/
  | missingNode (id : String)
  /-- The run has reached a node of an unknown kind. -/
  | unknownKind (kind node : String)
  /-- A node or an option cannot change the resources. -/
  | update (fault : UpdateFault) (node : String)
  /-- What is held does not go together with what a node or an option asks for or adds. -/
  | clash (fault : Json.Clash)
  /-- The pick is turned down. -/
  | rejected (rejection : Rejection)
  /-- The run has ended. -/
  | ended
  /-- The run waits for a choice. -/
  | awaitingChoice (node : String)
  /-- There is no choice to make. -/
  | noChoice
  /-- A number cannot be computed, read or written. -/
  | number (fault : NumberFault)
  /-- The run cannot be saved. -/
  | save (fault : Save.GatewayFault ε)
  /-- The host stops the call. -/
  | host (fault : ε)
deriving DecidableEq, Repr

/-- The wording of a fault. -/
def RunFault.message {ε : Type} (host : ε → String) : RunFault ε → String
  | .missingNode id => "Node " ++ id ++ " not found"
  | .unknownKind kind node => "Unknown node type: " ++ kind ++ " (node '" ++ node ++ "')"
  | .update fault node => fault.message ++ " (node '" ++ node ++ "')"
  | .clash fault => fault.message
  | .rejected rejection => rejection.message
  | .ended => "The episode run has already terminated."
  | .awaitingChoice node => "Node '" ++ node ++ "' is waiting for a choice."
  | .noChoice => "No choice is pending."
  | .number fault => fault.message
  | .save fault => fault.message host
  | .host fault => host fault

/-- The fault of a change of resources; clashes and faults of numbers stand for
themselves. -/
def RunFault.ofUpdate {ε : Type} (node : String) : UpdateFault → RunFault ε
  | .number fault => .number fault
  | .clash fault => .clash fault
  | fault => .update fault node

/-! ## Hosts -/

/-- The host of a run in a world `σ`. -/
structure Host (σ ε : Type) extends Save.Store σ ε where
  /-- Shows an event; the answer says why it could not be shown, if it could not. -/
  render : Event → Act σ ε (Option String)
  /-- Decides a minigame; without this every minigame is won. -/
  minigame : Option (String → Resources → Act σ ε Bool)

/-- A run with its gateway and the world of its host. -/
structure Stage (σ : Type) where
  run : Run
  gateway : Save.Gateway σ

namespace Stage

variable {σ ε : Type}

/-- An action of the host. -/
def ofHost {α : Type} (act : Act σ ε α) : Act (Stage σ) (RunFault ε) α :=
  act.within (fun s => s.gateway.world)
    (fun s world => { s with gateway := { s.gateway with world } }) .host

/-- An action of the gateway. -/
def ofGateway {α : Type} (act : Act (Save.Gateway σ) (Save.GatewayFault ε) α) :
    Act (Stage σ) (RunFault ε) α :=
  act.within Stage.gateway (fun s gateway => { s with gateway }) .save

/-- Takes a note. -/
def note (host : Host σ ε) (n : Note) : Act (Stage σ) (RunFault ε) Unit :=
  Act.change fun s => { s with gateway := { s.gateway with world := host.note n s.gateway.world } }

/-- Looks at the run. -/
def theRun : Act (Stage σ) (RunFault ε) Run := Act.look Stage.run

/-- Changes the run. -/
def changeRun (f : Run → Run) : Act (Stage σ) (RunFault ε) Unit :=
  Act.change fun s => { s with run := f s.run }

end Stage

end Storyline
