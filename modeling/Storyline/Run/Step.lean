import Storyline.Run.Basic

/-!
# Storyline.Run.Step

One transition of a run.  What a node does is worked out first, from the
resources alone: its *beat* says which resources it leaves, which events it
shows, and where it turns to.  The step then shows the events, settles the turn
with the host if need be, and moves on, saving before the run stands at the next
node.  A choice is the exception: it suspends the run until an option is picked.
-/

namespace Storyline

/-- Where a node turns to once its events are shown. -/
inductive Turn
  /-- To a node. -/
  | go (next : String)
  /-- To one of the nodes of its options. -/
  | offer (options : List ChoiceOption)
  /-- To one of two nodes, as a minigame comes out. -/
  | contest (game onWin onLose : String)
deriving DecidableEq, Repr

/-- What a node does. -/
structure Beat where
  /-- The resources that it leaves. -/
  resources : Resources
  /-- The events that it shows. -/
  events : List Event
  turn : Turn
deriving DecidableEq, Repr

/-- The line at the end of every episode. -/
def endLine : String := "The End"

/-- The beat of a node that only shows an event. -/
def Beat.show (resources : Resources) (event : Event) (next : String) : Beat :=
  ⟨resources, [event], .go next⟩

/-- The summary of an ending as it is shown; an empty one counts as none. -/
def summaryLine (resources : Resources) (summary : Option String) :
    Except NumberFault (Option String) :=
  match summary with
  | none | some "" => .ok none
  | some template => (resources.interpolate template).map some

/-- What a node does with given resources. -/
def Node.beat {ε : Type} (id : String) (resources : Resources) :
    Node → Except (RunFault ε) Beat
  | .background image next => .ok (.show resources (.backgroundChanged image) next)
  | .music track next => .ok (.show resources (.musicStarted track) next)
  | .say speaker line next => .ok (.show resources (.dialogue speaker line) next)
  | .sprite who image position next => .ok (.show resources (.spritePlaced who image position) next)
  | .sound effect next => .ok (.show resources (.soundPlayed effect) next)
  | .assign assignments next =>
    match resources.assign (assignments.map Value.toJson) with
    | .ok resources => .ok ⟨resources, [], .go next⟩
    | .error fault => .error (.ofUpdate id fault)
  | .choice prompt options => .ok ⟨resources, [.narration prompt], .offer options⟩
  | .check requirement onPass onFail =>
    match resources.meets requirement with
    | .ok met => .ok ⟨resources, [], .go (if met then onPass else onFail)⟩
    | .error clash => .error (.clash clash)
  | .minigame game rules onWin onLose =>
    .ok ⟨resources, [.minigameStarted game rules], .contest game onWin onLose⟩
  | .jump target => .ok ⟨resources, [], .go target⟩
  | .ending summary save =>
    match summaryLine resources summary with
    | .ok shown =>
      .ok ⟨resources,
        (shown.map Event.narration).toList ++ [.narration endLine, .episodeEnded shown save],
        .go ""⟩
    | .error fault => .error (.number fault)
  | .unknown kind => .error (.unknownKind kind id)

/-- The requirement that a node itself tests. -/
def Node.tested : Node → Option (Table Amount)
  | .check requirement _ _ => requirement
  | _ => none

/-- An option as it is offered with given resources. -/
def ChoiceOption.view {ε : Type} (resources : Resources) (o : ChoiceOption) :
    Except (RunFault ε) ChoiceView := do
  let selectable ← (resources.meets o.requirement).mapError .clash
  let cost ← (costNote o.gain o.remark).mapError .number
  return ⟨o, selectable, cost⟩

/-- What a call on a run answers. -/
structure StepResult where
  /-- The node that was dealt with. -/
  node : String
  status : Status
  /-- The node that the run moved on to, if it did. -/
  next : Option String
  events : List Event
  choices : List ChoiceView
deriving DecidableEq, Repr

namespace Stage

variable {σ ε : Type}

/-- Shows an event.  If it cannot be shown that is noted, and no more. -/
def emit (host : Host σ ε) (event : Event) : Act (Stage σ) (RunFault ε) Unit := do
  match ← ofHost (host.render event) with
  | none => pure ()
  | some reason => note host (.notPlayed event.kindName reason)

/-- Shows events one after the other. -/
def emitAll (host : Host σ ε) : List Event → Act (Stage σ) (RunFault ε) Unit
  | [] => pure ()
  | event :: rest => do
    emit host event
    emitAll host rest

/-- Notes the text that decides against a requirement, if one does. -/
def noteConflict (host : Host σ ε) (resources : Resources)
    (requirement : Option (Table Amount)) : Act (Stage σ) (RunFault ε) Unit :=
  match resources.verdict requirement with
  | .ok (.textHeld name held) => note host (.textRequirement name held)
  | _ => pure ()

/-- The options of a choice as they are offered. -/
def offer (host : Host σ ε) (resources : Resources) :
    List ChoiceOption → Act (Stage σ) (RunFault ε) (List ChoiceView)
  | [] => pure []
  | o :: rest => do
    noteConflict host resources o.requirement
    let view ← Act.known id (o.view resources)
    return view :: (← offer host resources rest)

/-- Moves on to a node: saves there, and only then stands there. -/
def advance (host : Host σ ε) (node next : String) (events : List Event) :
    Act (Stage σ) (RunFault ε) StepResult := do
  let run ← theRun
  ofGateway (Save.Gateway.save host.toStore (run.recordAt next) 0)
  changeRun fun r => { r with current := next, status := Status.at next }
  if next = "" then note host (.finished run.episode.id node)
  return ⟨node, Status.at next, some next, events, []⟩

/-- Decides a minigame. -/
def contest (host : Host σ ε) (game : String) : Act (Stage σ) (RunFault ε) Bool := do
  match host.minigame with
  | some decide => ofHost (decide game (← theRun).resources)
  | none => return true

/-- Settles where a node turns to. -/
def turn (host : Host σ ε) (node : String) (events : List Event) :
    Turn → Act (Stage σ) (RunFault ε) StepResult
  | .go next => advance host node next events
  | .offer options => do
    let views ← offer host (← theRun).resources options
    changeRun fun r => { r with pending := views, status := .awaitingChoice }
    return ⟨node, .awaitingChoice, none, events, views⟩
  | .contest game onWin onLose => do
    let won ← contest host game
    advance host node (if won then onWin else onLose) events

/-- Deals with the node that the run stands at. -/
def perform (host : Host σ ε) (node : Node) : Act (Stage σ) (RunFault ε) StepResult := do
  let run ← theRun
  note host (.dispatching run.current node.kindName)
  noteConflict host run.resources node.tested
  let beat ← Act.known id (node.beat run.current run.resources)
  changeRun fun r => { r with resources := beat.resources }
  emitAll host beat.events
  turn host run.current beat.events beat.turn

/-- One step of a run that is running. -/
def step (host : Host σ ε) : Act (Stage σ) (RunFault ε) StepResult := do
  let run ← theRun
  match run.status with
  | .terminated => throw .ended
  | .awaitingChoice => throw (.awaitingChoice run.current)
  | .running =>
    match run.episode.node? run.current with
    | none => throw (.missingNode run.current)
    | some node => perform host node

/-- Picks an option of the choice that the run waits for.  Whether its requirement
is met is asked again, for the resources may have changed since it was offered. -/
def choose (host : Host σ ε) (option : String) : Act (Stage σ) (RunFault ε) StepResult := do
  let run ← theRun
  if run.status ≠ .awaitingChoice then throw .noChoice
  match run.offered? option with
  | none => throw (.rejected (.notOffered option run.current))
  | some picked =>
    noteConflict host run.resources picked.requirement
    if !(← Act.known .clash (run.resources.meets picked.requirement)) then
      throw (.rejected (.unmet option))
    let resources ← Act.known (RunFault.ofUpdate run.current) (run.resources.gain picked.gain)
    changeRun fun r => { r with resources, pending := [] }
    advance host run.current picked.next []

/-- Starts a run on the world of a gateway. -/
def start (host : Host σ ε) (gateway : Save.Gateway σ) (e : Episode)
    (node : Option String) (resources : Resources) : Stage σ where
  run := Run.start e node resources
  gateway := { gateway with
    world := host.note (.started e.id (node.getD e.start) resources.size) gateway.world }

end Stage

end Storyline
