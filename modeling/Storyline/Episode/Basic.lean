import Storyline.Resources

/-!
# Storyline.Episode.Basic

Episodes: graphs of nodes, each under its own id.  A node says what happens when
a run reaches it and names the nodes that may come next.  A reference is only an
id; whether a node of that id exists is settled when a run gets there.  The empty
id ends a run.
-/

namespace Storyline

/-- Where a sprite stands. -/
inductive StagePosition
  | left
  | right
  | center
deriving DecidableEq, Repr

/-- The word for a position. -/
def StagePosition.word : StagePosition → String
  | .left => "left"
  | .right => "right"
  | .center => "center"

/-- The position of a word, if it is one. -/
def StagePosition.ofWord? : String → Option StagePosition
  | "left" => some .left
  | "right" => some .right
  | "center" => some .center
  | _ => none

/-- One option of a choice. -/
structure ChoiceOption where
  /-- The id by which the option is picked. -/
  id : String
  /-- What the player reads. -/
  label : String
  /-- The node that the option leads to. -/
  next : String
  /-- What the option adds to the resources. -/
  gain : Option (Table Amount)
  /-- The thresholds that have to be reached to pick it. -/
  requirement : Option (Table Amount)
  /-- A remark on how the option is sold. -/
  remark : Option String
deriving DecidableEq, Repr

/-- A node of an episode. -/
inductive Node
  /-- Changes the background. -/
  | background (image next : String)
  /-- Starts a piece of music. -/
  | music (track next : String)
  /-- Lets somebody say a line. -/
  | say (speaker line next : String)
  /-- Assigns resources. -/
  | assign (assignments : Table Value) (next : String)
  /-- Places a sprite. -/
  | sprite (who image : String) (position : StagePosition) (next : String)
  /-- Offers options. -/
  | choice (prompt : String) (options : List ChoiceOption)
  /-- Branches on a requirement. -/
  | check (requirement : Option (Table Amount)) (onPass onFail : String)
  /-- Plays a sound. -/
  | sound (effect next : String)
  /-- Hands over to a minigame and branches on its outcome. -/
  | minigame (game rules onWin onLose : String)
  /-- Goes on at another node. -/
  | jump (target : String)
  /-- Ends the episode. -/
  | ending (summary : Option String) (save : Option Bool)
  /-- A node of a kind that nothing is known of. -/
  | unknown (kind : String)
deriving DecidableEq, Repr

/-- An episode. -/
structure Episode where
  id : String
  title : String
  /-- The node at which a run starts. -/
  start : String
  /-- The nodes by their ids. -/
  nodes : Table Node
deriving DecidableEq, Repr

namespace Node

/-- The ids that may come after a node. -/
def successors : Node → List String
  | .background _ next | .music _ next | .say _ _ next | .assign _ next | .sprite _ _ _ next
  | .sound _ next => [next]
  | .choice _ options => options.map ChoiceOption.next
  | .check _ onPass onFail => [onPass, onFail]
  | .minigame _ _ onWin onLose => [onWin, onLose]
  | .jump target => [target]
  | .ending _ _ => [""]
  | .unknown _ => []

/-- The name of a node's kind in the log. -/
def kindName : Node → String
  | .background .. => "BackgroundNodeDef"
  | .music .. => "MusicNodeDef"
  | .say .. => "SayNodeDef"
  | .assign .. => "SetNodeDef"
  | .sprite .. => "SpriteNodeDef"
  | .choice .. => "ChoiceNodeDef"
  | .check .. => "CheckNodeDef"
  | .sound .. => "SfxNodeDef"
  | .minigame .. => "MinigameNodeDef"
  | .jump .. => "JumpNodeDef"
  | .ending .. => "EndNodeDef"
  | .unknown .. => "UnknownNodeDef"

end Node

/-- The node of an id, if the episode has one. -/
def Episode.node? (e : Episode) (id : String) : Option Node := e.nodes.find? id

end Storyline
