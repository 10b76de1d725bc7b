import Storyline.Episode.Basic

/-!
# Storyline.Episode.Document

Reading an episode from its JSON document.  Only shapes are checked: each field
has to be there where it is demanded and of the right kind.  Fields that nothing
is known of are passed over, and so is everything in a node of an unknown kind.

The fields of a node are looked at in a fixed order, and the nodes in the order
of the document; the first defect is reported with its place.
-/

namespace Storyline.Episode

/-! ## Defects -/

/-- A place in an episode document. -/
inductive Place
  | document
  | episode (id : String)
  | node (episode id : String)
  | option (episode node : String) (index : Nat)
  /-- A field of an object. -/
  | field (owner : Place) (name : String)
  /-- An entry of a table. -/
  | entry (owner : Place) (name : String)
deriving DecidableEq, Repr

/-- How messages name a place. -/
def Place.text : Place → String
  | .document => "episode"
  | .episode e => "episode '" ++ e ++ "'"
  | .node e n => "episode '" ++ e ++ "' node '" ++ n ++ "'"
  | .option e n index =>
    "episode '" ++ e ++ "' node '" ++ n ++ "' options[" ++ Nat.repr index ++ "]"
  | .field owner name => owner.text ++ " " ++ name
  | .entry owner name => owner.text ++ "." ++ name

/-- What is demanded at a place. -/
inductive Demand
  | object
  | objectIfAny
  | list
  | string
  | stringIfAny
  | number
  | value
  | booleanIfAny
deriving DecidableEq, Repr

/-- How messages name a demand. -/
def Demand.text : Demand → String
  | .object => "an object/dict"
  | .objectIfAny => "an object if provided"
  | .list => "a list"
  | .string => "a string"
  | .stringIfAny => "a string if provided"
  | .number => "a number"
  | .value => "a string or number"
  | .booleanIfAny => "a boolean if provided"

/-- A place where a demand is not met. -/
structure Defect where
  place : Place
  demand : Demand
deriving DecidableEq, Repr

/-- The wording of a defect. -/
def Defect.message (d : Defect) : String := d.place.text ++ " must be " ++ d.demand.text ++ "."

/-! ## Fields -/

/-- A string. -/
def stringAt (place : Place) : Option Json → Except Defect String
  | some (.string s) => .ok s
  | _ => .error ⟨place, .string⟩

/-- A string, or nothing. -/
def stringIfAnyAt (place : Place) : Option Json → Except Defect (Option String)
  | some (.string s) => .ok (some s)
  | none | some .null => .ok none
  | _ => .error ⟨place, .stringIfAny⟩

/-- An object. -/
def objectAt (place : Place) : Option Json → Except Defect (Table Json)
  | some (.object members) => .ok (Table.ofList members)
  | _ => .error ⟨place, .object⟩

/-- Reads every entry of a list in order; names stay as they are. -/
def readEntries {α : Type} (read : String → Json → Except Defect α) :
    List (String × Json) → Except Defect (List (String × α))
  | [] => .ok []
  | (name, j) :: rest => do
    let a ← read name j
    return (name, a) :: (← readEntries read rest)

/-- Reads every entry of a table in order. -/
def readTable {α : Type} (read : String → Json → Except Defect α) (t : Table Json) :
    Except Defect (Table α) :=
  (readEntries read t.entries).map Table.ofList

/-- A table of amounts, or nothing. -/
def amountsAt (place : Place) : Option Json → Except Defect (Option (Table Amount))
  | none | some .null => .ok none
  | some (.object members) =>
    (readTable (fun name j =>
      match j with
      | .number a => .ok a
      | _ => .error ⟨.entry place name, .number⟩) (Table.ofList members)).map some
  | _ => .error ⟨place, .objectIfAny⟩

/-- A table of values. -/
def valuesAt (place : Place) (j : Option Json) : Except Defect (Table Value) := do
  let t ← objectAt place j
  readTable (fun name j =>
    match Value.ofJson? j with
    | some v => .ok v
    | none => .error ⟨.entry place name, .value⟩) t

/-- A required string field of an object. -/
def stringField (place : Place) (fields : Table Json) (name : String) : Except Defect String :=
  stringAt (.field place name) (fields.find? name)

/-- An optional string field of an object. -/
def stringFieldIfAny (place : Place) (fields : Table Json) (name : String) :
    Except Defect (Option String) :=
  stringIfAnyAt (.field place name) (fields.find? name)

/-- An optional table of amounts in an object. -/
def amountsField (place : Place) (fields : Table Json) (name : String) :
    Except Defect (Option (Table Amount)) :=
  amountsAt (.field place name) (fields.find? name)

/-- The id of the next node; without one the run ends here. -/
def nextField (place : Place) (fields : Table Json) : Except Defect String :=
  (stringFieldIfAny place fields "next").map (·.getD "")

/-! ## Nodes -/

/-- An option of a choice; without an id it has its index for one. -/
def readOption (episode node : String) (index : Nat) (j : Json) : Except Defect ChoiceOption := do
  let place := Place.option episode node index
  let fields ← objectAt place (some j)
  let id ← match fields.find? "id" with
    | none => pure (Nat.repr index)
    | found => stringAt (.field place "id") found
  let label ← stringField place fields "label"
  let next ← nextField place fields
  let gain ← amountsField place fields "gain"
  let requirement ← amountsField place fields "req"
  let remark ← stringFieldIfAny place fields "meta"
  return { id, label, next, gain, requirement, remark }

/-- The options of a choice from an index on. -/
def readOptions (episode node : String) : Nat → List Json → Except Defect (List ChoiceOption)
  | _, [] => .ok []
  | index, j :: rest => do
    let option ← readOption episode node index j
    return option :: (← readOptions episode node (index + 1) rest)

/-- The positions that a sprite may ask for; any other is the centre. -/
def positionOf (word : Option String) : StagePosition :=
  (word.bind StagePosition.ofWord?).getD .center

/-- A node of a kind from its fields. -/
def readNode (episode id kind : String) (fields : Table Json) : Except Defect Node :=
  let place := Place.node episode id
  match kind with
  | "bg" => do
    let image ← stringField place fields "bg"
    return .background image (← nextField place fields)
  | "music" => do
    let track ← stringField place fields "music"
    return .music track (← nextField place fields)
  | "say" => do
    let speaker ← stringField place fields "who"
    let line ← stringField place fields "text"
    return .say speaker line (← nextField place fields)
  | "set" => do
    let assignments ← valuesAt (.field place "vars") (fields.find? "vars")
    return .assign assignments (← nextField place fields)
  | "sprite" => do
    let position ← stringFieldIfAny place fields "pos"
    let who ← stringField place fields "who"
    let image ← stringField place fields "sprite"
    return .sprite who image (positionOf position) (← nextField place fields)
  | "choice" => do
    match fields.find? "options" with
    | some (.array items) =>
      let options ← readOptions episode id 0 items
      return .choice ((← stringFieldIfAny place fields "text").getD "") options
    | _ => throw ⟨.field place "options", .list⟩
  | "check" => do
    let requirement ← amountsField place fields "req"
    let onPass ← stringField place fields "onPass"
    return .check requirement onPass (← stringField place fields "onFail")
  | "sfx" => do
    let effect ← stringField place fields "sfx"
    return .sound effect (← nextField place fields)
  | "minigame" => do
    let game ← stringField place fields "id"
    let rules ← stringFieldIfAny place fields "rules"
    let onWin ← stringField place fields "onWin"
    return .minigame game (rules.getD "") onWin (← stringField place fields "onLose")
  | "jump" => do
    return .jump (← stringField place fields "to")
  | "end" => do
    match fields.find? "save" with
    | none | some .null => return .ending (← stringFieldIfAny place fields "summary") none
    | some (.bool save) => return .ending (← stringFieldIfAny place fields "summary") (some save)
    | _ => throw ⟨.field place "save", .booleanIfAny⟩
  | kind => .ok (.unknown kind)

/-- The node of an id from its JSON value. -/
def readNodeAt (episode id : String) (j : Json) : Except Defect Node := do
  let fields ← objectAt (.node episode id) (some j)
  let kind ← stringField (.node episode id) fields "type"
  readNode episode id kind fields

/-! ## Episodes -/

/-- The id of an episode: its own, or the default one if it has none. -/
def readId (fields : Table Json) (default : Option String) : Except Defect String :=
  match fields.find? "episodeId" with
  | none =>
    match default with
    | some id => .ok id
    | none => .error ⟨.field .document "episodeId", .string⟩
  | found => stringAt (.field .document "episodeId") found

/-- Reads an episode from its document.  A missing or empty title is the id. -/
def ofJson (default : Option String) (j : Json) : Except Defect Episode := do
  let fields ← objectAt .document (some j)
  let id ← readId fields default
  let title ← stringFieldIfAny (.episode id) fields "title"
  let start ← stringField (.episode id) fields "start"
  let nodes ← objectAt (.field (.episode id) "nodes") (fields.find? "nodes")
  let nodes ← readTable (readNodeAt id) nodes
  return {
    id
    title := match title with
      | none | some "" => id
      | some title => title
    start
    nodes }

end Storyline.Episode
