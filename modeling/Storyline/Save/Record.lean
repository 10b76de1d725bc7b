import Storyline.Json.Writer
import Storyline.Resources

/-!
# Storyline.Save.Record

What is kept of a run: the episode, the node to go on at, the resources there,
and the version of the form.  An empty node id marks a run that has ended.  Texts
are strings unless another type is given for them.

The version is one.  It is kept in the spelling it was found in: the whole
number, the double, or the truth value, all of which count as one.
-/

namespace Storyline.Save

/-- The spellings of the version. -/
inductive Version
  | whole
  | double
  | truth
deriving DecidableEq, Repr

variable {τ : Type}

/-- The version as JSON. -/
def Version.toJson : Version → Json τ
  | .whole => .number (.int 1)
  | .double => .number (.real (Binary64.nearest false Binary64.one 1))
  | .truth => .bool true

/-- The spelling that a JSON value is, if it counts as one. -/
def Version.ofJson? : Json τ → Option Version
  | .number (.int n) => if n = 1 then some .whole else none
  | .number (.real x) => if x.toInt? = some 1 then some .double else none
  | .bool true => some .truth
  | _ => none

/-- What is kept of a run. -/
structure Record (τ : Type := String) where
  episode : τ
  node : τ
  resources : Resources τ
  version : Version := .whole
deriving DecidableEq, Repr

/-- Why a JSON value is no record. -/
inductive RecordFault (τ : Type := String)
  /-- It is no object. -/
  | shape
  /-- Its version, shown here, is not one. -/
  | version (shown : String)
  /-- A field is no string. -/
  | field (name : String)
  /-- The resources are no object. -/
  | resources
  /-- A resource is neither a number nor a string. -/
  | resource (name : τ)
deriving DecidableEq, Repr

/-- The wording of a fault. -/
def RecordFault.message : RecordFault → String
  | .shape => "Save data must be a JSON object."
  | .version shown => "Unsupported save version: " ++ shown ++ "."
  | .field name => name ++ " must be a string."
  | .resources => "resources must be an object."
  | .resource name => "resources." ++ name ++ " must be a number or string."

/-- Why a record cannot be read: it is at fault, or the message on its version
cannot be written. -/
inductive ReadFault (τ : Type := String)
  | record (fault : RecordFault τ)
  | number (fault : NumberFault)
deriving DecidableEq, Repr

namespace Record

/-- Whether the run of a record has ended. -/
def isFinished (r : Record) : Bool := r.node = ""

/-- Resources, all of which have to be numbers or strings. -/
def ofMembers (members : Table (Json τ) τ) : Except (ReadFault τ) (Resources τ) :=
  match members.entries.find? fun e => !e.2.isValue with
  | some (name, _) => .error (.record (.resource name))
  | none => .ok members

variable [Textual τ]

/-- The members of a record in their order. -/
def payload (r : Record τ) : List (τ × Json τ) := [
  (ofString "episodeId", .string r.episode),
  (ofString "nodeId", .string r.node),
  (ofString "resources", r.resources.toJson),
  (ofString "version", r.version.toJson)]

/-- A record as JSON. -/
def toJson (r : Record τ) : Json τ := .object r.payload

/-- The text that is stored for a record. -/
def text (r : Record τ) : Except NumberFault String := r.toJson.write

variable [DecidableEq τ]

/-- A string field. -/
def stringField (fields : Table (Json τ) τ) (name : String) : Except (ReadFault τ) τ :=
  match fields.find? (ofString name) with
  | some (.string s) => .ok s
  | _ => .error (.record (.field name))

/-- The version. -/
def versionField (fields : Table (Json τ) τ) : Except (ReadFault τ) Version :=
  let found := (fields.find? (ofString "version")).getD .null
  match Version.ofJson? found with
  | some version => .ok version
  | none =>
    match found.shown with
    | .ok shown => .error (.record (.version shown))
    | .error fault => .error (.number fault)

/-- The resources; without any the table is empty. -/
def resourcesField (fields : Table (Json τ) τ) : Except (ReadFault τ) (Resources τ) :=
  match fields.find? (ofString "resources") with
  | none | some .null => .ok Table.empty
  | some (.object members) => ofMembers (Table.ofList members)
  | _ => .error (.record .resources)

/-- Reads a record.  Members that nothing is known of do not matter. -/
def ofJson (j : Json τ) : Except (ReadFault τ) (Record τ) := do
  match j with
  | .object members =>
    let fields := Table.ofList members
    let version ← versionField fields
    let episode ← stringField fields "episodeId"
    let node ← stringField fields "nodeId"
    let resources ← resourcesField fields
    return { episode, node, resources, version }
  | _ => throw (.record .shape)

end Record

end Storyline.Save
