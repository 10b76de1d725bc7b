import Storyline.Directories
import Storyline.Disk.Basic
import Storyline.Episode.Document
import Storyline.Json.Reader
import Storyline.Sorted

/-!
# Storyline.Catalogue

The episodes of a directory, one document for each, in files named by id.  An
episode that was found once is remembered and not looked for again, whatever
becomes of its file.
-/

namespace Storyline

/-- Why an episode cannot be had. -/
inductive CatalogueFault
  /-- There is no file for it. -/
  | missing (file : Path)
  /-- Its file cannot be read. -/
  | unreadable (file : Path)
  /-- Its file is no JSON. -/
  | malformed (file : Path) (problem : Json.Problem) (position : Json.Position)
  /-- Its file holds no object. -/
  | shape (file : Path)
  /-- Its document has a defect. -/
  | defect (defect : Episode.Defect)
  /-- The name of its file holds the NUL character, or the bytes of it are no text. -/
  | disk (fault : DiskFault)
  /-- A number in it is too long. -/
  | number (fault : NumberFault)
deriving DecidableEq, Repr

namespace CatalogueFault

/-- The wording of a fault. -/
def message : CatalogueFault → String
  | .missing file => "Episode file not found: " ++ file.text
  | .unreadable file => "Unable to read episode file: " ++ file.text
  | .malformed file problem position =>
    "Invalid JSON in " ++ file.text ++ ": " ++ (Json.ReadError.malformed problem position).message
  | .shape file => "Expected top-level object in " ++ file.text
  | .defect d => d.message
  | .disk fault => fault.message
  | .number fault => fault.message

/-- Whether a fault lies with the data, so that it is told to the player. -/
def isOfData : CatalogueFault → Bool
  | .disk _ | .number _ => false
  | _ => true

end CatalogueFault

/-- The episodes of a directory. -/
structure Catalogue where
  /-- The directory, if it is a given one. -/
  base : Option Path
  /-- The episodes that were found. -/
  known : Table Episode
deriving DecidableEq, Repr

namespace Catalogue

/-- A catalogue that has found nothing yet. -/
def new (base : Option Path) : Catalogue := ⟨base, Table.empty⟩

/-- The directory that a catalogue looks into. -/
def directory (env : Environment) (c : Catalogue) : Path := env.contentDirectory c.base

/-- The file of an episode. -/
def file (env : Environment) (c : Catalogue) (id : String) : Path :=
  (c.directory env).join (id ++ ".json")

/-- The JSON value in a file. -/
def readJson (d : Disk) (file : Path) : Except CatalogueFault Json :=
  match d.readText file with
  | .error (.refused .notFound _) => .error (.missing file)
  | .error (.refused _ _) => .error (.unreadable file)
  | .error fault => .error (.disk fault)
  | .ok text =>
    match Json.read text with
    | .ok j => .ok j
    | .error (.malformed problem position) => .error (.malformed file problem position)
    | .error (.number fault) => .error (.number fault)

/-- Reads the episode in a file; without an id of its own it has the given one. -/
def readEpisode (d : Disk) (file : Path) (id : String) : Except CatalogueFault Episode := do
  match ← readJson d file with
  | .object members =>
    match Episode.ofJson (some id) (.object members) with
    | .ok e => return e
    | .error defect => throw (.defect defect)
  | _ => throw (.shape file)

/-- The episode of an id: the one that is known, or else the one in its file, which
is then known. -/
def get (env : Environment) (d : Disk) (id : String) (c : Catalogue) :
    Except CatalogueFault Episode × Catalogue :=
  match c.known.find? id with
  | some e => (.ok e, c)
  | none =>
    match readEpisode d (c.file env id) id with
    | .ok e => (.ok e, { c with known := c.known.insert id e })
    | .error fault => (.error fault, c)

/-- The suffix of the files. -/
def suffix : List Char := ".json".toList

/-- Whether a name is one that a document may have. -/
def isDocumentName (name : String) : Bool := suffix.isSuffixOf name.toList

/-- Of some names in a directory those of files, each asked for by its path. -/
def filesAmong (d : Disk) (directory : Path) : List String → Except DiskFault (List String)
  | [] => .ok []
  | name :: rest => do
    let found ← d.isFile (directory.join name)
    let others ← filesAmong d directory rest
    return if found then name :: others else others

/-- The ids of the documents in the directory, in order.  A directory that is not
there has none. -/
def ids (env : Environment) (d : Disk) (c : Catalogue) : Except DiskFault (List String) := do
  let directory := c.directory env
  if ← d.isDirectory directory then
    let (place, _) ← d.locate directory
    let names := ((d.children place).map Prod.fst).filter isDocumentName
    return sortBy id ((← filesAmong d directory names).map Path.stem)
  else return []

end Catalogue

end Storyline
