import Storyline.Disk.Path

/-!
# Storyline.Directories

Where things are kept: the episodes, the settings and the saves.
-/

namespace Storyline.Environment

/-- The variable that names the directory of the episodes. -/
def contentVariable : String := "TALEWEAVE_CONTENT_DIR"

/-- The variable that asks for all notes to be shown. -/
def debugVariable : String := "TALEWEAVE_DEBUG"

/-- Whether a variable is set to something. -/
def isSet (env : Environment) (name : String) : Bool := (env.lookup? name).any (· ≠ "")

/-- The directory of the episodes: a given one before the one that the environment
names, and that before the one that comes with the program. -/
def contentDirectory (env : Environment) (base : Option Path) : Path :=
  match base with
  | some base => base
  | none =>
    match env.lookup? contentVariable with
    | none | some "" => (env.installation.join "content").join "episodes"
    | some dir => Path.ofText dir

/-- The directory of the player's data. -/
def dataDirectory (env : Environment) : Except HomeFault Path :=
  match env.usesAppData, env.lookup? "APPDATA" with
  | true, none | true, some "" => env.home.map (·.join "Taleweave")
  | true, some base => .ok ((Path.ofText base).join "Taleweave")
  | false, _ => env.home.map fun home => (home.join ".config").join "taleweave"

/-- The file of the settings. -/
def settingsFile (env : Environment) : Except HomeFault Path :=
  env.dataDirectory.map (·.join "config.json")

/-- The directory of the saves. -/
def savesDirectory (env : Environment) : Except HomeFault Path :=
  env.dataDirectory.map (·.join "saves")

end Storyline.Environment
