import Storyline.Directories
import Storyline.Disk.Basic
import Storyline.Json.Reader
import Storyline.Json.Writer
import Storyline.Text.Blank

/-!
# Storyline.Settings

What a player has set: how text is shown, where the episodes are, and which one
was played last.  Settings are texts by name.  Made *normal*, they hold these
three names only, in this order: the mode always, the others if they are not
blank, without the blanks around them.

A settings file that is missing or cannot be read counts as one without
settings, so that nothing in it can keep the program from starting.
-/

namespace Storyline

/-- Settings by name. -/
abbrev Settings := Table String

/-- Settings as they come: anything may stand under a name. -/
abbrev RawSettings := Table Json

/-- How text is shown. -/
inductive TextMode
  /-- All at once. -/
  | instant
  /-- Line by line, each awaited by the player. -/
  | step
deriving DecidableEq, Repr

/-- The word for a mode. -/
def TextMode.word : TextMode → String
  | .instant => "instant"
  | .step => "step"

/-- The other mode. -/
def TextMode.toggle : TextMode → TextMode
  | .instant => .step
  | .step => .instant

/-- The name of the mode. -/
def RawSettings.modeName : String := "text_display_mode"

/-- The mode that settings ask for; anything but the word for single steps asks
for text all at once. -/
def RawSettings.textMode (raw : RawSettings) : TextMode :=
  if raw.find? modeName = some (.string TextMode.step.word) then .step else .instant

namespace Settings

/-- The names of the settings that may be missing. -/
def optionalNames : List String := ["content_dir", "last_episode"]

/-- The settings of a player who has set nothing. -/
def initial : Settings :=
  Table.empty.insert RawSettings.modeName TextMode.instant.word

/-- The text of an optional setting, without the blanks around it. -/
def optionalText? (raw : RawSettings) (name : String) : Option String :=
  match raw.find? name with
  | some (.string s) => if Text.trim s = "" then none else some (Text.trim s)
  | _ => none

/-- Makes raw settings normal. -/
def normalize (raw : RawSettings) : Settings :=
  (Table.empty.insert RawSettings.modeName raw.textMode.word).insertAll
    (optionalNames.filterMap fun name => (optionalText? raw name).map fun text => (name, text))

/-- Settings as raw ones. -/
def raw (s : Settings) : RawSettings := s.map Json.string

/-- The directory of the episodes that settings name.  One that the environment
names goes before it. -/
def contentDirectory (env : Environment) (s : Settings) : Except HomeFault (Option Path) :=
  if env.isSet Environment.contentVariable then .ok none
  else
    match s.find? "content_dir" with
    | none | some "" => .ok none
    | some dir => (env.expandHome (Path.ofText dir)).map some

/-! ## The file -/

/-- A setting in the file. -/
def writeEntry (e : String × String) : List Char :=
  ' ' :: ' ' :: Json.writeMember (e.1, Json.writeString e.2)

/-- The text of the file, a line for each setting, in the order of their names. -/
def text (s : Settings) : String :=
  String.ofList ('\x7b' :: '\n' ::
    Json.separated ",\n" ((sortBy Prod.fst s.entries).map writeEntry) ++ ['\n', '\x7d'])

/-- The settings in a text, if it holds an object. -/
def ofText (text : String) : Settings :=
  match Json.read text with
  | .ok (.object members) => normalize (Table.ofList members)
  | _ => initial

/-- The settings in a file. -/
def load (d : Disk) (file : Path) : Settings :=
  match d.readText file with
  | .ok text => ofText text
  | .error _ => initial

/-- Writes settings, made normal, to a file, and makes its directory if need be. -/
def save (raw : RawSettings) (file : Path) (d : Disk) : Except DiskFault Unit × Disk :=
  match Disk.ensureDirectory file.parent d with
  | (.error fault, d) => (.error fault, d)
  | (.ok (), d) =>
    match d.writeText file (normalize raw).text with
    | .ok d => (.ok (), d)
    | .error fault => (.error fault, d)

end Settings

end Storyline
