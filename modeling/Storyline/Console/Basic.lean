import Storyline.Console.Answer
import Storyline.Event
import Storyline.Run.Play
import Storyline.Settings
import Storyline.Text.Fill

/-!
# Storyline.Console.Basic

The console: lines typed, text printed, notes taken, and a disk.  Events are
shown as wrapped lines or as directions in brackets; menus are numbered.
-/

namespace Storyline

/-- The world of a player at a console. -/
structure Console where
  /-- The lines that are still to be read. -/
  input : List String
  /-- What was printed. -/
  output : String
  /-- The notes that were taken, the latest first. -/
  notes : List Note
  disk : Disk
deriving Repr

/-- Why something at a console stops. -/
inductive ConsoleFault
  /-- There is no line left to be read. -/
  | endOfInput
  /-- A home directory is needed and not found. -/
  | home (fault : HomeFault)
  /-- A number is too long to be shown. -/
  | number (fault : NumberFault)
  /-- The disk or the store on it refuses. -/
  | file (fault : Save.FileFault)
deriving DecidableEq, Repr

/-- The wording of a fault. -/
def ConsoleFault.message : ConsoleFault → String
  | .endOfInput => "EOF when reading a line"
  | .home fault => fault.message
  | .number fault => fault.message
  | .file fault => fault.message

namespace Console

/-! ## Reading and printing -/

/-- Prints a text. -/
def print (text : String) : Act Console ConsoleFault Unit :=
  Act.change fun c => { c with output := c.output ++ text }

/-- Prints a line. -/
def printLine (line : String) : Act Console ConsoleFault Unit := print (line ++ "\n")

/-- Reads a line. -/
def readLine : Act Console ConsoleFault String :=
  Act.of fun c =>
    match c.input with
    | [] => (.error .endOfInput, c)
    | line :: rest => (.ok line, { c with input := rest })

/-- Asks a question until it is answered. -/
def question {α : Type} (judge : String → Except String α) : Act Console ConsoleFault α :=
  Act.of fun c =>
    let asked := ask judge c.input
    let c := { c with input := asked.left, output := c.output ++ asked.printed }
    match asked.answer with
    | some a => (.ok a, c)
    | none => (.error .endOfInput, c)

/-- Asks for one of so many places; where there are none, no line is an answer. -/
def askPlace (count : Int) : Act Console ConsoleFault Nat := question (judgePlace count)

/-- Takes a note. -/
def note (n : Note) (c : Console) : Console := { c with notes := n :: c.notes }

/-- An action on the disk. -/
def onDisk {α : Type} (act : Act Disk Save.FileFault α) : Act Console ConsoleFault α :=
  act.within Console.disk (fun c disk => { c with disk }) .file

/-! ## Showing -/

/-- The width of a line. -/
def lineWidth : Int := 78

/-- The text of lines. -/
def textOfLines (lines : List String) : String := String.join (lines.map (· ++ "\n"))

/-- The heading of a section. -/
def heading (title : String) : String := "\n=== " ++ title ++ " ===\n"

/-- The lines of a menu, numbered from a number on. -/
def numbered : Nat → List String → List String
  | _, [] => []
  | number, label :: rest => (Nat.repr number ++ ". " ++ label) :: numbered (number + 1) rest

/-- A menu with its heading. -/
def menu (title : String) (labels : List String) : String :=
  heading title ++ textOfLines (numbered 1 labels)

/-- Something that is not text, in brackets. -/
def direction (text : String) : String := "[" ++ text ++ "]\n"

/-- What is said when a sprite is placed. -/
def placing (who image position : String) : String :=
  direction (who ++ " (" ++ position ++ "): " ++ image)

/-- Shows a text in wrapped lines and, if they are shown in single steps, waits
for the player. -/
def showText (mode : TextMode) (text : String) : Act Console ConsoleFault Unit := do
  print (textOfLines (Text.wrap lineWidth text))
  match mode with
  | .instant => pure ()
  | .step =>
    let _ ← readLine

/-- Shows an event.  An empty line of narration is not shown, nor is the end. -/
def showEvent (mode : TextMode) : Event → Act Console ConsoleFault Unit
  | .dialogue speaker line => showText mode (Event.spoken speaker line)
  | .narration line => if line = "" then pure () else showText mode line
  | .minigameStarted game rules => showText mode (Event.announcement game rules)
  | .backgroundChanged image => print (direction ("Background: " ++ image))
  | .musicStarted track => print (direction ("Music: " ++ track))
  | .soundPlayed effect => print (direction ("Sound: " ++ effect))
  | .spritePlaced who image position => print (placing who image position.word)
  | .episodeEnded _ _ => pure ()

/-! ## Choices -/

/-- Whether notes of every level and the resources are shown. -/
def isDebugging (env : Environment) : Bool := env.lookup? Environment.debugVariable = some "1"

/-- The label of an option in a menu. -/
def optionLabel (v : ChoiceView) : String :=
  if v.selectable then v.label else v.label ++ " (locked)"

/-- The option that a line picks.  An option that cannot be picked is turned down. -/
def judgeOption (views : List ChoiceView) (line : String) : Except String ChoiceOption :=
  match judgeItem views line with
  | .error remark => .error remark
  | .ok v => if v.selectable then .ok v.option else .error "That option is locked."

/-- Lets the player pick an option. -/
def pickOption (env : Environment) (views : List ChoiceView) (resources : Resources) :
    Act Console ConsoleFault ChoiceOption := do
  if isDebugging env then
    let shown ← Act.known .number resources.shown
    print (direction ("State: " ++ shown))
  print (menu "Choices" (views.map optionLabel))
  question (judgeOption views)

/-! ## Hosting -/

/-- The store of the saves. -/
def store (directory : Path) : Save.Store Console ConsoleFault where
  read key := onDisk ((Save.fileStore directory).read key)
  write key text := onDisk ((Save.fileStore directory).write key text)
  note := note

/-- The player at a console.  Every event can be shown, every minigame is won, and
there are no pauses. -/
def player (env : Environment) (directory : Path) (mode : TextMode) :
    Player Console ConsoleFault where
  toStore := store directory
  render event := do
    showEvent mode event
    return none
  minigame := none
  pick := pickOption env
  pause := none

end Console

end Storyline
