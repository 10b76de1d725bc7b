import Storyline.Catalogue
import Storyline.Console.Basic

/-!
# Storyline.Console.Session

A session at the console: an episode is selected, and then the main menu is shown
until the player quits.  A run that can go on is offered to be continued; one
that is aborted leads back to the menu.
-/

namespace Storyline

/-- Why a session ends before the player quits. -/
inductive SessionFault
  | console (fault : ConsoleFault)
  | catalogue (fault : CatalogueFault)
  | gateway (fault : Save.GatewayFault ConsoleFault)
  | run (fault : RunFault ConsoleFault)
deriving DecidableEq, Repr

/-- The wording of a fault. -/
def SessionFault.message : SessionFault → String
  | .console fault => fault.message
  | .catalogue fault => fault.message
  | .gateway fault => fault.message ConsoleFault.message
  | .run fault => fault.message ConsoleFault.message

/-- Whether a fault of a run is one of the episode, so that the run is aborted and
the session goes on. -/
def RunFault.isOfEpisode {ε : Type} : RunFault ε → Bool
  | .clash _ | .number _ | .save _ | .host _ => false
  | _ => true

/-- What can be done in the main menu. -/
inductive MenuAction
  | newGame
  | resume
  | options
  | quit
deriving DecidableEq, Repr

/-- The label of an action. -/
def MenuAction.label : MenuAction → String
  | .newGame => "New Game"
  | .resume => "Continue"
  | .options => "Options"
  | .quit => "Quit"

/-- The actions of the main menu. -/
def MenuAction.offered (canContinue : Bool) : List MenuAction :=
  .newGame :: (if canContinue then [.resume] else []) ++ [.options, .quit]

namespace Console

/-- An action at the console, as a part of a session. -/
def inSession {α : Type} (act : Act Console ConsoleFault α) : Act Console SessionFault α :=
  act.within id (fun _ c => c) .console

/-! ## Settings -/

/-- Loads the settings. -/
def loadSettings (env : Environment) (file : Option Path) : Act Console ConsoleFault Settings := do
  let file ← match file with
    | some file => pure file
    | none => Act.known .home env.settingsFile
  Act.look fun c => Settings.load c.disk file

/-- Saves settings. -/
def saveSettings (env : Environment) (file : Option Path) (raw : RawSettings) :
    Act Console ConsoleFault Unit := do
  let file ← match file with
    | some file => pure file
    | none => Act.known .home env.settingsFile
  onDisk (Act.of fun d =>
    let (saved, d) := Settings.save raw file d
    (saved.mapError .disk, d))

/-- Remembers the episode that was selected last. -/
def rememberEpisode (env : Environment) (settings : RawSettings) (id : String) :
    Act Console ConsoleFault RawSettings := do
  if settings.find? "last_episode" = some (.string id) then return settings
  let settings : RawSettings := settings.insert "last_episode" (.string id)
  saveSettings env none settings
  return settings

/-- Shows the options and lets the player change the mode. -/
def optionsMenu (env : Environment) (settings : RawSettings) :
    Act Console ConsoleFault RawSettings := do
  let mode := settings.textMode
  print (menu "Options" ["Text display: " ++ mode.word ++ " (toggle)", "Back"])
  if (← askPlace 2) = 0 then
    let settings : RawSettings :=
      settings.insert RawSettings.modeName (.string mode.toggle.word)
    saveSettings env none settings
    return settings
  return settings

/-! ## Selecting an episode -/

/-- The ids as they are offered: the one that was played last first. -/
def offeredOrder (ids : List String) (last : Option String) : List String :=
  ids.filter (some · == last) ++ ids.filter (some · != last)

/-- The label of an id. -/
def episodeLabel (last : Option String) (id : String) : String :=
  if some id = last then id ++ " (last played)" else id

/-- Lets the player select an episode; if there is only one there is no question. -/
def selectEpisode (ids : List String) (last : Option String) :
    Act Console ConsoleFault String := do
  match ids with
  | [id] => return id
  | ids =>
    let order := offeredOrder ids last
    print (menu "Episodes" (order.map (episodeLabel last)))
    question (judgeItem order)

/-! ## The main menu -/

/-- The saved run of an episode that can go on.  A save that cannot be read is
noted and left aside. -/
def resumable (directory : Path) (e : Episode) :
    Act Console SessionFault (Option Save.Record) :=
  Act.of fun c =>
    let gateway : Save.Gateway Console := ⟨none, c⟩
    match (Save.Gateway.loadFor (store directory) e.id 0).on gateway with
    | (.ok (some record), g) =>
      (.ok (if record.isFinished then none else some record), g.world)
    | (.ok none, g) => (.ok none, g.world)
    | (.error (.notJson slot), g) =>
      let fault : Save.GatewayFault ConsoleFault := .notJson slot
      (.ok none, g.world.note (.unreadableSave (fault.message ConsoleFault.message)))
    | (.error (.record fault), g) =>
      (.ok none, g.world.note (.unreadableSave fault.message))
    | (.error fault, g) => (.error (.gateway fault), g.world)

/-- More rounds than any run takes. -/
def roundLimit : Nat := 1000000000000

/-- Plays an episode from its start or from a saved run.  A run that stops for a
fault of the episode is aborted. -/
def playEpisode (env : Environment) (directory : Path) (e : Episode) (settings : RawSettings)
    (saved : Option Save.Record) : Act Console SessionFault Unit := do
  inSession (print (heading e.title))
  let player := player env directory settings.textMode
  let outcome ← (Act.of fun c =>
    let s := Stage.start player.toHost ⟨none, c⟩ e (saved.map Save.Record.node)
      ((saved.map Save.Record.resources).getD Table.empty)
    match (Stage.play player roundLimit).on s with
    | (.ok _, s) => (.ok none, s.gateway.world)
    | (.error fault, s) =>
      if fault.isOfEpisode then (.ok (some fault), s.gateway.world)
      else (.error (.run fault), s.gateway.world) :
    Act Console SessionFault (Option (RunFault ConsoleFault)))
  match outcome with
  | none => pure ()
  | some fault =>
    inSession (printLine ("Episode aborted: " ++ fault.message ConsoleFault.message))

/-- Shows the main menu and asks for an action. -/
def askAction (e : Episode) (canContinue : Bool) : Act Console ConsoleFault MenuAction := do
  let actions := MenuAction.offered canContinue
  print (menu e.title (actions.map MenuAction.label))
  question (judgeItem actions)

/-- Shows the main menu until the player quits.  Each time takes a line, so as
many times as there are lines are enough. -/
def mainMenu (env : Environment) (directory : Path) (e : Episode) :
    Nat → RawSettings → Act Console SessionFault Unit
  | 0, _ => throw (.console .endOfInput)
  | times + 1, settings => do
    let saved ← resumable directory e
    match ← inSession (askAction e saved.isSome) with
    | .quit => pure ()
    | .options =>
      let settings ← inSession (optionsMenu env settings)
      mainMenu env directory e times settings
    | .resume => do
      playEpisode env directory e settings saved
      mainMenu env directory e times settings
    | .newGame => do
      playEpisode env directory e settings none
      mainMenu env directory e times settings

/-! ## Sessions -/

/-- Goes on with an episode that was found. -/
def sessionOf (env : Environment) (directory : Path) (settings : Settings) (id : String)
    (e : Episode) : Act Console SessionFault Unit := do
  let settings ← inSession (rememberEpisode env settings.raw id)
  let lines ← Act.look fun c => c.input.length
  mainMenu env directory e (lines + 1) settings
  inSession (printLine "Goodbye!")

/-- A whole session. -/
def session (env : Environment) : Act Console SessionFault Unit := do
  let settings ← inSession (loadSettings env none)
  let base ← inSession (Act.known .home (settings.contentDirectory env))
  let catalogue := Catalogue.new base
  let directory ← inSession (Act.known .home env.savesDirectory)
  inSession (printLine "=== Taleweave ===")
  let found ← Act.look fun c => catalogue.ids env c.disk
  match ← Act.known (fun fault => .console (.file (.disk fault))) found with
  | [] => inSession (printLine "No episodes found.")
  | ids =>
    let id ← inSession (selectEpisode ids (settings.find? "last_episode"))
    match (← Act.look fun c => catalogue.get env c.disk id).1 with
    | .ok e => sessionOf env directory settings id e
    | .error fault =>
      if fault.isOfData then
        inSession (printLine ("Unable to load episode: " ++ fault.message))
      else throw (.catalogue fault)

/-- The lines of the notes that are shown, the earliest first. -/
def noteLines (env : Environment) (c : Console) : List String :=
  (c.notes.reverse.filter fun n => isDebugging env || n.level = .warning).map Note.line

end Console

end Storyline
