import Storyline.Console.Session
import Storyline.Shipped

/-!
# Storyline.Main

The program.  A session is a function of the lines typed so far: when it has read
them all it is broken off, what it printed beyond the last time is shown, what it
wrote is put on the disk, and it is gone through again with one line more.
-/

namespace Storyline.Program

/-- The variables that matter. -/
def variableNames : List String :=
  ["HOME", "APPDATA", Environment.contentVariable, Environment.debugVariable]

/-- The variables that are set. -/
def bindingsOf : List String → IO (List (String × String))
  | [] => return []
  | name :: rest => do
    let more ← bindingsOf rest
    match ← IO.getEnv name with
    | some value => return (name, value) :: more
    | none => return more

/-- The accounts in the text of an account file, with their home directories; of
two of one name the first counts. -/
def accountsIn (text : String) : Table String :=
  Table.ofList ((text.splitOn "\n").filterMap fun line =>
    match line.splitOn ":" with
    | name :: _ :: _ :: _ :: _ :: home :: _ => some (name, home)
    | _ => none).reverse

/-- The accounts of the system. -/
def systemAccounts : IO (Table String) := do
  try
    return accountsIn (← IO.FS.readFile "/etc/passwd")
  catch _ => return Table.empty

/-- The surroundings of the program. -/
def surroundings : IO Environment := do
  let installation ← IO.appDir
  return {
    bindings := Table.ofList (← bindingsOf variableNames)
    accounts := ← systemAccounts
    usesAppData := false
    installation := Path.ofText installation.toString }

/-- The place of a path. -/
def placeOf (d : Disk) (p : Path) : List String :=
  if p.root = .here then d.here ++ p.parts else p.parts

/-- Puts an entry at a path, with the directories that lead to it. -/
def mount (d : Disk) (p : Path) (entry : DiskEntry) : Disk :=
  let place := placeOf d p
  let above := (List.range place.length).map fun n => place.take n
  (above.foldl (fun d place => d.put place .directory) d).put place entry

/-- Takes a file over from the real disk, if it is there. -/
def takeFile (d : Disk) (p : Path) : IO Disk := do
  try
    let bytes ← IO.FS.readBinFile p.text
    return mount d p (.file bytes.toList)
  catch _ => return d

/-- Takes the files of a directory over from the real disk. -/
def takeFiles (d : Disk) (p : Path) : List String → IO Disk
  | [] => return d
  | name :: rest => do takeFiles (← takeFile d (p.join name)) p rest

/-- Takes a directory over from the real disk, if it is there. -/
def takeDirectory (d : Disk) (p : Path) : IO Disk := do
  try
    let directory ← IO.FS.realPath p.text
    let names := (← directory.readDir).toList.map fun entry => entry.fileName
    takeFiles (mount d p .directory) p names
  catch _ => return d

/-- The directory of the episodes, as settings on a disk have it. -/
def episodes (env : Environment) (d : Disk) : Path :=
  let settings := (env.settingsFile.map (Settings.load d)).toOption.getD Settings.initial
  env.contentDirectory ((settings.contentDirectory env).toOption.getD none)

/-- The disk of a session: the settings, the saves and the episodes. -/
def takeDisk (env : Environment) : IO Disk := do
  let here := (Path.ofText (← IO.currentDir).toString).parts
  let shipped := (env.contentDirectory none).join (Shipped.id ++ ".json")
  let d := mount ⟨[], here⟩ ⟨.slash, here⟩ .directory
  let d := mount d shipped (.file (Text.encode Shipped.document))
  let d ← match env.settingsFile with
    | .ok file => takeFile d file
    | .error _ => pure d
  let d ← match env.savesDirectory with
    | .ok directory => takeDirectory d directory
    | .error _ => pure d
  takeDirectory d (episodes env d)

/-- Puts the files that changed on the real disk. -/
def putChanges (before : Disk) : List (List String × DiskEntry) → IO Unit
  | [] => return ()
  | (place, .file bytes) :: rest => do
    if before.entry? place ≠ some (.file bytes) then
      IO.FS.createDirAll (Path.mk .slash place.dropLast).text
      IO.FS.writeBinFile (Path.mk .slash place).text ⟨bytes.toArray⟩
    putChanges before rest
  | (_, .directory) :: rest => putChanges before rest

/-- The part of a text after so many characters. -/
def after (text : String) (count : Nat) : String := String.ofList (text.toList.drop count)

/-- Goes through the session with the lines typed so far, and with one more as
long as it asks for one. -/
partial def converse (env : Environment) (d : Disk) (lines : List String) (saved : Disk)
    (printed noted : Nat) : IO UInt32 := do
  let (outcome, c) := (Console.session env).on ⟨lines, "", [], d⟩
  let notes := Console.noteLines env c
  let output ← IO.getStdout
  output.putStr (after c.output printed)
  output.flush
  let errors ← IO.getStderr
  errors.putStr (Console.textOfLines (notes.drop noted))
  putChanges saved c.disk.entries
  match outcome with
  | .ok () => return 0
  | .error (.console .endOfInput) | .error (.run (.host .endOfInput)) =>
    let line ← (← IO.getStdin).getLine
    if line.isEmpty then
      errors.putStrLn ConsoleFault.endOfInput.message
      return 1
    else
      let typed := if line.endsWith "\n" then (line.dropEnd 1).toString else line
      converse env d (lines ++ [typed]) c.disk c.output.length notes.length
  | .error fault =>
    errors.putStrLn fault.message
    return 1

end Storyline.Program

/-- Runs a session at the console. -/
def main : IO UInt32 := do
  let env ← Storyline.Program.surroundings
  let d ← Storyline.Program.takeDisk env
  Storyline.Program.converse env d [] d 0 0
