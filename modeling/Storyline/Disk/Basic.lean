import Storyline.Disk.Path
import Storyline.Text.LineEnd
import Storyline.Text.Quoted
import Storyline.Text.Utf8

/-!
# Storyline.Disk.Basic

A disk: the files and directories of a machine and the directory that work goes
on in.  A path is followed part by part; two dots go up, any other part has to be
found in the directory reached so far.

An operation that is refused says why, and with which path.
-/

namespace Storyline

/-- What a path can lead to. -/
inductive DiskEntry
  | file (bytes : List UInt8)
  | directory
deriving DecidableEq, Repr

/-- The files and directories of a machine, each under the parts that lead to it
from the root. -/
structure Disk where
  entries : List (List String × DiskEntry)
  /-- The working directory. -/
  here : List String
deriving DecidableEq, Repr

/-- Why an operation on a disk is refused. -/
inductive DiskProblem
  | notFound
  | exists
  | notDirectory
  | isDirectory
  | nameTooLong
deriving DecidableEq, Repr

/-- The number of a problem. -/
def DiskProblem.number : DiskProblem → Nat
  | .notFound => 2
  | .exists => 17
  | .notDirectory => 20
  | .isDirectory => 21
  | .nameTooLong => 36

/-- The wording of a problem. -/
def DiskProblem.text : DiskProblem → String
  | .notFound => "No such file or directory"
  | .exists => "File exists"
  | .notDirectory => "Not a directory"
  | .isDirectory => "Is a directory"
  | .nameTooLong => "File name too long"

/-- A refusal. -/
inductive DiskFault
  /-- A path holds the NUL character. -/
  | nul
  /-- A problem with a path. -/
  | refused (problem : DiskProblem) (path : Path)
  /-- The bytes of a file are no text. -/
  | encoding (fault : Text.EncodingFault)
deriving DecidableEq, Repr

/-- The wording of a refusal. -/
def DiskFault.message : DiskFault → String
  | .nul => Path.nulHeld
  | .refused problem path =>
    "[Errno " ++ Nat.repr problem.number ++ "] " ++ problem.text ++ ": " ++ Text.quoted path.text
  | .encoding fault => fault.message

namespace Disk

/-- The most bytes in a name. -/
def nameLimit : Nat := 255

/-- The first number of bytes that is too long for a whole path. -/
def pathLimit : Nat := 4096

/-- What lies at a place; the root is a directory. -/
def entry? (d : Disk) (place : List String) : Option DiskEntry :=
  if place = [] then some .directory else d.entries.lookup place

/-- Puts an entry at a place. -/
def put (d : Disk) (place : List String) (entry : DiskEntry) : Disk :=
  { d with entries := (place, entry) :: d.entries.filter (·.1 ≠ place) }

/-- Takes away what lies at a place and beneath it. -/
def remove (d : Disk) (place : List String) : Disk :=
  { d with entries := d.entries.filter fun e => !place.isPrefixOf e.1 }

/-- Follows parts from a directory on.  The last part may be missing; the answer
is the place it leads to and what lies there. -/
def follow (d : Disk) : List String → List String →
    Except DiskProblem (List String × Option DiskEntry)
  | place, [] => .ok (place, some .directory)
  | place, part :: rest =>
    if part = ".." then d.follow place.dropLast rest
    else if nameLimit < part.utf8ByteSize then .error .nameTooLong
    else
      match d.entry? (place ++ [part]), rest with
      | some .directory, _ => d.follow (place ++ [part]) rest
      | some entry, [] => .ok (place ++ [part], some entry)
      | none, [] => .ok (place ++ [part], none)
      | some (.file _), _ :: _ => .error .notDirectory
      | none, _ :: _ => .error .notFound

/-- The place that a path leads to and what lies there. -/
def locate (d : Disk) (p : Path) : Except DiskFault (List String × Option DiskEntry) :=
  if p.text.toList.contains '\x00' then .error .nul
  else if pathLimit ≤ p.text.utf8ByteSize then .error (.refused .nameTooLong p)
  else
    (d.follow (if p.root = .here then d.here else []) p.parts).mapError fun problem =>
      .refused problem p

/-! ## Files -/

/-- The bytes of a file. -/
def readBytes (d : Disk) (p : Path) : Except DiskFault (List UInt8) := do
  match ← d.locate p with
  | (_, some (.file bytes)) => return bytes
  | (_, some .directory) => throw (.refused .isDirectory p)
  | (_, none) => throw (.refused .notFound p)

/-- The text of a file, with its line ends made newlines. -/
def readText (d : Disk) (p : Path) : Except DiskFault String := do
  match Text.decode (← d.readBytes p) with
  | .ok text => return String.ofList (Text.unifyLineEnds text.toList)
  | .error fault => throw (.encoding fault)

/-- Makes bytes the whole content of a file. -/
def writeBytes (d : Disk) (p : Path) (bytes : List UInt8) : Except DiskFault Disk := do
  match ← d.locate p with
  | (_, some .directory) => throw (.refused .isDirectory p)
  | (place, _) => return d.put place (.file bytes)

/-- Makes a text the whole content of a file. -/
def writeText (d : Disk) (p : Path) (text : String) : Except DiskFault Disk :=
  d.writeBytes p (Text.encode text)

/-! ## Directories -/

/-- Makes one directory. -/
def makeDirectory (d : Disk) (p : Path) : Except DiskFault Disk := do
  match ← d.locate p with
  | (_, some _) => throw (.refused .exists p)
  | (place, none) => return d.put place .directory

/-- What lies at a path; a path that leads nowhere has nothing. -/
def lies? (d : Disk) (p : Path) : Except DiskFault (Option DiskEntry) :=
  match d.locate p with
  | .ok (_, entry) => .ok entry
  | .error (.refused .nameTooLong p) => .error (.refused .nameTooLong p)
  | .error _ => .ok none

/-- Whether a path leads to a directory. -/
def isDirectory (d : Disk) (p : Path) : Except DiskFault Bool :=
  (d.lies? p).map fun entry => entry == some .directory

/-- Whether a path leads to a file. -/
def isFile (d : Disk) (p : Path) : Except DiskFault Bool :=
  (d.lies? p).map fun entry =>
    match entry with
    | some (.file _) => true
    | _ => false

/-- What comes of a refusal to make a directory: it is no matter if the directory
is there, unless something on the way to it is missing. -/
def excuse (d : Disk) (p : Path) : DiskFault → Except DiskFault Unit
  | .nul => .error .nul
  | .refused .notFound q => .error (.refused .notFound q)
  | fault => do
    if ← d.isDirectory p then return () else throw fault

/-- Makes a directory and, as far as they are missing, those that lead to it; one
that is there is no matter.  Each step goes up by one part.  What is made stays
even if the rest is refused. -/
def ensureFrom : Nat → Path → Disk → Except DiskFault Unit × Disk
  | steps, p, d =>
    match d.makeDirectory p with
    | .ok d => (.ok (), d)
    | .error (.refused .notFound q) =>
      match steps with
      | 0 => (.error (.refused .notFound q), d)
      | steps + 1 =>
        match ensureFrom steps p.parent d with
        | (.error fault, d) => (.error fault, d)
        | (.ok (), d) =>
          match d.makeDirectory p with
          | .ok d => (.ok (), d)
          | .error fault => (d.excuse p fault, d)
    | .error fault => (d.excuse p fault, d)

/-- Makes a directory with all that lead to it. -/
def ensureDirectory (p : Path) (d : Disk) : Except DiskFault Unit × Disk :=
  ensureFrom p.parts.length p d

/-- What lies in a directory, by name. -/
def children (d : Disk) (place : List String) : List (String × DiskEntry) :=
  d.entries.filterMap fun e =>
    if e.1.dropLast = place then e.1.getLast?.map fun name => (name, e.2) else none
end Disk

end Storyline
