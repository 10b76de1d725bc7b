import Storyline.Act
import Storyline.Disk.Basic
import Storyline.Log

/-!
# Storyline.Save.Store

Stores keep texts by key.  One keeps them in memory, the other in the files of a
directory, a file for each key.  Writing under a key replaces what was there.  A
store in memory holds whatever texts it was given; what is written, and what a file
holds, is always a string.
-/

namespace Storyline.Save

/-- A store in a world `σ`, whose operations may stop with a fault `ε`; notes on
what happens to it go into the same world. -/
structure Store (σ ε : Type) (τ : Type := String) where
  /-- The text under a key, if there is one. -/
  read : String → Act σ ε (Option τ)
  /-- Puts a string under a key. -/
  write : String → String → Act σ ε Unit
  /-- Takes a note. -/
  note : Note τ → σ → σ

/-- The store in memory. -/
def memoryStore {ε : Type} (τ : Type := String) [Textual τ] : Store (Table τ) ε τ where
  read key := Act.look fun texts => texts.find? key
  write key text := Act.change fun texts => texts.insert key (ofString text)
  note _ texts := texts

/-- Why a store of files refuses. -/
inductive FileFault
  /-- A key cannot be the name of a file. -/
  | badKey (key : String)
  /-- The disk refuses. -/
  | disk (fault : DiskFault)
deriving DecidableEq, Repr

/-- The wording of a refusal. -/
def FileFault.message : FileFault → String
  | .badKey key => "Invalid store key: " ++ Text.quoted key
  | .disk fault => fault.message

/-- Whether a character may stand in a key: an ASCII letter or digit, an
underscore, a dot or a hyphen. -/
def isKeyChar (c : Char) : Bool := c.isAlphanum || c = '_' || c = '.' || c = '-'

/-- Whether a text may be a key. -/
def isKey (key : String) : Bool := !key.toList.isEmpty && key.toList.all isKeyChar

/-- The file of a key. -/
def keyPath (base : Path) (key : String) : Except FileFault Path :=
  if isKey key then .ok (base.join (key ++ ".json")) else .error (.badKey key)

/-- Reads the file of a key; a file that is not there holds nothing. -/
def readKey (base : Path) (key : String) (d : Disk) (τ : Type := String) [Textual τ] :
    Except FileFault (Option τ) := do
  let path ← keyPath base key
  match d.readText path with
  | .ok text => return some (ofString text)
  | .error (.refused .notFound _) => return none
  | .error fault => throw (.disk fault)

/-- Makes the directory unless it is there. -/
def ensureBase (base : Path) : Act Disk FileFault Unit :=
  Act.of fun d =>
    let (made, d) := Disk.ensureDirectory base d
    (made.mapError .disk, d)

/-- Writes the file of a key. -/
def writeKey (base : Path) (key text : String) : Act Disk FileFault Unit :=
  Act.of fun d =>
    match keyPath base key with
    | .error fault => (.error fault, d)
    | .ok path =>
      match d.writeText path text with
      | .ok d => (.ok (), d)
      | .error fault => (.error (.disk fault), d)

/-- The store in the files of a directory. -/
def fileStore (base : Path) (τ : Type := String) [Textual τ] : Store Disk FileFault τ where
  read key := Act.of fun d => (readKey base key d τ, d)
  write key text := do
    ensureBase base
    writeKey base key text
  note _ d := d

end Storyline.Save
