import Storyline.Table

/-!
# Storyline.Disk.Path

Paths as text and as parts.  Empty parts and single dots mean nothing and are
left out; two dots are kept, for what they mean is up to the disk.  A path starts
at the root if its text starts with a slash; exactly two slashes make a root of
their own.
-/

namespace Storyline

/-- Where a path starts. -/
inductive PathRoot
  /-- At the working directory. -/
  | here
  /-- At the root. -/
  | slash
  /-- At the root of two slashes. -/
  | doubleSlash
deriving DecidableEq, Repr

/-- A path. -/
structure Path where
  root : PathRoot
  parts : List String
deriving DecidableEq, Repr

namespace Path

/-! ## Text -/

/-- The pieces of a text between its slashes; there is always one. -/
def pieces : List Char → List (List Char)
  | [] => [[]]
  | c :: rest =>
    if c = '/' then [] :: pieces rest
    else
      match pieces rest with
      | [] => [[c]]
      | piece :: more => (c :: piece) :: more

/-- Whether a piece is a part: neither empty nor a single dot. -/
def isPart (piece : List Char) : Bool := piece ≠ [] ∧ piece ≠ ['.']

/-- Where a text starts. -/
def rootOf : List Char → PathRoot
  | '/' :: '/' :: '/' :: _ => .slash
  | '/' :: '/' :: _ => .doubleSlash
  | '/' :: _ => .slash
  | _ => .here

/-- The path of a text. -/
def ofText (text : String) : Path where
  root := rootOf text.toList
  parts := ((pieces text.toList).filter isPart).map String.ofList

/-- The text of a root. -/
def rootText : PathRoot → String
  | .here => ""
  | .slash => "/"
  | .doubleSlash => "//"

/-- The text of a path; the working directory itself is a single dot. -/
def text (p : Path) : String :=
  let text := rootText p.root ++ String.intercalate "/" p.parts
  if text = "" then "." else text

/-! ## Parts -/

/-- Goes on from a path; a text that starts at a root starts anew. -/
def join (p : Path) (text : String) : Path :=
  let q := ofText text
  match q.root with
  | .here => ⟨p.root, p.parts ++ q.parts⟩
  | _ => q

/-- The path without its last part. -/
def parent (p : Path) : Path := ⟨p.root, p.parts.dropLast⟩

/-- A name without what follows its last dot.  A dot at the start of the name or
at its end divides nothing. -/
def stem (name : String) : String :=
  let backward := name.toList.reverse
  let extension := backward.takeWhile (· ≠ '.')
  let before := (backward.drop (extension.length + 1)).reverse
  if extension.length < backward.length ∧ extension ≠ [] ∧ before ≠ [] then
    String.ofList before
  else name

/-- What is said where a path, or a name asked for, holds the NUL character. -/
def nulHeld : String := "embedded null byte"

end Path

/-! ## Surroundings -/

/-- What a program is told about its surroundings. -/
structure Environment where
  bindings : Table String
  /-- The home directories of the accounts, by their names. -/
  accounts : Table String
  /-- Whether user data is kept where the variable `APPDATA` says. -/
  usesAppData : Bool
  /-- The directory that the program is installed in. -/
  installation : Path
deriving DecidableEq, Repr

/-- Why a home directory is not found. -/
inductive HomeFault
  /-- It is not known. -/
  | unknown
  /-- The name of the account holds the NUL character. -/
  | nul
deriving DecidableEq, Repr

/-- The wording of a fault. -/
def HomeFault.message : HomeFault → String
  | .unknown => "Could not determine home directory."
  | .nul => Path.nulHeld

namespace Environment

/-- The value of a variable. -/
def lookup? (env : Environment) (name : String) : Option String := env.bindings.find? name

/-- The home directory that a part starting with a tilde stands for: that of the
player, or that of the account it names. -/
def homeOf (env : Environment) (part : List Char) : Except HomeFault String :=
  match part with
  | ['~'] => (env.lookup? "HOME").elim (.error .unknown) .ok
  | '~' :: account =>
    if account.contains '\x00' then .error .nul
    else (env.accounts.find? (String.ofList account)).elim (.error .unknown) .ok
  | _ => .error .unknown

/-- A home directory as a path: slashes at its end mean nothing, and without
anything else it is the root. -/
def homePath (home : String) : Path :=
  let bare := (home.toList.reverse.dropWhile (· = '/')).reverse
  if bare = [] then Path.ofText "/" else Path.ofText (String.ofList bare)

/-- Puts the home directory in the place of a tilde at the start of a path.  A home
directory that starts with a tilde itself is none. -/
def expandHome (env : Environment) (p : Path) : Except HomeFault Path :=
  match p.root, p.parts with
  | .here, part :: rest =>
    if part.toList.head? = some '~' then do
      let home ← env.homeOf part.toList
      if home.toList.head? = some '~' then throw .unknown
      return ⟨(homePath home).root, (homePath home).parts ++ rest⟩
    else .ok p
  | _, _ => .ok p

/-- The home directory of the player. -/
def home (env : Environment) : Except HomeFault Path := env.expandHome (Path.ofText "~")

end Environment

end Storyline
