import Storyline.Text.Blank

/-!
# Storyline.Text.Fill

Filling lines with words.  Tabs are spread to the next multiple of eight columns,
and then six ASCII characters count as a space.  Runs of spaces and runs of other
characters are the *chunks* of a text; a line takes chunks as long as they fit.

A word is never cut: one that is longer than a line stands alone.  Blank chunks
are left out where a line ends and where a line after the first begins.  Those
lines are indented.
-/

namespace Storyline.Text

/-! ## Chunks -/

/-- Whether a character divides words. -/
def isSeparator (c : Char) : Bool := (9 ≤ c.toNat && c.toNat ≤ 13) || c = ' '

/-- Spreads the tabs; the text starts at a column. -/
def expandTabs : Nat → List Char → List Char
  | _, [] => []
  | column, c :: rest =>
    if c = '\t' then
      List.replicate (8 - column % 8) ' ' ++ expandTabs (column + (8 - column % 8)) rest
    else if c = '\n' ∨ c = '\r' then c :: expandTabs 0 rest
    else c :: expandTabs (column + 1) rest

/-- Spreads the tabs and makes every separator a space. -/
def spaced (text : List Char) : List Char :=
  (expandTabs 0 text).map fun c => if isSeparator c then ' ' else c

/-- The runs of spaces and the runs of other characters. -/
def chunks : List Char → List (List Char)
  | [] => []
  | c :: rest =>
    match chunks rest with
    | (d :: chunk) :: more =>
      if (c = ' ') = (d = ' ') then (c :: d :: chunk) :: more else [c] :: (d :: chunk) :: more
    | more => [c] :: more

/-- No character is lost in chunks. -/
theorem flatten_chunks (text : List Char) : (chunks text).flatten = text := by
  induction text with
  | nil => rfl
  | cons c rest ih =>
    rw [chunks]
    split
    · next d chunk more h =>
      rw [h] at ih
      split <;> simpa using ih
    · simpa using ih

/-! ## Lines -/

/-- The chunks that fit into the room there is, and the others. -/
def takeFitting : Int → List (List Char) → List (List Char) × List (List Char)
  | _, [] => ([], [])
  | room, chunk :: rest =>
    if chunk.length ≤ room then
      let (taken, left) := takeFitting (room - chunk.length) rest
      (chunk :: taken, left)
    else ([], chunk :: rest)

/-- The chunks of a line and those after it.  If not even the first one fits it
stands alone. -/
def takeLine (room : Int) (chunks : List (List Char)) :
    List (List Char) × List (List Char) :=
  match takeFitting room chunks with
  | ([], chunk :: rest) => ([chunk], rest)
  | taken => taken

/-- Leaves a blank chunk out at the front. -/
def dropFirstBlank : List (List Char) → List (List Char)
  | chunk :: rest => if allBlank chunk then rest else chunk :: rest
  | [] => []

/-- Leaves a blank chunk out at the end. -/
def dropLastBlank (chunks : List (List Char)) : List (List Char) :=
  match chunks.getLast? with
  | some chunk => if allBlank chunk then chunks.dropLast else chunks
  | none => chunks

/-- The indent of every line but the first. -/
def indent : List Char := [' ', ' ']

/-- Fills lines with chunks.  `started` says that there is a line already; each
line takes at least one chunk, so as many steps as there are chunks are enough. -/
def fillLines (width : Int) : (steps : Nat) → (started : Bool) → List (List Char) →
    List (List Char)
  | 0, _, _ => []
  | _ + 1, _, [] => []
  | steps + 1, started, chunks =>
    let margin := if started then indent else []
    let (taken, rest) :=
      takeLine (width - margin.length) (if started then dropFirstBlank chunks else chunks)
    match dropLastBlank taken with
    | [] => fillLines width steps started rest
    | line => (margin ++ line.flatten) :: fillLines width steps true rest

/-- The lines of a text in a width.  Without a positive width, or without a
character, the text is its own one line. -/
def wrap (width : Int) (text : String) : List String :=
  if text = "" ∨ width ≤ 0 then [text]
  else
    let all := chunks (spaced text.toList)
    match fillLines width all.length false all with
    | [] => [""]
    | lines => lines.map String.ofList

end Storyline.Text
