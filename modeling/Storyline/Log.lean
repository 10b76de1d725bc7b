import Storyline.Numeral
import Storyline.Text.Quoted

/-!
# Storyline.Log

What is noted while a story is told: each note has a level, the part of the
program that it comes from, and a text.
-/

namespace Storyline

/-- How much a note matters. -/
inductive LogLevel
  | debug
  | info
  | warning
deriving DecidableEq, Repr

/-- The word for a level. -/
def LogLevel.word : LogLevel → String
  | .debug => "DEBUG"
  | .info => "INFO"
  | .warning => "WARNING"

/-- A note.  Those on saves hold texts of the type that saves have. -/
inductive Note (τ : Type := String)
  | started (episode node : String) (resources : Nat)
  | dispatching (node kind : String)
  | notPlayed (kind reason : String)
  | choiceRejected (node reason : String)
  | finished (episode node : String)
  | textRequirement (name held : String)
  | saved (episode node : τ) (slot : Int)
  | loaded (episode node : τ) (slot : Int)
  | foreignSave (found wanted : τ)
  | unreadableSave (reason : String)
deriving DecidableEq, Repr

namespace Note

/-- How much a note matters. -/
def level : Note → LogLevel
  | .started .. | .finished .. => .info
  | .choiceRejected .. | .foreignSave .. | .unreadableSave .. => .warning
  | _ => .debug

/-- The part of the program that a note comes from. -/
def source : Note → String
  | .textRequirement .. => "taleweave.domain.resources"
  | .saved .. | .loaded .. | .foreignSave .. => "taleweave.services.save_service"
  | .unreadableSave .. => "taleweave.presentation.cli.app"
  | _ => "taleweave.services.episode_runner"

/-- A name in single marks, as it is. -/
def marked (name : String) : String := "'" ++ name ++ "'"

/-- The text of a note. -/
def text : Note → String
  | .started episode node resources =>
    "Starting episode " ++ marked episode ++ " at node " ++ marked node ++ " with "
      ++ Nat.repr resources ++ " resources."
  | .dispatching node kind => "Dispatching node " ++ marked node ++ " (" ++ kind ++ ")."
  | .notPlayed kind reason => "Ignoring playback failure for " ++ kind ++ ": " ++ reason
  | .choiceRejected node reason => "Choice rejected at node " ++ marked node ++ ": " ++ reason
  | .finished episode node =>
    "Episode " ++ marked episode ++ " finished at node " ++ marked node ++ "."
  | .textRequirement name held =>
    "Requirement on " ++ marked name ++ " compared against text value " ++ Text.quoted held
      ++ "; treating as unmet."
  | .saved episode node slot =>
    "Saved episode " ++ marked episode ++ " at node " ++ marked node ++ " to slot "
      ++ String.ofList (Numeral.chars slot) ++ "."
  | .loaded episode node slot =>
    "Loaded episode " ++ marked episode ++ " at node " ++ marked node ++ " from slot "
      ++ String.ofList (Numeral.chars slot) ++ "."
  | .foreignSave found wanted =>
    "Ignoring save for episode " ++ marked found ++ " while loading episode " ++ marked wanted
      ++ "."
  | .unreadableSave reason => "Ignoring unreadable save: " ++ reason

/-- The line of a note. -/
def line (n : Note) : String := n.level.word ++ " " ++ n.source ++ ": " ++ n.text

end Note

end Storyline
