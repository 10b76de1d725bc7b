import Storyline.Episode.Basic

/-!
# Storyline.Event

What a run shows to the player: events, and the options of a choice as they are
offered, each with a note on what it costs.
-/

namespace Storyline

/-- Something the player sees or hears. -/
inductive Event
  | backgroundChanged (image : String)
  | musicStarted (track : String)
  | soundPlayed (effect : String)
  | spritePlaced (who image : String) (position : StagePosition)
  | dialogue (speaker line : String)
  /-- A plain line: a prompt, a summary, the end. -/
  | narration (line : String)
  | minigameStarted (game rules : String)
  | episodeEnded (summary : Option String) (save : Option Bool)
deriving DecidableEq, Repr

namespace Event

/-- A line with its speaker. -/
def spoken (speaker line : String) : String := speaker ++ ": " ++ line

/-- The announcement of a minigame. -/
def announcement (game rules : String) : String := "Minigame: " ++ game ++ " - " ++ rules

/-- The line of text that an event is read as, if it is one. -/
def line? : Event → Option String
  | .dialogue speaker line => some (spoken speaker line)
  | .narration line => some line
  | .minigameStarted game rules => some (announcement game rules)
  | _ => none

/-- The name of an event's kind in the log. -/
def kindName : Event → String
  | .backgroundChanged .. => "BackgroundChangedEvent"
  | .musicStarted .. => "MusicStartedEvent"
  | .soundPlayed .. => "SoundEffectEvent"
  | .spritePlaced .. => "SpritePlacedEvent"
  | .dialogue .. => "DialogueLineEvent"
  | .narration .. => "NarrationLineEvent"
  | .minigameStarted .. => "MinigameStartedEvent"
  | .episodeEnded .. => "EpisodeEndedEvent"

end Event

/-! ## Costs -/

/-- The resources whose spending is announced, in the order of the announcement. -/
def announcedCosts : List String := ["energy", "runes"]

/-- Whether a character stands for a small Latin letter, its case left aside; the
dotted capital and the dotless small letter both stand for `i`. -/
def standsFor (letter c : Char) : Bool :=
  c.toLower = letter || (letter = 'i' && (c = '\u0130' || c = '\u0131'))

/-- Whether a text starts with a word of small Latin letters, case left aside. -/
def startsWithWord : List Char → List Char → Bool
  | [], _ => true
  | _ :: _, [] => false
  | letter :: word, c :: text => standsFor letter c && startsWithWord word text

/-- Whether a word of small Latin letters occurs in a text, case left aside. -/
def mentions (word : List Char) : List Char → Bool
  | [] => startsWithWord word []
  | c :: rest => startsWithWord word (c :: rest) || mentions word rest

/-- Whether a remark says that an option is sold for money. -/
def isPremium (remark : String) : Bool :=
  mentions "premium".toList remark.toList || mentions "iap".toList remark.toList

/-- What a gain takes from one resource, if it takes something. -/
def priceOf (gain : Table Amount) (name : String) : Except NumberFault (List String) :=
  match gain.find? name with
  | some a =>
    if a.less (.int 0) then a.neg.display.map fun shown => [shown ++ " " ++ name] else .ok []
  | none => .ok []

/-- The note on the cost of an option: what its gain takes, and whether it is sold. -/
def costNote (gain : Option (Table Amount)) (remark : Option String) :
    Except NumberFault String := do
  let prices ← match gain with
    | none => pure []
    | some gain => announcedCosts.mapM (priceOf gain)
  let sold := match remark with
    | some text => if isPremium text then ["premium"] else []
    | none => []
  let parts := prices.flatten ++ sold
  return if parts.isEmpty then "" else " (" ++ String.intercalate ", " parts ++ ")"

/-! ## Options on offer -/

/-- An option as it is offered. -/
structure ChoiceView where
  option : ChoiceOption
  /-- Whether the player may pick it. -/
  selectable : Bool
  /-- The note on its cost. -/
  cost : String
deriving DecidableEq, Repr

/-- The label with the note on the cost. -/
def ChoiceView.label (v : ChoiceView) : String := v.option.label ++ v.cost

end Storyline
