import Storyline.Run.Step

/-!
# Storyline.Run.Play

Playing an episode through.  A player picks an option whenever the run waits for
one; a pick that is turned down is asked for again.  Between the nodes, once the
run stands at the next one, the player is given time.
-/

namespace Storyline

/-- The host of a run that is played through. -/
structure Player (σ ε : Type) extends Host σ ε where
  /-- Lets the player pick one of the options on offer. -/
  pick : List ChoiceView → Resources → Act σ ε ChoiceOption
  /-- Gives the player time between two nodes. -/
  pause : Option (Act σ ε Unit)

namespace Stage

variable {σ ε : Type}

/-- Gives the player time if the run is running. -/
def pauseIfRunning (player : Player σ ε) : Act (Stage σ) (RunFault ε) Unit := do
  if (← theRun).status = .running then
    match player.pause with
    | some pause => ofHost pause
    | none => pure ()

/-- Picks an option; the answer is the rejection if it is turned down. -/
def tryChoose (host : Host σ ε) (option : String) :
    Act (Stage σ) (RunFault ε) (Option Rejection) :=
  Act.of fun s =>
    match (choose host option).on s with
    | (.ok _, s) => (.ok none, s)
    | (.error (.rejected rejection), s) => (.ok (some rejection), s)
    | (.error fault, s) => (.error fault, s)

/-- One round: a step, or a pick if the run waits for one. -/
def round (player : Player σ ε) : Act (Stage σ) (RunFault ε) Unit := do
  let run ← theRun
  match run.status with
  | .terminated => pure ()
  | .running =>
    let _ ← step player.toHost
    pauseIfRunning player
  | .awaitingChoice =>
    let option ← ofHost (player.pick run.pending run.resources)
    match ← tryChoose player.toHost option.id with
    | none => pauseIfRunning player
    | some rejection => note player.toHost (.choiceRejected run.current rejection.message)

/-- Plays at most so many rounds; the answer says whether the run has ended. -/
def play (player : Player σ ε) : Nat → Act (Stage σ) (RunFault ε) Bool
  | 0 => return (← theRun).isFinished
  | rounds + 1 => do
    if (← theRun).isFinished then return true
    round player
    play player rounds

end Stage

end Storyline
