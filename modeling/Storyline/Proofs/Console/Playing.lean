import Storyline.Console.Session
import Storyline.Proofs.Run.Rounds

/-!
# Storyline.Proofs.Console.Playing

Playing at the console.  The player there reads, prints and takes notes, and leaves the disk
to the store.  An episode is played on a stage of its own, which is gone when the player is
back in the menu; what stays is the console, with its disk.
-/

namespace Storyline.Console

/-! ## What actions do to the disk -/

/-- What is true of the disk stays true of it. -/
def Preserves {α : Type} (P : Disk → Prop) (act : Act Console ConsoleFault α) : Prop :=
  ∀ c, P c.disk → P (act.on c).2.disk

section Preserves

variable {α β : Type} {P : Disk → Prop}

theorem preserves_of_still {act : Act Console ConsoleFault α}
    (still : ∀ c, (act.on c).2.disk = c.disk) : Preserves P act := by
  intro c h
  rw [still]
  exact h

theorem preserves_pure (a : α) : Preserves P (pure a) := preserves_of_still fun _ => rfl

theorem preserves_bind {act : Act Console ConsoleFault α}
    {next : α → Act Console ConsoleFault β} (h : Preserves P act)
    (hnext : ∀ a, Preserves P (next a)) : Preserves P (act >>= next) := by
  intro c hc
  rw [Act.on_bind]
  have hafter := h c hc
  cases hact : act.on c with
  | mk answer after =>
    rw [hact] at hafter
    cases answer with
    | ok a => exact hnext a after hafter
    | error fault => exact hafter

theorem preserves_known {ε' : Type} (fault : ε' → ConsoleFault) (answer : Except ε' α) :
    Preserves P (Act.known fault answer) :=
  preserves_of_still fun _ => by rw [Act.on_known]

theorem preserves_print (text : String) : Preserves P (print text) :=
  preserves_of_still fun _ => rfl

theorem preserves_readLine : Preserves P readLine :=
  preserves_of_still fun c => by
    rw [readLine, Act.on_of]
    cases c.input <;> rfl

theorem preserves_question (judge : String → Except String α) : Preserves P (question judge) :=
  preserves_of_still fun c => by
    simp only [question, Act.on_of]
    split <;> rfl

theorem preserves_showText (mode : TextMode) (text : String) :
    Preserves P (showText mode text) := by
  refine preserves_bind (preserves_print _) fun _ => ?_
  cases mode with
  | instant => exact preserves_pure ()
  | step => exact preserves_bind preserves_readLine fun _ => preserves_pure ()

theorem preserves_showEvent (mode : TextMode) (event : Event) :
    Preserves P (showEvent mode event) := by
  cases event with
  | dialogue speaker line => exact preserves_showText mode _
  | narration line =>
    rw [showEvent]
    split
    · exact preserves_pure ()
    · exact preserves_showText mode line
  | minigameStarted game rules => exact preserves_showText mode _
  | episodeEnded summary save => exact preserves_pure ()
  | _ => exact preserves_print _

theorem preserves_pickOption (env : Environment) (views : List ChoiceView)
    (resources : Resources) : Preserves P (pickOption env views resources) := by
  have shows : Preserves P (print (menu "Choices" (views.map optionLabel)) >>= fun _ =>
      question (judgeOption views)) :=
    preserves_bind (preserves_print _) fun _ => preserves_question _
  rw [pickOption]
  split
  · exact preserves_bind (preserves_known _ _) fun shown =>
      preserves_bind (preserves_print _) fun _ => shows
  · exact shows

end Preserves

/-- Whatever is kept on the disk, the player at the console leaves it to the store. -/
theorem spares_player {κ : Type} (env : Environment) (directory : Path) (mode : TextMode)
    (kept : Disk → κ) : (player env directory mode).Spares fun c => kept c.disk where
  render event c :=
    preserves_bind (P := fun d => kept d = kept c.disk) (preserves_showEvent mode event)
      (fun _ => preserves_pure none) c rfl
  minigame _ h := by cases h
  note _ _ := rfl
  pick views resources c :=
    preserves_pickOption (P := fun d => kept d = kept c.disk) env views resources c rfl
  pause _ h := by cases h

/-! ## Playing an episode -/

/-- The stage on which an episode is played, once its title is shown: at the start of the
episode with nothing, or where a saved run stands. -/
def stageOf (env : Environment) (directory : Path) (e : Episode) (settings : RawSettings)
    (saved : Option Save.Record) (c : Console) : Stage Console :=
  Stage.start (player env directory settings.textMode).toHost
    ⟨none, { c with output := c.output ++ heading e.title }⟩ e (saved.map Save.Record.node)
    ((saved.map Save.Record.resources).getD Table.empty)

theorem orderly_stageOf (env : Environment) (directory : Path) (e : Episode)
    (settings : RawSettings) {saved : Option Save.Record} (c : Console)
    (typed : ∀ record, saved = some record → record.resources.Typed) :
    (stageOf env directory e settings saved c).run.Orderly e := by
  refine orderly_start e _ ?_
  cases saved with
  | none => exact Table.holds_iff.2 (List.forall_mem_nil _)
  | some record => exact typed record rfl

/-- What playing an episode comes to, and the stage after it. -/
def played (env : Environment) (directory : Path) (e : Episode) (settings : RawSettings)
    (saved : Option Save.Record) (c : Console) :
    Except (RunFault ConsoleFault) Bool × Stage Console :=
  (Stage.play (player env directory settings.textMode) roundLimit).on
    (stageOf env directory e settings saved c)

theorem playsOut_played {κ : Type} {env : Environment} {directory : Path} {settings : RawSettings}
    {kept : Console → κ} (spares : (player env directory settings.textMode).Spares kept)
    (e : Episode) (saved : Option Save.Record) (c : Console) :
    Stage.PlaysOut (player env directory settings.textMode) kept
      (stageOf env directory e settings saved c) (played env directory e settings saved c) :=
  Stage.playsOut_play spares roundLimit _

/-- The console once an episode was aborted. -/
def aborted (c : Console) (fault : RunFault ConsoleFault) : Console :=
  { c with output := c.output ++
      ("Episode aborted: " ++ fault.message ConsoleFault.message ++ "\n") }

/-- Playing leads back to the menu, with a word on the fault if there was one of the episode;
any other fault ends the session. -/
theorem on_playEpisode (env : Environment) (directory : Path) (e : Episode)
    (settings : RawSettings) (saved : Option Save.Record) (c : Console) :
    (playEpisode env directory e settings saved).on c =
      match played env directory e settings saved c with
      | (.ok _, s) => (.ok (), s.gateway.world)
      | (.error fault, s) =>
        if fault.isOfEpisode then (.ok (), aborted s.gateway.world fault)
        else (.error (.run fault), s.gateway.world) := by
  have heads : (inSession (print (heading e.title))).on c =
      (.ok (), { c with output := c.output ++ heading e.title }) := rfl
  simp only [playEpisode, Act.on_bind, heads, Act.on_of]
  rw [played, stageOf]
  cases (Stage.play (player env directory settings.textMode) roundLimit).on _ with
  | mk answer s =>
    cases answer with
    | ok finished => rfl
    | error fault =>
      cases own : fault.isOfEpisode with
      | true => simp only [own, if_true]; rfl
      | false => simp only [own, Bool.false_eq_true, if_false]

/-- What is true of the disk stays true of it while an episode is played, if saving keeps it. -/
theorem disk_playEpisode {P : Disk → Prop} {directory : Path}
    (writes : ∀ text d, P d → P (((Save.fileStore directory).write Save.autoKey text).on d).2)
    (env : Environment) (e : Episode) (settings : RawSettings) (saved : Option Save.Record)
    {c : Console} (h : P c.disk) :
    P ((playEpisode env directory e settings saved).on c).2.disk := by
  have stores : ∀ text (world : Console), P world.disk →
      P (((player env directory settings.textMode).write Save.autoKey text).on world).2.disk := by
    intro text world hworld
    have hwritten := writes text world.disk hworld
    show P ((onDisk ((Save.fileStore directory).write Save.autoKey text)).on world).2.disk
    rw [onDisk, Act.on_within]
    cases hw : ((Save.fileStore directory).write Save.autoKey text).on world.disk with
    | mk answer d =>
      rw [hw] at hwritten
      cases answer <;> exact hwritten
  have spares := spares_player env directory settings.textMode P
  have kept := Stage.kept_of_playsOut spares stores (playsOut_played spares e saved c) h
  rw [on_playEpisode]
  generalize played env directory e settings saved c = came at kept
  obtain ⟨answer, s⟩ := came
  cases answer with
  | ok finished => exact kept
  | error fault =>
    cases own : fault.isOfEpisode <;> simp only [own, if_true, Bool.false_eq_true, if_false] <;>
      exact kept

end Storyline.Console
