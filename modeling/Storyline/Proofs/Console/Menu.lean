import Storyline.Proofs.Console.Playing
import Storyline.Proofs.Run.Mirror
import Storyline.Proofs.Save.Codec
import Storyline.Proofs.Save.Content

/-!
# Storyline.Proofs.Console.Menu

The main menu of a session, each time it is shown.  A run is offered to be continued just if
the slot then holds one of the episode that has not ended.  What the slot holds is what the
last run of the session that saved anything has left there, however often the options were
changed since: the place where it was aborted, or that it has ended.
-/

namespace Storyline

/-! ## What the slot holds -/

namespace Save

variable {base : Path} {d after : Disk} {text : String}

/-- What is held in the automatic slot is the text of its file. -/
theorem fileHeld_iff :
    fileHeld base autoKey d = some text ↔ d.readText (slotFile base) = .ok text := by
  constructor
  · intro h
    have hread := readKey_of_fileHeld h
    rw [readKey_eq (keyPath_autoKey base)] at hread
    split at hread
    · next held hheld =>
      cases hread
      exact hheld
    · cases hread
    · cases hread
  · intro h
    rw [fileHeld, readKey_eq (keyPath_autoKey base), h]
    rfl

/-- It is held for as long as the bytes of the file stay. -/
theorem fileHeld_of_stays
    (stays : ∀ bytes, d.readBytes (slotFile base) = .ok bytes →
      after.readBytes (slotFile base) = .ok bytes)
    (h : fileHeld base autoKey d = some text) : fileHeld base autoKey after = some text := by
  rw [fileHeld_iff] at h ⊢
  obtain ⟨bytes, hbytes, -⟩ := bind_ok_iff.1 h
  rw [Disk.readText_of_bytes (stays bytes hbytes), ← Disk.readText_of_bytes hbytes, h]

/-- The file of the automatic slot has a name of its own. -/
theorem parts_slotFile (base : Path) :
    (slotFile base).parts = base.parts ++ ["taleweave-save-0.json"] := by
  have hname : Path.ofText (autoKey ++ ".json") = ⟨.here, ["taleweave-save-0.json"]⟩ := by
    decide +kernel
  rw [slotFile, Path.join, hname]

end Save

/-- So has the file of the settings. -/
theorem Settings.parts_file (above : Path) :
    (above.join "config.json").parts = above.parts ++ ["config.json"] := by
  have hname : Path.ofText "config.json" = ⟨.here, ["config.json"]⟩ := by decide +kernel
  rw [Path.join, hname]

/-- Saving the settings leaves the saves alone. -/
theorem Settings.readBytes_save {raw : RawSettings} {above below : Path} {d : Disk}
    {bytes : List UInt8} (h : d.readBytes (Save.slotFile below) = .ok bytes) :
    (Settings.save raw (above.join "config.json") d).2.readBytes (Save.slotFile below) =
      .ok bytes := by
  have hmade := Disk.readBytes_ensureDirectory h (q := (above.join "config.json").parent)
  rw [Settings.save]
  cases made : Disk.ensureDirectory (above.join "config.json").parent d with
  | mk answer mid =>
    rw [made] at hmade
    cases answer with
    | error fault => exact hmade
    | ok _ =>
      simp only
      split
      · next written hwrite =>
        exact Disk.readBytes_writeBytes_of_ne hmade (Save.parts_slotFile below) (parts_file above)
          (by decide) (by decide) (by decide) hwrite
      · exact hmade

namespace Console

variable {env : Environment} {directory : Path} {e : Episode} {settings : RawSettings}
  {c now after : Console}

/-- The text in the slot that runs are saved in. -/
def slotText (directory : Path) (c : Console) : Option String :=
  Save.fileHeld directory Save.autoKey c.disk

theorem keeps_slotText (directory : Path) :
    (store directory).Keeps Save.autoKey (slotText directory) where
  read c text h := ⟨c, by rw [on_store_read, Save.readKey_of_fileHeld h]; rfl, h⟩
  write c after text plain h := by
    simp only [store, onDisk, Act.on_within] at h
    cases hw : ((Save.fileStore directory).write Save.autoKey text).on c.disk with
    | mk answer d =>
      rw [hw] at h
      cases answer with
      | error fault => cases h
      | ok _ =>
        cases h
        exact (Save.fileStore_keeps directory Save.autoKey).write _ _ _ plain hw

/-- Saving the settings leaves what is saved alone. -/
theorem preserves_saveSettings {text : String} (env : Environment) (raw : RawSettings) :
    Preserves (fun d => Save.fileHeld directory Save.autoKey d = some text)
      (saveSettings env none raw) := by
  intro c h
  cases hfile : env.settingsFile with
  | error fault =>
    simp only [saveSettings, Act.on_bind, Act.on_known, hfile]
    exact h
  | ok file =>
    obtain ⟨above, -, rfl⟩ := map_ok_iff.1 hfile
    have hdisk : ((saveSettings env none raw).on c).2.disk =
        (Settings.save raw (above.join "config.json") c.disk).2 := by
      simp only [saveSettings, Act.on_bind, Act.on_known, hfile, mapError_ok, onDisk,
        Act.on_within, Act.on_of]
      cases (Settings.save raw (above.join "config.json") c.disk).1 <;> rfl
    rw [hdisk]
    exact Save.fileHeld_of_stays (fun _ => Settings.readBytes_save) h

/-- So does changing the options. -/
theorem preserves_optionsMenu {text : String} (env : Environment) (settings : RawSettings) :
    Preserves (fun d => Save.fileHeld directory Save.autoKey d = some text)
      (optionsMenu env settings) := by
  refine preserves_bind (preserves_print _) fun _ => ?_
  refine preserves_bind (preserves_question _) fun place => ?_
  split
  · exact preserves_bind (preserves_saveSettings env _) fun _ => preserves_pure _
  · exact preserves_pure settings

/-! ## What is offered -/

/-- What loading from the slot comes to. -/
def loaded (directory : Path) (c : Console) :
    Except (Save.GatewayFault ConsoleFault) (Option Save.Record) :=
  ((Save.Gateway.load (store directory) 0).on ⟨none, c⟩).1

/-- Loading only takes notes. -/
theorem disk_load (directory : Path) (c : Console) :
    ((Save.Gateway.load (store directory) 0).on ⟨none, c⟩).2.world.disk = c.disk := by
  simp only [Save.Gateway.load, Save.slotKey_zero, Act.on_bind, Act.on_known, mapError_ok,
    Save.Gateway.on_ofStore, on_store_read]
  cases Save.readKey directory Save.autoKey c.disk with
  | error fault => rfl
  | ok found =>
    cases found with
    | none => rfl
    | some text =>
      simp only [mapError_ok, Act.on_bind, Act.on_known]
      cases (Save.readRecord 0 text : Except (Save.GatewayFault ConsoleFault) Save.Record) <;> rfl

/-- A run can go on if what is loaded is one of the episode that has not ended. -/
def goesOn (e : Episode) (record : Save.Record) : Bool :=
  record.episode = e.id && !record.isFinished

/-- The run that can go on is the one that is loaded, if it can.  Only a fault that lies not
with what stands in the slot keeps the menu from being shown. -/
theorem resumable_answer (directory : Path) (e : Episode) (c : Console) :
    ((resumable directory e).on c).1 =
      match loaded directory c with
      | .ok found => .ok (found.filter (goesOn e))
      | .error fault => if fault.ofContent then .ok none else .error (.gateway fault) := by
  simp only [resumable, Act.on_of, Save.Gateway.loadFor, Act.on_bind, loaded]
  cases (Save.Gateway.load (store directory) 0).on ⟨none, c⟩ with
  | mk answer g =>
    cases answer with
    | error fault => cases fault <;> rfl
    | ok found =>
      cases found with
      | none => rfl
      | some record =>
        by_cases own : record.episode = e.id
        · simp only [own, if_true, Act.on_pure, Option.filter_some, goesOn, decide_true,
            Bool.true_and]
          cases record.isFinished <;> rfl
        · simp only [own, if_false, Act.on_bind, Save.Gateway.on_note, Act.on_pure,
            Option.filter_some, goesOn, decide_false, Bool.false_and]
          rfl

theorem resumable_disk (directory : Path) (e : Episode) (c : Console) :
    ((resumable directory e).on c).2.disk = c.disk := by
  have hdisk := disk_load directory c
  simp only [resumable, Act.on_of, Save.Gateway.loadFor, Act.on_bind]
  generalize (Save.Gateway.load (store directory) 0).on ⟨none, c⟩ = came at hdisk
  obtain ⟨answer, g⟩ := came
  cases answer with
  | error fault => cases fault <;> exact hdisk
  | ok found =>
    cases found with
    | none => exact hdisk
    | some record =>
      by_cases own : record.episode = e.id
      · simp only [own, if_true, Act.on_pure]
        exact hdisk
      · simp only [own, if_false, Act.on_bind, Save.Gateway.on_note, Act.on_pure]
        exact hdisk

/-- Looking for a run that can go on and asking what to do leave the disk as it is. -/
theorem disk_asked {saved : Option Save.Record} {action : MenuAction} {asked : Console}
    (found : (resumable directory e).on c = (.ok saved, now))
    (picks : (askAction e saved.isSome).on now = (.ok action, asked)) :
    asked.disk = c.disk := by
  have asks : Preserves (fun d => d = c.disk) (askAction e saved.isSome) :=
    preserves_bind (preserves_print _) fun _ => preserves_question _
  have hfound := resumable_disk directory e c
  rw [found] at hfound
  have hasked := asks now hfound
  rwa [picks] at hasked

theorem slotText_asked {saved : Option Save.Record} {action : MenuAction} {asked : Console}
    (found : (resumable directory e).on c = (.ok saved, now))
    (picks : (askAction e saved.isSome).on now = (.ok action, asked)) :
    slotText directory asked = slotText directory c := by
  rw [slotText, slotText, disk_asked found picks]

/-! ## Runs that were played -/

/-- A run that was played: how that came out, and the stage then. -/
abbrev PlayedRun := Except (RunFault ConsoleFault) Bool × Stage Console

/-- What a run has left behind where the console stands now: its place is what is saved, and it
has ended if it finished, and has not if it was aborted. -/
structure Leaves (directory : Path) (e : Episode) (run : PlayedRun) (c : Console) : Prop where
  orderly : run.2.run.Orderly e
  text : ∃ text, (run.2.run.recordAt run.2.run.current).text = .ok text ∧
    slotText directory c = some text
  finished : run.1 = .ok true → run.2.run.current = ""
  aborted : ∀ fault, run.1 = .error fault → run.2.run.current ≠ ""

/-- What is left behind depends on what is held only. -/
theorem Leaves.stays {run : PlayedRun} (leaves : Leaves directory e run c)
    (keeps : ∀ text, slotText directory c = some text → slotText directory after = some text) :
    Leaves directory e run after := by
  obtain ⟨text, encoded, held⟩ := leaves.text
  exact ⟨leaves.orderly, ⟨text, encoded, keeps text held⟩, leaves.finished, leaves.aborted⟩

/-- A run that follows the start of its stage either has saved nothing, or has left behind its
place, if it stands where its outcome says. -/
theorem leaves_of_follows {s t : Stage Console} {answer : Except (RunFault ConsoleFault) Bool}
    (follows : Stage.Follows ConsoleFault (slotText directory) e s t)
    (same : slotText directory after = slotText directory t.gateway.world)
    (finished : answer = .ok true → t.run.current = "")
    (aborted : ∀ fault, answer = .error fault →
      Stage.Mirrored ConsoleFault (slotText directory) t → t.run.current ≠ "") :
    (t.gateway.last = none ∧ slotText directory after = slotText directory s.gateway.world) ∨
      t.gateway.last.isSome = true ∧ Leaves directory e (answer, t) after := by
  obtain ⟨hlast, hheld⟩ | mirrored := follows.saved
  · exact .inl ⟨hlast, same.trans hheld⟩
  · refine .inr ⟨by rw [mirrored.last]; rfl, follows.orderly, ?_, finished,
      fun fault h => aborted fault h mirrored⟩
    rw [same]
    exact mirrored.text

theorem ofSave_of_isOfEpisode {fault : RunFault ConsoleFault} (own : fault.isOfEpisode = true) :
    fault.ofSave = false := by
  cases fault <;> first | rfl | cases own

section Played

variable {saved : Option Save.Record} {s t : Stage Console}

/-- A run that was played to its end stands at no node. -/
theorem current_of_finished (orderly : t.run.Orderly e)
    (comes : played env directory e settings saved c = (.ok true, t)) : t.run.current = "" := by
  have ended : t.run.status = .terminated := of_decide_eq_true (Stage.isFinished_of_play comes)
  have status := orderly.status (by rw [ended]; decide)
  exact Status.at_eq_terminated_iff.1 (status.symm.trans ended)

/-- A run that is aborted once it is mirrored stands at a node. -/
theorem current_of_aborted {kept : Console → Option String} {player : Player Console ConsoleFault}
    {fault : RunFault ConsoleFault} (own : fault.isOfEpisode = true) (orderly : t.run.Orderly e)
    (out : Stage.PlaysOut (α := Bool) player kept s (.error fault, t))
    (mirrored : Stage.Mirrored ConsoleFault kept t) : t.run.current ≠ "" := by
  cases out with
  | left plays => cases own
  | stopped plays going made =>
    have stays := Stage.run_of_stopped made (ofSave_of_isOfEpisode own)
    exact mirrored.current_ne_empty orderly (stays ▸ going)

/-- Playing that leads back to the menu either has saved nothing, and what was held is, or has
left behind its place. -/
theorem leaves_of_played {run : PlayedRun}
    (typed : ∀ record, saved = some record → record.resources.Typed)
    (comes : played env directory e settings saved c = run)
    (ends : (playEpisode env directory e settings saved).on c = (.ok (), after)) :
    (run.2.gateway.last = none ∧ slotText directory after = slotText directory c) ∨
      run.2.gateway.last.isSome = true ∧ Leaves directory e run after := by
  have keeps := keeps_slotText directory
  have spares := spares_player env directory settings.textMode
    fun d => Save.fileHeld directory Save.autoKey d
  have out := playsOut_played spares e saved c
  have orderly := orderly_stageOf env directory e settings c typed
  rw [comes] at out
  rw [on_playEpisode, comes] at ends
  obtain ⟨answer, t⟩ := run
  cases answer with
  | ok finished =>
    have follows := Stage.follows_of_playsOut keeps spares orderly rfl out nofun
    cases ends
    have ended (h : (.ok finished : Except (RunFault ConsoleFault) Bool) = .ok true) :
        t.run.current = "" := by
      cases h
      exact current_of_finished follows.orderly comes
    have leaves := leaves_of_follows follows rfl ended fun _ h => by cases h
    exact leaves
  | error fault =>
    cases own : fault.isOfEpisode with
    | false =>
      simp only [own, Bool.false_eq_true, if_false] at ends
      cases ends
    | true =>
      -- Where a save fails the session ends, so what stopped this run was no save.
      have follows := Stage.follows_of_playsOut keeps spares orderly rfl out fun _ h => by
        cases h
        exact ofSave_of_isOfEpisode own
      simp only [own, if_true] at ends
      cases ends
      have same : slotText directory (aborted t.gateway.world fault) =
          slotText directory t.gateway.world := rfl
      have unfinished (h : (.error fault : Except (RunFault ConsoleFault) Bool) = .ok true) :
          t.run.current = "" := by cases h
      have leaves := leaves_of_follows follows same unfinished fun _ _ mirrored =>
        current_of_aborted own follows.orderly out mirrored
      exact leaves

end Played

/-! ## The menu through a session -/

/-- The run that the menu goes by: the last one that has saved something, which one has as soon as
a call on it has led to a node. -/
def lastSaving (run : PlayedRun) (before : Option PlayedRun) : Option PlayedRun :=
  if run.2.gateway.last.isSome then some run else before

/-- Which run an action of the menu starts from, if it starts one: none, or the saved one. -/
def startsFrom (saved : Option Save.Record) : MenuAction → Option (Option Save.Record)
  | .newGame => some none
  | .resume => some saved
  | .options | .quit => none

/-- The times at which the main menu is shown, and what has come before: how many times it was
shown, the settings and the console now, and the last run that has saved something. -/
inductive Showing (env : Environment) (directory : Path) (e : Episode) (initial : RawSettings)
    (fresh : Console) : Nat → RawSettings → Console → Option PlayedRun → Prop
  | first : Showing env directory e initial fresh 0 initial fresh none
  /-- After the options. -/
  | options {times : Nat} {settings settings' : RawSettings} {c now asked after : Console}
    {last : Option PlayedRun} {saved : Option Save.Record}
    (showing : Showing env directory e initial fresh times settings c last)
    (found : (resumable directory e).on c = (.ok saved, now))
    (picks : (askAction e saved.isSome).on now = (.ok .options, asked))
    (changes : (optionsMenu env settings).on asked = (.ok settings', after)) :
    Showing env directory e initial fresh (times + 1) settings' after last
  /-- After a run was played. -/
  | played {times : Nat} {settings : RawSettings} {c now asked after : Console}
    {last : Option PlayedRun} {saved from' : Option Save.Record} {action : MenuAction}
    (showing : Showing env directory e initial fresh times settings c last)
    (found : (resumable directory e).on c = (.ok saved, now))
    (picks : (askAction e saved.isSome).on now = (.ok action, asked))
    (starts : startsFrom saved action = some from')
    (ends : (playEpisode env directory e settings from').on asked = (.ok (), after)) :
    Showing env directory e initial fresh (times + 1) settings after
      (lastSaving (played env directory e settings from' asked) last)


/-- A saved run is loaded as it is found. -/
theorem loaded_of_resumable {saved : Option Save.Record} {record : Save.Record}
    (found : (resumable directory e).on c = (.ok saved, now)) (h : saved = some record) :
    loaded directory c = .ok (some record) ∧ record.episode = e.id ∧ record.node ≠ "" := by
  have answer := resumable_answer directory e c
  rw [found, h] at answer
  split at answer
  · next earlier came =>
    obtain ⟨rfl, hgoes⟩ := Option.filter_eq_some_iff.1 (Except.ok.inj answer).symm
    simp only [goesOn, Save.Record.isFinished, Bool.and_eq_true, decide_eq_true_eq,
      Bool.not_eq_true', decide_eq_false_iff_not] at hgoes
    exact ⟨came, hgoes⟩
  · split at answer <;> cases answer

theorem typed_of_resumable {saved : Option Save.Record} {record : Save.Record}
    (found : (resumable directory e).on c = (.ok saved, now)) (h : saved = some record) :
    record.resources.Typed := by
  obtain ⟨came, -⟩ := loaded_of_resumable found h
  exact (Save.Record.storable_iff.1 (Save.storable_of_load (Act.eq_of_answer came))).1

/-- Whenever the menu is shown, what the run it goes by has left behind is there. -/
theorem leaves_of_showing {initial : RawSettings} {fresh : Console} {times : Nat}
    {last : Option PlayedRun}
    (showing : Showing env directory e initial fresh times settings c last) :
    ∀ run, last = some run →
      run.2.gateway.last.isSome = true ∧ Leaves directory e run c := by
  induction showing with
  | first =>
    intro run h
    cases h
  | @options times settings settings' c now asked after last saved _ found picks changes ih =>
    intro run h
    obtain ⟨hsome, leaves⟩ := ih run h
    refine ⟨hsome, leaves.stays fun text held => ?_⟩
    -- The options write the settings only, which stand in a file of another name.
    rw [← slotText_asked found picks] at held
    have preserved := preserves_optionsMenu env settings asked held
    rw [changes] at preserved
    exact preserved
  | @played times settings c now asked after last saved from' action _ found picks starts ends ih =>
    have typed : ∀ record, from' = some record → record.resources.Typed := by
      intro record h
      cases action with
      | newGame => cases starts; cases h
      | resume => cases starts; exact typed_of_resumable found h
      | _ => cases starts
    generalize comes : played env directory e settings from' asked = latest
    intro run h
    rw [lastSaving] at h
    obtain ⟨hlast, hheld⟩ | ⟨hsome, leaves⟩ := leaves_of_played typed comes ends
    · -- A run that has saved nothing leaves the slot to the run before it.
      rw [hlast] at h
      obtain ⟨hsome, leaves⟩ := ih run h
      refine ⟨hsome, leaves.stays fun text held => ?_⟩
      rw [hheld, slotText_asked found picks]
      exact held
    · rw [if_pos hsome] at h
      cases h
      exact ⟨hsome, leaves⟩

/-! ## The menu as part of the session -/

/-- A line that answers a question is one of the lines typed. -/
theorem exists_line_of_ask {α : Type} {judge : String → Except String α} {lines : List String}
    {a : α} (h : (ask judge lines).answer = some a) : ∃ line ∈ lines, judge line = .ok a := by
  induction lines with
  | nil => cases h
  | cons line rest ih =>
    cases judged : judge line with
    | ok b =>
      simp only [ask, judged] at h
      cases h
      exact ⟨line, List.mem_cons_self, judged⟩
    | error remark =>
      simp only [ask, judged] at h
      obtain ⟨line', mem, hline⟩ := ih h
      exact ⟨line', List.mem_cons_of_mem _ mem, hline⟩

theorem mem_of_judgeItem {α : Type} {items : List α} {line : String} {item : α}
    (h : judgeItem items line = .ok item) : item ∈ items := by
  rw [judgeItem] at h
  split at h
  · cases h
  · split at h
    · next found =>
      cases h
      exact List.mem_of_getElem? found
    · cases h

/-- Only what is offered can be picked. -/
theorem mem_offered_of_askAction {canContinue : Bool} {action : MenuAction}
    (picks : (askAction e canContinue).on now = (.ok action, after)) :
    action ∈ MenuAction.offered canContinue := by
  simp only [askAction, Act.on_bind, print, Act.on_change, question, Act.on_of] at picks
  split at picks
  · next answered =>
    cases picks
    obtain ⟨line, -, judged⟩ := exists_line_of_ask answered
    exact mem_of_judgeItem judged
  · cases picks

theorem resume_mem_offered_iff {canContinue : Bool} :
    .resume ∈ MenuAction.offered canContinue ↔ canContinue = true := by
  cases canContinue <;> decide

/-- An action at the console goes the same in a session. -/
theorem on_inSession_ok {α : Type} {act : Act Console ConsoleFault α} {a : α}
    (h : act.on c = (.ok a, after)) : (inSession act).on c = (.ok a, after) := by
  simp only [inSession, Act.on_within, id, h]

section MainMenu

variable {saved from' : Option Save.Record} {action : MenuAction} {asked : Console}
  (found : (resumable directory e).on c = (.ok saved, now))
  (picks : (askAction e saved.isSome).on now = (.ok action, asked))

include found picks

/-- The action that is picked is carried out. -/
theorem on_mainMenu_of_picked (settings : RawSettings) (more : Nat) :
    (mainMenu env directory e (more + 1) settings).on c =
      (carryOut env directory e more settings saved action).on asked := by
  rw [on_mainMenu_of_ok env directory e more settings found, Act.on_bind, on_inSession_ok picks]

/-- After the options the menu is shown again, by the settings then. -/
theorem on_mainMenu_of_options {settings' : RawSettings} (more : Nat)
    (isOptions : action = .options)
    (changes : (optionsMenu env settings).on asked = (.ok settings', after)) :
    (mainMenu env directory e (more + 1) settings).on c =
      (mainMenu env directory e more settings').on after := by
  subst isOptions
  rw [on_mainMenu_of_picked found picks, carryOut, Act.on_bind, on_inSession_ok changes]

/-- After playing the menu is shown again. -/
theorem on_mainMenu_of_played (more : Nat) (starts : startsFrom saved action = some from')
    (ends : (playEpisode env directory e settings from').on asked = (.ok (), after)) :
    (mainMenu env directory e (more + 1) settings).on c =
      (mainMenu env directory e more settings).on after := by
  rw [on_mainMenu_of_picked found picks]
  cases action with
  | newGame =>
    cases starts
    rw [carryOut, Act.on_bind, ends]
  | resume =>
    cases starts
    rw [carryOut, Act.on_bind, ends]
  | _ => cases starts

end MainMenu

/-- What is shown after so many times is what the menu of the session goes on with. -/
theorem on_mainMenu_of_showing {initial : RawSettings} {fresh : Console} {times : Nat}
    {last : Option PlayedRun}
    (showing : Showing env directory e initial fresh times settings c last) (more : Nat) :
    (mainMenu env directory e (times + more) initial).on fresh =
      (mainMenu env directory e more settings).on c := by
  induction showing generalizing more with
  | first => rw [Nat.zero_add]
  | @options times settings settings' c now asked after last saved _ found picks changes ih =>
    rw [Nat.add_assoc, Nat.add_comm 1, ih]
    exact on_mainMenu_of_options found picks more rfl changes
  | @played times settings c now asked after last saved from' action _ found picks starts ends ih =>
    rw [Nat.add_assoc, Nat.add_comm 1, ih]
    exact on_mainMenu_of_played found picks more starts ends

/-- A run is offered to be continued just if it is loaded, is of the episode and has not ended. -/
theorem resume_offered_iff {saved : Option Save.Record}
    (found : (resumable directory e).on c = (.ok saved, now)) :
    .resume ∈ MenuAction.offered saved.isSome ↔
      ∃ record, loaded directory c = .ok (some record) ∧ record.episode = e.id ∧
        record.node ≠ "" := by
  rw [resume_mem_offered_iff]
  constructor
  · intro some
    obtain ⟨record, hrecord⟩ := Option.isSome_iff_exists.1 some
    exact ⟨record, loaded_of_resumable found hrecord⟩
  · rintro ⟨record, came, own, node⟩
    have answer := resumable_answer directory e c
    have goes : goesOn e record = true := by
      rw [goesOn, Save.Record.isFinished, decide_eq_true own, decide_eq_false node]
      rfl
    rw [found, came] at answer
    simp only [Option.filter_some, goes, if_true] at answer
    cases answer
    rfl

/-- The menu is shown unless loading fails for another reason than what stands in the slot. -/
theorem resumable_ok_iff :
    (∃ saved now, (resumable directory e).on c = (.ok saved, now)) ↔
      ∀ fault, loaded directory c = .error fault → fault.ofContent = true := by
  have answer := resumable_answer directory e c
  constructor
  · rintro ⟨saved, now, found⟩ fault came
    rw [found, came] at answer
    by_contra other
    simp only [if_neg other] at answer
    cases answer
  · intro ofContent
    cases came : loaded directory c with
    | ok found =>
      rw [came] at answer
      exact ⟨_, _, Act.eq_of_answer answer⟩
    | error fault =>
      rw [came] at answer
      simp only [if_pos (ofContent fault came)] at answer
      exact ⟨_, _, Act.eq_of_answer answer⟩

/-- A run that is continued starts where it was saved. -/
theorem run_stageOf_saved {record : Save.Record} {asked : Console} (node : record.node ≠ "") :
    (stageOf env directory e settings (some record) asked).run =
      ⟨e, record.node, .running, [], record.resources⟩ := by
  show Run.start e (some record.node) record.resources = _
  simp only [Run.start, Option.getD_some, Status.at_eq_running_iff.2 node]

/-- From what a run has left behind the menu takes its place, if it has one. -/
theorem resumable_of_leaves {run : PlayedRun} (leaves : Leaves directory e run c) :
    ∃ saved now back, (resumable directory e).on c = (.ok saved, now) ∧
      back.Same ⟨e.id, run.2.run.current, run.2.run.resources, .whole⟩ ∧
      saved = if run.2.run.current = "" then none else some back := by
  obtain ⟨text, encoded, held⟩ := leaves.text
  obtain ⟨after, -, hload⟩ := Save.Gateway.on_load_text Save.slotKey_zero
    (g := ⟨none, c⟩) (keeps_slotText directory) leaves.orderly.typed
    (Save.Record.joined_string _) encoded held
  have came : loaded directory c = .ok (some (run.2.run.recordAt run.2.run.current).inOrder) := by
    rw [loaded, hload]
  have answer := resumable_answer directory e c
  rw [came] at answer
  have same := (run.2.run.recordAt run.2.run.current).inOrder_same
  rw [Run.recordAt, leaves.orderly.episode] at same
  refine ⟨_, _, _, Act.eq_of_answer answer, same, ?_⟩
  rw [Option.filter_some, goesOn, Save.Record.isFinished]
  simp only [Save.Record.inOrder, Run.recordAt, leaves.orderly.episode, decide_true,
    Bool.true_and]
  by_cases ended : run.2.run.current = ""
  · simp only [ended, decide_true, Bool.not_true, Bool.false_eq_true, if_true, if_false]
  · simp only [ended, decide_false, Bool.not_false, if_true, if_false]

/-- Each time a session shows its menu, a run is offered to be continued just if one is loaded
from the slot, of the episode, that has not ended.  What is picked is one of what is offered and
is carried out: a run that is continued starts at the node that was saved, with the resources
that were, and a new game at the start of the episode, with nothing.  And once a run of the
session has saved something, the menu goes by the last one that has: nothing is offered to be
continued if that one finished, and if it was aborted, the run where it stood. -/
theorem continue_offered_iff_left {initial : RawSettings} {fresh : Console} {times : Nat}
    {last : Option PlayedRun}
    (showing : Showing env directory e initial fresh times settings c last) :
    (∀ more, (mainMenu env directory e (times + more) initial).on fresh =
      (mainMenu env directory e more settings).on c) ∧
    ((∃ saved now, (resumable directory e).on c = (.ok saved, now)) ↔
      ∀ fault, loaded directory c = .error fault → fault.ofContent = true) ∧
    (∀ saved now, (resumable directory e).on c = (.ok saved, now) →
      (.resume ∈ MenuAction.offered saved.isSome ↔
        ∃ record, loaded directory c = .ok (some record) ∧ record.episode = e.id ∧
          record.node ≠ "") ∧
      ∀ action asked, (askAction e saved.isSome).on now = (.ok action, asked) →
        action ∈ MenuAction.offered saved.isSome ∧
        (∀ more, (mainMenu env directory e (more + 1) settings).on c =
          (carryOut env directory e more settings saved action).on asked) ∧
        (action = .resume → ∃ record, loaded directory c = .ok (some record) ∧
          saved = some record ∧ (stageOf env directory e settings saved asked).run =
            ⟨e, record.node, .running, [], record.resources⟩) ∧
        (action = .newGame → (stageOf env directory e settings none asked).run =
          ⟨e, e.start, Status.at e.start, [], Table.empty⟩)) ∧
    ∀ answer t, last = some (answer, t) →
      ∃ saved now, (resumable directory e).on c = (.ok saved, now) ∧
        (answer = .ok true → .resume ∉ MenuAction.offered saved.isSome) ∧
        ∀ fault, answer = .error fault → .resume ∈ MenuAction.offered saved.isSome ∧
          ∃ back, saved = some back ∧
            back.Same ⟨e.id, t.run.current, t.run.resources, .whole⟩ := by
  refine ⟨on_mainMenu_of_showing showing, resumable_ok_iff, fun saved now found =>
    ⟨resume_offered_iff found, fun action asked picks => ⟨mem_offered_of_askAction picks,
      on_mainMenu_of_picked found picks settings, fun isResume => ?_, fun _ => rfl⟩⟩,
    fun answer t hlast => ?_⟩
  · subst isResume
    obtain ⟨record, rfl⟩ := Option.isSome_iff_exists.1
      (resume_mem_offered_iff.1 (mem_offered_of_askAction picks))
    obtain ⟨came, -, node⟩ := loaded_of_resumable found rfl
    exact ⟨record, came, rfl, run_stageOf_saved node⟩
  · obtain ⟨-, leaves⟩ := leaves_of_showing showing _ hlast
    obtain ⟨saved, now, back, found, same, hsaved⟩ := resumable_of_leaves leaves
    refine ⟨saved, now, found, fun finished => ?_, fun fault stopped => ?_⟩
    · rw [hsaved, if_pos (leaves.finished finished)]
      decide
    · rw [if_neg (leaves.aborted fault stopped)] at hsaved
      exact ⟨resume_mem_offered_iff.2 (by rw [hsaved]; rfl), back, hsaved, same⟩

/-- An island that no boat leads away from. -/
def island : Episode := ⟨"island", "The island", "chest", Table.ofList [
  ("chest", .assign (Table.ofList [("coins", .number (.int 3))]) "boat")]⟩

/-- A new game on the island is aborted for want of a boat, and the menu that is shown then offers
to continue where the boat is missed, with the coins that were found before. -/
theorem island_left_at_boat :
    let base := Path.ofText "saves"
    let env : Environment := ⟨Table.empty, Table.empty, false, Path.ofText "/app"⟩
    let fresh : Console := ⟨["1", "2"], "", [], ⟨[(["saves"], .directory)], []⟩⟩
    let coins : Resources := Table.ofList [("coins", .number (.int 3))]
    ∃ c t, Showing env base island Table.empty fresh 1 Table.empty c
        (some (.error (.missingNode "boat"), t)) ∧
      (∀ more, (mainMenu env base island (1 + more) Table.empty).on fresh =
        (mainMenu env base island more Table.empty).on c) ∧
      ∃ saved now back, (resumable base island).on c = (.ok saved, now) ∧
        .resume ∈ MenuAction.offered saved.isSome ∧ saved = some back ∧
        back.Same ⟨"island", "boat", coins, .whole⟩ := by
  intro base env fresh coins
  have found : ((resumable base island).on fresh).1 = .ok none := by decide +kernel
  let now := ((resumable base island).on fresh).2
  have picks : ((askAction island false).on now).1 = .ok .newGame := by decide +kernel
  let asked := ((askAction island false).on now).2
  have ends : ((playEpisode env base island Table.empty none).on asked).1 = .ok () := by
    decide +kernel
  let run := played env base island Table.empty none asked
  have stopped : run.1 = .error (.missingNode "boat") := by decide +kernel
  have saves : run.2.gateway.last.isSome = true := by decide +kernel
  have stands : run.2.run.current = "boat" ∧ run.2.run.resources = coins := by decide +kernel
  have showing : Showing env base island Table.empty fresh 1 Table.empty
      ((playEpisode env base island Table.empty none).on asked).2 (lastSaving run none) :=
    Showing.first.played (Act.eq_of_answer found) (Act.eq_of_answer picks) rfl
      (Act.eq_of_answer ends)
  have last : lastSaving run none = some (.error (.missingNode "boat"), run.2) := by
    rw [lastSaving, if_pos saves]
    exact congrArg some (Act.eq_of_answer stopped)
  rw [last] at showing
  obtain ⟨goes, -, -, left⟩ := continue_offered_iff_left showing
  obtain ⟨saved, later, offers, -, aborted⟩ := left _ _ rfl
  obtain ⟨offered, back, hsaved, same⟩ := aborted _ rfl
  rw [stands.1, stands.2] at same
  exact ⟨_, _, showing, goes, saved, later, back, offers, offered, hsaved, same⟩

end Console

end Storyline
