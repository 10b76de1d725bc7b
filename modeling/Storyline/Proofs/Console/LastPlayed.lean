import Storyline.Proofs.Catalogue.Listing
import Storyline.Proofs.Console.Answer
import Storyline.Proofs.Console.Menu
import Storyline.Proofs.Settings

/-!
# Storyline.Proofs.Console.LastPlayed

The episode that was selected last, in the next session.  Whatever the player does in the main
menu, the settings file keeps the id, and the next session offers it first; but settings are kept
without the blanks around them, so an id with a blank at either end is not found again.
-/

namespace Storyline

namespace Console

/-! ## The order of the menu -/

section Order

variable {ids : List String} {id : String} {last : Option String}

/-- What is offered is what is listed, in some order. -/
theorem perm_offeredOrder (ids : List String) (last : Option String) :
    (offeredOrder ids last).Perm ids := by
  have hrest : ids.filter (some · != last) = ids.filter fun i => !(some i == last) := rfl
  rw [offeredOrder, hrest]
  exact List.filter_append_perm (fun i => some i == last) ids

/-- An id that was played last comes first, and the others keep their order. -/
theorem offeredOrder_some (distinct : ids.Nodup) (mem : id ∈ ids) :
    offeredOrder ids (some id) = id :: ids.filter (· ≠ id) := by
  have hfirst : ids.filter (some · == some id) = [id] := by
    simp only [Option.some_beq_some]
    rw [List.filter_beq, distinct.count, if_pos mem, List.replicate_one]
  have hrest : ids.filter (some · != some id) = ids.filter (· ≠ id) :=
    List.filter_congr fun i _ => by
      rw [bne, Option.some_beq_some, decide_not, Bool.beq_eq_decide_eq]
  rw [offeredOrder, hfirst, hrest, List.singleton_append]

/-- The menu that is promised for an id: it comes first, the others come after it in the order in
which they are listed, and of the labels its own alone says that it was played last. -/
structure OffersFirst (ids : List String) (last : Option String) (id : String) : Prop where
  order : offeredOrder ids last = id :: ids.filter (· ≠ id)
  labels : (offeredOrder ids last).map (episodeLabel last) =
    (id ++ " (last played)") :: ids.filter (· ≠ id)

/-- It is kept just if the id is what is known to have been played last. -/
theorem offersFirst_iff (distinct : ids.Nodup) (mem : id ∈ ids) :
    OffersFirst ids last id ↔ last = some id := by
  constructor
  · intro first
    have hlabels := first.labels
    rw [first.order, List.map_cons] at hlabels
    have hlabel := (List.cons.inj hlabels).1
    rw [episodeLabel] at hlabel
    split at hlabel
    · next heq => exact heq.symm
    · have hlength := congrArg String.length hlabel
      rw [String.length_append] at hlength
      exact absurd hlength (by simp)
  · rintro rfl
    have hothers : (ids.filter (· ≠ id)).map (episodeLabel (some id)) = ids.filter (· ≠ id) := by
      refine (List.map_congr_left fun i hi => ?_).trans (List.map_id _)
      have hne : i ≠ id := of_decide_eq_true (List.mem_filter.1 hi).2
      exact if_neg fun heq => hne (Option.some.inj heq)
    have horder := offeredOrder_some distinct mem
    refine ⟨horder, ?_⟩
    rw [horder, List.map_cons, hothers, episodeLabel, if_pos rfl]

end Order

/-! ## What the settings file keeps -/

/-- Saving a run leaves the settings alone. -/
theorem readBytes_saveRun {above below : Path} {d : Disk} {bytes : List UInt8} (text : String)
    (h : d.readBytes (above.join "config.json") = .ok bytes) :
    (((Save.fileStore below).write Save.autoKey text).on d).2.readBytes
      (above.join "config.json") = .ok bytes := by
  have hmade := Disk.readBytes_ensureDirectory h (q := below)
  rw [Save.on_write]
  cases made : Disk.ensureDirectory below d with
  | mk answer mid =>
    rw [made] at hmade
    cases answer with
    | error fault => exact hmade
    | ok _ =>
      simp only [Save.on_writeKey (Save.keyPath_autoKey below)]
      split
      · next written hwrite =>
        exact Disk.readBytes_writeBytes_of_ne hmade (Settings.parts_file above)
          (Save.parts_slotFile below) (by decide) (by decide) (by decide) hwrite
      · exact hmade

/-- The settings of a session in which an episode was selected, and their file: the file holds
them in normal form, the id is among them, and the directory of the episodes is the one that was
named before. -/
structure Remembers (file : Path) (id : String) (before : Settings) (settings : RawSettings)
    (d : Disk) : Prop where
  held : ∃ bytes, d.readBytes file = .ok bytes
  loaded : Settings.load d file = Settings.normalize settings
  episode : settings.find? "last_episode" = some (.string id)
  content : settings.find? "content_dir" = before.raw.find? "content_dir"

section Remembers

variable {env : Environment} {file directory : Path} {id : String} {before : Settings}
  {settings settings' raw : RawSettings} {c after : Console} {d later : Disk}

theorem Remembers.stays (remembers : Remembers file id before settings d)
    (same : later.readBytes file = d.readBytes file) :
    Remembers file id before settings later where
  held := same ▸ remembers.held
  loaded := (Settings.load_congr same).trans remembers.loaded
  episode := remembers.episode
  content := remembers.content

theorem save_of_saveSettings (hfile : env.settingsFile = .ok file)
    (h : (saveSettings env none raw).on c = (.ok (), after)) :
    Settings.save raw file c.disk = (.ok (), after.disk) := by
  simp only [saveSettings, Act.on_bind, Act.on_known, hfile, mapError_ok, onDisk, Act.on_within,
    Act.on_of] at h
  cases hsave : Settings.save raw file c.disk with
  | mk answer d =>
    rw [hsave] at h
    cases answer with
    | error fault => cases h
    | ok _ => cases h; rfl

theorem remembers_of_save (hsave : Settings.save settings file d = (.ok (), later))
    (episode : settings.find? "last_episode" = some (.string id))
    (content : settings.find? "content_dir" = before.raw.find? "content_dir") :
    Remembers file id before settings later := by
  obtain ⟨mid, -, written⟩ := Settings.save_ok_iff.1 hsave
  exact ⟨⟨_, Disk.readBytes_writeBytes written⟩, Settings.load_of_save hsave, episode, content⟩

/-- An episode that was selected is remembered. -/
theorem remembers_of_selected (hfile : env.settingsFile = .ok file)
    (h : (rememberEpisode env (Settings.load c.disk file).raw id).on c = (.ok settings, after)) :
    Remembers file id (Settings.load c.disk file) settings after.disk := by
  rw [rememberEpisode] at h
  split at h
  · next hlast =>
    cases h
    have hnormal := (Settings.isNormal_load c.disk file).normalize_raw
    have hset : Settings.load c.disk file ≠ Settings.initial := by
      have hmissing : Settings.initial.raw.find? "last_episode" = none := by decide +kernel
      intro hinitial
      rw [hinitial, hmissing] at hlast
      cases hlast
    exact ⟨Settings.exists_bytes_of_load hset, hnormal.symm, hlast, rfl⟩
  · obtain ⟨_, mid, hsave, h⟩ := Act.ok_of_bind h
    cases h
    refine remembers_of_save (save_of_saveSettings hfile hsave) (Table.find?_insert_self _ _ _) ?_
    rw [Table.find?_insert, if_neg (by decide)]

/-- The options change nothing but the mode. -/
theorem Remembers.options (remembers : Remembers file id before settings c.disk)
    (hfile : env.settingsFile = .ok file)
    (h : (optionsMenu env settings).on c = (.ok settings', after)) :
    Remembers file id before settings' after.disk := by
  obtain ⟨_, shown, hshown, h⟩ := Act.ok_of_bind h
  obtain ⟨place, asked, hasked, h⟩ := Act.ok_of_bind h
  have hdisk : asked.disk = c.disk := by
    have hprint : shown.disk = c.disk := by cases hshown; rfl
    have hquestion := preserves_question (P := fun d => d = c.disk) (judgePlace 2) shown hprint
    rw [askPlace] at hasked
    rwa [hasked] at hquestion
  split at h
  · obtain ⟨_, mid, hsave, h⟩ := Act.ok_of_bind h
    cases h
    refine remembers_of_save (save_of_saveSettings hfile hsave) ?_ ?_
    · rw [Table.find?_insert, if_neg (by decide), remembers.episode]
    · rw [Table.find?_insert, if_neg (by decide), remembers.content]
  · cases h
    rw [hdisk]
    exact remembers

theorem Remembers.played (remembers : Remembers file id before settings c.disk)
    (hfile : env.settingsFile = .ok file) {e : Episode} {saved : Option Save.Record}
    (h : (playEpisode env directory e settings saved).on c = (.ok (), after)) :
    Remembers file id before settings after.disk := by
  obtain ⟨above, -, rfl⟩ := map_ok_iff.1 hfile
  obtain ⟨bytes, hbytes⟩ := remembers.held
  have hplayed : ((playEpisode env directory e settings saved).on c).2.disk.readBytes
      (above.join "config.json") = .ok bytes :=
    disk_playEpisode (P := fun d => d.readBytes (above.join "config.json") = .ok bytes)
      (fun text _ => readBytes_saveRun text) env e settings saved hbytes
  rw [h] at hplayed
  exact remembers.stays (hplayed.trans hbytes.symm)

/-- Whatever is done in the main menu, the file keeps the id. -/
theorem remembers_of_showing {e : Episode} {initial : RawSettings} {ready : Console} {times : Nat}
    {last : Option PlayedRun} (hfile : env.settingsFile = .ok file)
    (showing : Showing env directory e initial ready times settings c last)
    (remembers : Remembers file id before initial ready.disk) :
    Remembers file id before settings c.disk := by
  induction showing with
  | first => exact remembers
  | options _ found picks changes ih =>
    exact Remembers.options (disk_asked found picks ▸ ih) hfile changes
  | played _ found picks _ ends ih =>
    exact Remembers.played (disk_asked found picks ▸ ih) hfile ends

end Remembers

/-! ## The next session -/

section Next

variable {env : Environment} {file : Path} {id : String} {before : Settings}
  {settings : RawSettings} {d : Disk}

/-- What the next session knows to have been played last: the id without the blanks around it. -/
theorem Remembers.last (remembers : Remembers file id before settings d) :
    (Settings.load d file).find? "last_episode" =
      if Text.trim id = "" then none else some (Text.trim id) := by
  rw [remembers.loaded, Settings.find?_normalize (by decide), Settings.optionalText?,
    remembers.episode]

/-- It looks for the episodes where they were before. -/
theorem Remembers.contentDirectory (remembers : Remembers file id before settings d)
    (normal : before.IsNormal) (env : Environment) :
    (Settings.load d file).contentDirectory env = before.contentDirectory env := by
  have hbefore : before.find? "content_dir" = Settings.optionalText? before.raw "content_dir" := by
    rw [← Settings.find?_normalize (by decide), normal.normalize_raw]
  have hcontent : (Settings.load d file).find? "content_dir" = before.find? "content_dir" := by
    rw [hbefore, remembers.loaded, Settings.find?_normalize (by decide), Settings.optionalText?,
      Settings.optionalText?, remembers.content]
  rw [Settings.contentDirectory, Settings.contentDirectory, hcontent]

end Next

section Session

variable {env : Environment} {file directory : Path} {base : Option Path} {ids : List String}
  {loaded : Settings}

/-- Several episodes are shown in a menu before the player is asked. -/
theorem on_selectEpisode (several : 2 ≤ ids.length) (last : Option String) (c : Console) :
    (selectEpisode ids last).on c =
      (question (judgeItem (offeredOrder ids last))).on { c with
        output := c.output ++
          menu "Episodes" ((offeredOrder ids last).map (episodeLabel last)) } := by
  match ids, several with
  | first :: second :: rest, _ => rfl

theorem on_inSession_congr {α : Type} {act other : Act Console ConsoleFault α} {c c' : Console}
    (h : act.on c = other.on c') : (inSession act).on c = (inSession other).on c' := by
  simp only [inSession, Act.on_within, id, h]

/-- A session goes on with the episode that is selected. -/
theorem on_session_of_listed {next : Console} (hfile : env.settingsFile = .ok file)
    (hload : Settings.load next.disk file = loaded) (based : loaded.contentDirectory env = .ok base)
    (saves : env.savesDirectory = .ok directory)
    (listed : (Catalogue.new base).ids env next.disk = .ok ids) (nonempty : ids ≠ []) :
    (session env).on next =
      (inSession (selectEpisode ids (loaded.find? "last_episode")) >>=
        openEpisode env (Catalogue.new base) directory loaded).on { next with
          output := next.output ++ "=== Taleweave ===\n" } := by
  obtain ⟨first, rest, rfl⟩ := List.exists_cons_of_ne_nil nonempty
  have loads : (loadSettings env none).on next = (.ok loaded, next) := by
    simp only [loadSettings, Act.on_bind, Act.on_known, hfile, mapError_ok, Act.on_look, ← hload]
  have known {ε α : Type} {fault : ε → ConsoleFault} {answer : Except ε α} {a : α}
      (h : answer = .ok a) : (Act.known fault answer).on next = (.ok a, next) := by
    rw [h]
    rfl
  have prints : (printLine "=== Taleweave ===").on next =
      (.ok (), { next with output := next.output ++ "=== Taleweave ===\n" }) := rfl
  rw [session_eq, Act.on_bind, on_inSession_ok loads]
  simp only
  rw [Act.on_bind, on_inSession_ok (known based)]
  simp only
  rw [Act.on_bind, on_inSession_ok (known saves)]
  simp only
  rw [Act.on_bind, on_inSession_ok prints]
  simp only [Act.on_bind, Act.on_look, listed, Act.on_known, mapError_ok]

theorem getElem?_numbered (number : Nat) (labels : List String) (place : Nat) :
    (numbered number labels)[place]? =
      labels[place]?.map fun label => Nat.repr (number + place) ++ ". " ++ label := by
  induction labels generalizing number place with
  | nil => rfl
  | cons label rest ih =>
    cases place with
    | zero => rfl
    | succ place =>
      rw [numbered, List.getElem?_cons_succ, List.getElem?_cons_succ, ih, Nat.add_right_comm,
        Nat.add_assoc]

theorem exists_savesDirectory (hfile : env.settingsFile = .ok file) :
    ∃ directory, env.savesDirectory = .ok directory := by
  obtain ⟨data, hdata, -⟩ := map_ok_iff.1 hfile
  exact ⟨_, map_ok_iff.2 ⟨data, hdata, rfl⟩⟩

end Session

/-- A session that has come to its main menu, where the player may have played since and changed
the options: the settings are loaded, and an episode is selected of those that are listed, found
and remembered. -/
inductive InMenu (env : Environment) (file : Path) (fresh : Console) (base : Option Path)
    (id : String) (c : Console) : Prop
  | of {directory : Path} {ids : List String} {picked ready : Console} {e : Episode}
    {initial settings : RawSettings} {times : Nat} {last : Option PlayedRun}
    (based : (Settings.load fresh.disk file).contentDirectory env = .ok base)
    (saves : env.savesDirectory = .ok directory)
    (listed : (Catalogue.new base).ids env fresh.disk = .ok ids) (nonempty : ids ≠ [])
    (selects : (selectEpisode ids ((Settings.load fresh.disk file).find? "last_episode")).on
      { fresh with output := fresh.output ++ "=== Taleweave ===\n" } = (.ok id, picked))
    (found : ((Catalogue.new base).get env picked.disk id).1 = .ok e)
    (remembers : (rememberEpisode env (Settings.load fresh.disk file).raw id).on picked =
      (.ok initial, ready))
    (showing : Showing env directory e initial ready times settings c last)

section Main

variable {env : Environment} {file : Path} {fresh c next : Console} {base : Option Path}
  {id : String} {ids : List String}

theorem preserves_selectEpisode {P : Disk → Prop} (ids : List String) (last : Option String) :
    Preserves P (selectEpisode ids last) := by
  rw [selectEpisode.eq_def]
  split
  · exact preserves_pure _
  · exact preserves_bind (preserves_print _) fun _ => preserves_question _

/-- Once an episode is selected and remembered, the file keeps its id. -/
theorem remembers_after {directory : Path} {picked ready : Console} {e : Episode}
    {initial settings : RawSettings} {times : Nat} {last : Option PlayedRun}
    (hfile : env.settingsFile = .ok file)
    (selects : (selectEpisode ids ((Settings.load fresh.disk file).find? "last_episode")).on
      { fresh with output := fresh.output ++ "=== Taleweave ===\n" } = (.ok id, picked))
    (remembers : (rememberEpisode env (Settings.load fresh.disk file).raw id).on picked =
      (.ok initial, ready))
    (showing : Showing env directory e initial ready times settings c last) :
    Remembers file id (Settings.load fresh.disk file) settings c.disk := by
  have hdisk : picked.disk = fresh.disk := by
    have h := preserves_selectEpisode (P := fun d => d = fresh.disk) ids
      ((Settings.load fresh.disk file).find? "last_episode")
      { fresh with output := fresh.output ++ "=== Taleweave ===\n" } rfl
    rwa [selects] at h
  rw [← hdisk] at remembers ⊢
  exact remembers_of_showing hfile showing (remembers_of_selected hfile remembers)

theorem InMenu.remembers (hfile : env.settingsFile = .ok file)
    (inMenu : InMenu env file fresh base id c) :
    ∃ settings, Remembers file id (Settings.load fresh.disk file) settings c.disk := by
  cases inMenu with
  | of _ _ _ _ selects _ remembers showing =>
    exact ⟨_, remembers_after hfile selects remembers showing⟩

/-- The session after one in which an episode was selected and remembered, whatever else was done
in its main menu, with several episodes listed, all different and that one among them:

* It shows a menu of these episodes, all of them, and goes on with the one that is selected.
* A line that names a place in the menu selects the id that is printed there.
* The id is offered first, it alone is marked, and the others come after it in order, just if
  there is no blank at either end of it: the settings are kept without such blanks. -/
theorem last_played_first_iff_trimmed (hfile : env.settingsFile = .ok file)
    (inMenu : InMenu env file fresh base id c)
    (kept : next.disk.readBytes file = c.disk.readBytes file)
    (listed : (Catalogue.new base).ids env next.disk = .ok ids) (distinct : ids.Nodup)
    (several : 2 ≤ ids.length) (mem : id ∈ ids) :
    let loaded := Settings.load next.disk file
    let last := loaded.find? "last_episode"
    let order := offeredOrder ids last
    (∃ directory, env.savesDirectory = .ok directory ∧ (session env).on next =
      (inSession (question (judgeItem order)) >>=
        openEpisode env (Catalogue.new base) directory loaded).on { next with
          output := next.output ++ "=== Taleweave ===\n" ++
            menu "Episodes" (order.map (episodeLabel last)) }) ∧
    order.Perm ids ∧
    (∀ place chosen, order[place]? = some chosen →
      (numbered 1 (order.map (episodeLabel last)))[place]? =
          some (Nat.repr (1 + place) ++ ". " ++ episodeLabel last chosen) ∧
        ∀ line, Names line place → judgeItem order line = .ok chosen) ∧
    (ids.filter (· ≠ id)).Pairwise (· < ·) ∧
    (OffersFirst ids last id ↔ Text.trim id = id) := by
  intro loaded last order
  obtain ⟨settings, remembers⟩ := inMenu.remembers hfile
  have remembers := remembers.stays kept
  have based : (Settings.load next.disk file).contentDirectory env = .ok base := by
    cases inMenu with
    | of based _ _ _ _ _ _ _ =>
      rw [remembers.contentDirectory (Settings.isNormal_load fresh.disk file), based]
  obtain ⟨directory, saves⟩ := exists_savesDirectory hfile
  refine ⟨⟨directory, saves, ?_⟩, perm_offeredOrder ids last, fun place chosen hchosen => ⟨?_, ?_⟩,
    ?_, ?_⟩
  · have nonempty : ids ≠ [] := List.ne_nil_of_mem mem
    rw [on_session_of_listed hfile rfl based saves listed nonempty, Act.on_bind, Act.on_bind,
      on_inSession_congr (on_selectEpisode several _ _)]
  · rw [getElem?_numbered, List.getElem?_map, hchosen]
    rfl
  · exact fun line names => judgeItem_ok_iff.2 ⟨place, names, hchosen⟩
  · have hsorted : ids.Pairwise fun i j => i ≤ j := by
      obtain ⟨names, -, rfl⟩ := Catalogue.exists_listed_names listed
      exact pairwise_sortBy _ _
    refine List.Pairwise.filter _ ((hsorted.and distinct).imp fun {i j} ⟨hle, hne⟩ => ?_)
    by_contra hlt
    exact hne (String.le_antisymm hle (String.not_lt.1 hlt))
  · have hne : id ≠ "" := Catalogue.ne_empty_of_listed listed mem
    have hlast : last = if Text.trim id = "" then none else some (Text.trim id) := remembers.last
    rw [offersFirst_iff distinct mem, hlast]
    constructor
    · intro h
      split at h
      · cases h
      · exact Option.some.inj h
    · intro h
      rw [h, if_neg hne]

end Main

/-- An episode that is over as soon as it starts. -/
def tale (id : String) : Episode :=
  ⟨id, "T", "e", Table.ofList [("e", .ending none none)]⟩

/-- A disk with such episodes, of some ids, in a directory. -/
def tales (ids : List String) : Disk :=
  let document := "\x7b\"title\":\"T\",\"start\":\"e\"," ++
    "\"nodes\":\x7b\"e\":\x7b\"type\":\"end\"\x7d\x7d\x7d"
  ⟨(["eps"], .directory) :: ids.map fun id =>
    (["eps", id ++ ".json"], .file (Text.encode document)), []⟩

/-- Surroundings that name this directory. -/
def library : Environment :=
  ⟨Table.ofList [("HOME", "/home"), (Environment.contentVariable, "eps")], Table.empty, false,
    Path.ofText "/app"⟩

/-- The file of the settings there. -/
def libraryFile : Path := Path.ofText "/home/.config/taleweave/config.json"

/-- The directory of the saves there. -/
def librarySaves : Path := Path.ofText "/home/.config/taleweave/saves"

/-- After an episode was selected and the options were changed to single steps, the next session
offers it first. -/
theorem port_is_offered_first :
    let fresh : Console := ⟨["2", "2", "1"], "", [], tales ["mill", "port"]⟩
    ∃ c : Console, library.settingsFile = .ok libraryFile ∧
      InMenu library libraryFile fresh none "port" c ∧
      (Catalogue.new none).ids library c.disk = .ok ["mill", "port"] ∧
      (Settings.load c.disk libraryFile).entries =
        [("text_display_mode", "step"), ("last_episode", "port")] ∧
      OffersFirst ["mill", "port"] ((Settings.load c.disk libraryFile).find? "last_episode")
        "port" := by
  intro fresh
  let before := Settings.load fresh.disk libraryFile
  let asks : Console := { fresh with output := fresh.output ++ "=== Taleweave ===\n" }
  let selecting := selectEpisode ["mill", "port"] (before.find? "last_episode")
  let picked := (selecting.on asks).2
  let initial : RawSettings := before.raw.insert "last_episode" (.string "port")
  let ready := ((rememberEpisode library before.raw "port").on picked).2
  let now := ((resumable librarySaves (tale "port")).on ready).2
  let asked := ((askAction (tale "port") false).on now).2
  let toggled : RawSettings := initial.insert RawSettings.modeName (.string "step")
  let c := ((optionsMenu library initial).on asked).2
  -- All that the session computes, at once, so that each step is taken only once.
  obtain ⟨hfile, based, saves, listed, selects, found, remembers, looks, picks, changes, again,
      hnormal⟩ :
      library.settingsFile = .ok libraryFile ∧ before.contentDirectory library = .ok none ∧
      library.savesDirectory = .ok librarySaves ∧
      (Catalogue.new none).ids library fresh.disk = .ok ["mill", "port"] ∧
      (selecting.on asks).1 = .ok "port" ∧
      ((Catalogue.new none).get library picked.disk "port").1 = .ok (tale "port") ∧
      ((rememberEpisode library before.raw "port").on picked).1 = .ok initial ∧
      ((resumable librarySaves (tale "port")).on ready).1 = .ok none ∧
      ((askAction (tale "port") false).on now).1 = .ok .options ∧
      ((optionsMenu library initial).on asked).1 = .ok toggled ∧
      (Catalogue.new none).ids library c.disk = .ok ["mill", "port"] ∧
      (Settings.normalize toggled).entries =
        [("text_display_mode", "step"), ("last_episode", "port")] := by
    decide +kernel
  have showing : Showing library librarySaves (tale "port") initial ready 1 toggled c none :=
    Showing.first.options (Act.eq_of_answer looks) (Act.eq_of_answer picks)
      (Act.eq_of_answer changes)
  have inMenu : InMenu library libraryFile fresh none "port" c :=
    .of based saves listed (List.cons_ne_nil _ _) (Act.eq_of_answer selects) found
      (Act.eq_of_answer remembers) showing
  have hentries : (Settings.load c.disk libraryFile).entries =
      [("text_display_mode", "step"), ("last_episode", "port")] := by
    rw [(remembers_after hfile (Act.eq_of_answer selects) (Act.eq_of_answer remembers)
      showing).loaded, hnormal]
  -- The session that follows has the disk that this one has left.
  have promised : ∀ c : Console, InMenu library libraryFile fresh none "port" c →
      (Catalogue.new none).ids library c.disk = .ok ["mill", "port"] →
      OffersFirst ["mill", "port"] ((Settings.load c.disk libraryFile).find? "last_episode")
        "port" := by
    intro c inMenu again
    let next : Console := ⟨["1"], "", [], c.disk⟩
    have kept : next.disk.readBytes libraryFile = c.disk.readBytes libraryFile := rfl
    obtain ⟨-, -, -, -, first⟩ := last_played_first_iff_trimmed hfile inMenu kept again (by decide)
      (by decide) (by decide)
    exact first.2 (by decide +kernel)
  exact ⟨c, hfile, inMenu, again, hentries, promised c inMenu again⟩

/-- An id with a blank at its end is not found again: the next session offers another episode
first, and marks that one. -/
theorem blank_edge_is_lost :
    let ids := ["port", "port "]
    let fresh : Console := ⟨["2"], "", [], tales ids⟩
    ∃ c : Console, library.settingsFile = .ok libraryFile ∧
      InMenu library libraryFile fresh none "port " c ∧
      (Catalogue.new none).ids library fresh.disk = .ok ids ∧
      (Catalogue.new none).ids library c.disk = .ok ids ∧
      let last := (Settings.load c.disk libraryFile).find? "last_episode"
      offeredOrder ids last = ["port", "port "] ∧
        (offeredOrder ids last).map (episodeLabel last) = ["port (last played)", "port "] ∧
        ¬OffersFirst ids last "port " := by
  intro ids fresh
  let before := Settings.load fresh.disk libraryFile
  let asks : Console := { fresh with output := fresh.output ++ "=== Taleweave ===\n" }
  let selecting := selectEpisode ids (before.find? "last_episode")
  let picked := (selecting.on asks).2
  let initial : RawSettings := before.raw.insert "last_episode" (.string "port ")
  let c := ((rememberEpisode library before.raw "port ").on picked).2
  obtain ⟨hfile, based, saves, listed, selects, found, remembers, again⟩ :
      library.settingsFile = .ok libraryFile ∧ before.contentDirectory library = .ok none ∧
      library.savesDirectory = .ok librarySaves ∧
      (Catalogue.new none).ids library fresh.disk = .ok ids ∧
      (selecting.on asks).1 = .ok "port " ∧
      ((Catalogue.new none).get library picked.disk "port ").1 = .ok (tale "port ") ∧
      ((rememberEpisode library before.raw "port ").on picked).1 = .ok initial ∧
      (Catalogue.new none).ids library c.disk = .ok ids := by
    decide +kernel
  have inMenu : InMenu library libraryFile fresh none "port " c :=
    .of based saves listed (List.cons_ne_nil _ _) (Act.eq_of_answer selects) found
      (Act.eq_of_answer remembers) .first
  have hlast : (Settings.load c.disk libraryFile).find? "last_episode" = some "port" := by
    obtain ⟨settings, remembers⟩ := inMenu.remembers hfile
    rw [remembers.last]
    decide +kernel
  refine ⟨c, hfile, inMenu, listed, again, ?_⟩
  rw [hlast]
  exact ⟨by decide, by decide, fun first => absurd first.order (by decide)⟩

end Console

end Storyline
