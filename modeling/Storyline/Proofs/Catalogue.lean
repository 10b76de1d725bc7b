import Storyline.Console.Session
import Storyline.Proofs.Disk.Basic
import Storyline.Proofs.Disk.Path
import Storyline.Proofs.Json.Overlong

/-!
# Storyline.Proofs.Catalogue

What becomes of the file of an episode.  The catalogue *reports* on it if the episode is there
or the fault lies with the data, so that the player can be told.  Whatever is wrong with the
file, missing, unreadable, no JSON, no object or no episode, it is reported, save two things:
bytes that spell no text, and a whole number of too many digits.
-/

namespace Storyline

namespace Catalogue

/-! ## Reports -/

/-- Whether it is reported what became of an episode: it is there, or the fault lies with the
data. -/
def Reported {α : Type} (answer : Except CatalogueFault α) : Prop :=
  (∃ a, answer = .ok a) ∨ ∃ fault, answer = .error fault ∧ fault.isOfData = true

variable {d : Disk} {file : Path} {bytes : List UInt8}

theorem reported_error_iff {α : Type} {fault : CatalogueFault} :
    Reported (.error fault : Except CatalogueFault α) ↔ fault.isOfData = true := by
  simp [Reported]

/-- The bytes of a file are reported on just if they are legible. -/
theorem reported_readJson_of_bytes (h : d.readBytes file = .ok bytes) :
    Reported (readJson d file) ↔ Json.Legible bytes := by
  cases decoded : Text.decode bytes with
  | error fault =>
    have hread : readJson d file = .error (.disk (.encoding fault)) := by
      simp only [readJson, Disk.readText_of_bytes h, decoded]
    rw [hread, reported_error_iff]
    exact iff_of_false nofun (Json.not_legible_of_error decoded)
  | ok text =>
    rw [Json.legible_iff decoded, Json.Overlong, readJson, Disk.readText_of_bytes h, decoded]
    dsimp only
    cases Json.read (String.ofList (Text.unifyLineEnds text.toList)) with
    | ok j => simp [Reported]
    | error refusal => cases refusal <;> simp [Reported, CatalogueFault.isOfData]

/-- Without the NUL character in its path a file is reported on if it cannot be read. -/
theorem reported_readJson_of_refused (plain : '\x00' ∉ file.text.toList) {fault : DiskFault}
    (h : d.readBytes file = .error fault) : Reported (readJson d file) := by
  obtain ⟨problem, path, rfl⟩ := Disk.refused_of_readBytes plain h
  rw [readJson, Disk.readText_of_refused h]
  cases problem <;> exact .inr ⟨_, rfl, rfl⟩

theorem readEpisode_of_error (id : String) {fault : CatalogueFault}
    (h : readJson d file = .error fault) : readEpisode d file id = .error fault := by
  rw [readEpisode, h]
  rfl

/-- A document that is JSON is an episode, or the data are to blame. -/
theorem isOfData_of_readEpisode (id : String) {j : Json} {fault : CatalogueFault}
    (h : readJson d file = .ok j) (refused : readEpisode d file id = .error fault) :
    fault.isOfData = true := by
  rw [readEpisode] at refused
  obtain unread | ⟨found, -, refused⟩ := bind_error_iff.1 refused
  · rw [h] at unread
    cases unread
  · cases found with
    | object members =>
      dsimp only at refused
      split at refused
      · cases refused
      · cases refused
        rfl
    | _ => cases refused; rfl

theorem reported_readEpisode_iff (id : String) :
    Reported (readEpisode d file id) ↔ Reported (readJson d file) := by
  cases hread : readJson d file with
  | error fault =>
    rw [readEpisode_of_error id hread, reported_error_iff, reported_error_iff]
  | ok j =>
    refine iff_of_true ?_ (.inl ⟨j, rfl⟩)
    cases hepisode : readEpisode d file id with
    | ok e => exact .inl ⟨e, rfl⟩
    | error fault => exact .inr ⟨fault, rfl, isOfData_of_readEpisode id hread hepisode⟩

theorem reported_get_iff (env : Environment) (d : Disk) (c : Catalogue) (id : String) :
    Reported (get env d id c).1 ↔
      (∃ e, c.known.find? id = some e) ∨ Reported (readEpisode d (c.file env id) id) := by
  rw [get]
  cases c.known.find? id with
  | some e => exact iff_of_true (.inl ⟨e, rfl⟩) (.inl ⟨e, rfl⟩)
  | none =>
    cases readEpisode d (c.file env id) id with
    | ok e => exact iff_of_true (.inl ⟨e, rfl⟩) (.inr (.inl ⟨e, rfl⟩))
    | error fault => simp [Reported]

end Catalogue

/-! ## The console -/

namespace Console

/-- What a session does about the episode that was selected. -/
def openEpisode (env : Environment) (catalogue : Catalogue) (directory : Path)
    (settings : Settings) (id : String) : Act Console SessionFault Unit := do
  match (← Act.look fun c => catalogue.get env c.disk id).1 with
  | .ok e => sessionOf env directory settings id e
  | .error fault =>
    if fault.isOfData then
      inSession (printLine ("Unable to load episode: " ++ fault.message))
    else throw (.catalogue fault)

/-- A session ends with what is done about the episode, if there is one to select. -/
theorem session_eq (env : Environment) :
    session env = (do
      let settings ← inSession (loadSettings env none)
      let base ← inSession (Act.known .home (settings.contentDirectory env))
      let directory ← inSession (Act.known .home env.savesDirectory)
      inSession (printLine "=== Taleweave ===")
      let found ← Act.look fun c => (Catalogue.new base).ids env c.disk
      match ← Act.known (fun fault => .console (.file (.disk fault))) found with
      | [] => inSession (printLine "No episodes found.")
      | ids =>
        let id ← inSession (selectEpisode ids (settings.find? "last_episode"))
        openEpisode env (Catalogue.new base) directory settings id) :=
  rfl

section OpenEpisode

variable (env : Environment) (catalogue : Catalogue) (directory : Path) (settings : Settings)
  (id : String) {c : Console}

/-- An episode that is there is gone on with. -/
theorem on_openEpisode_of_ok {e : Episode} (h : (catalogue.get env c.disk id).1 = .ok e) :
    (openEpisode env catalogue directory settings id).on c =
      (sessionOf env directory settings id e).on c := by
  simp only [openEpisode, Act.on_bind, Act.on_look, h]

/-- A fault of the data is told to the player, and the session ends in order. -/
theorem on_openEpisode_of_data {fault : CatalogueFault}
    (h : (catalogue.get env c.disk id).1 = .error fault) (hdata : fault.isOfData = true) :
    (openEpisode env catalogue directory settings id).on c =
      (.ok (), { c with
        output := c.output ++ ("Unable to load episode: " ++ fault.message ++ "\n") }) := by
  simp only [openEpisode, Act.on_bind, Act.on_look, h, hdata, if_true]
  rfl

/-- Any other fault stops the session. -/
theorem on_openEpisode_of_error {fault : CatalogueFault}
    (h : (catalogue.get env c.disk id).1 = .error fault) (hdata : fault.isOfData = false) :
    (openEpisode env catalogue directory settings id).on c = (.error (.catalogue fault), c) := by
  simp only [openEpisode, Act.on_bind, Act.on_look, h, hdata, Bool.false_eq_true, if_false,
    Act.on_throw]

end OpenEpisode

end Console

namespace Catalogue

/-- Just the legible files are reported on.  Whatever there is in the place of the file of an
episode, the episode is there or the data are blamed, unless the file can be read and its bytes
are not legible.  The console then tells the player what is wrong with the data; a file that is
not legible stops it. -/
theorem get_reports_iff_legible (env : Environment) (c : Catalogue) (id : String)
    (plain : '\x00' ∉ id.toList)
    (directory : ∀ part ∈ (c.directory env).parts, '\x00' ∉ part.toList) :
    (∀ d : Disk, Reported (get env d id c).1 ↔ (∃ e, c.known.find? id = some e) ∨
      ∀ bytes, d.readBytes (c.file env id) = .ok bytes → Json.Legible bytes) ∧
    ∀ (saves : Path) (settings : Settings) (console : Console),
      (Reported (get env console.disk id c).1 →
        (∃ e, (get env console.disk id c).1 = .ok e ∧
          (Console.openEpisode env c saves settings id).on console =
            (Console.sessionOf env saves settings id e).on console) ∨
        ∃ fault, (get env console.disk id c).1 = .error fault ∧
          (Console.openEpisode env c saves settings id).on console = (.ok (), { console with
            output := console.output ++
              ("Unable to load episode: " ++ fault.message ++ "\n") })) ∧
      (¬Reported (get env console.disk id c).1 →
        ∃ fault, (get env console.disk id c).1 = .error fault ∧
          (Console.openEpisode env c saves settings id).on console =
            (.error (.catalogue fault), console)) := by
  have hname : '\x00' ∉ (id ++ ".json").toList := by
    rw [String.toList_append, List.mem_append, not_or]
    exact ⟨plain, by decide⟩
  have hfile : '\x00' ∉ (c.file env id).text.toList := Path.nul_not_mem_join directory hname
  constructor
  · intro d
    rw [reported_get_iff, reported_readEpisode_iff]
    refine or_congr_right ?_
    cases h : d.readBytes (c.file env id) with
    | ok bytes => simp [reported_readJson_of_bytes h]
    | error fault => simp [reported_readJson_of_refused hfile h]
  · intro saves settings console
    constructor
    · rintro (⟨e, he⟩ | ⟨fault, hfault, hdata⟩)
      · exact .inl ⟨e, he, Console.on_openEpisode_of_ok env c saves settings id he⟩
      · have hon := Console.on_openEpisode_of_data env c saves settings id hfault hdata
        exact .inr ⟨fault, hfault, hon⟩
    · intro unreported
      cases hget : (get env console.disk id c).1 with
      | ok e => exact absurd (.inl ⟨e, hget⟩) unreported
      | error fault =>
        rw [hget, reported_error_iff, Bool.not_eq_true] at unreported
        have hon := Console.on_openEpisode_of_error env c saves settings id hget unreported
        exact ⟨fault, rfl, hon⟩

/-- A disk with bytes in the file of an episode named mill. -/
def diskWithMill (bytes : List UInt8) : Disk :=
  ⟨[(["eps"], .directory), (["eps", "mill.json"], .file bytes)], []⟩

/-- A document that breaks off is reported. -/
theorem broken_mill_is_reported :
    let env : Environment := ⟨Table.empty, Table.empty, false, Path.ofText "/app"⟩
    let c := Catalogue.new (some (Path.ofText "eps"))
    let bytes := Text.encode "[1"
    '\x00' ∉ "mill".toList ∧ (∀ part ∈ (c.directory env).parts, '\x00' ∉ part.toList) ∧
      (diskWithMill bytes).readBytes (c.file env "mill") = .ok bytes ∧
      Reported (get env (diskWithMill bytes) "mill" c).1 ∧
      (get env (diskWithMill bytes) "mill" c).1 =
        .error (.malformed (c.file env "mill") .comma ⟨1, 3, 2⟩) := by
  intro env c bytes
  have plain : '\x00' ∉ "mill".toList := by decide +kernel
  have directory : ∀ part ∈ (c.directory env).parts, '\x00' ∉ part.toList := by decide +kernel
  have held : (diskWithMill bytes).readBytes (c.file env "mill") = .ok bytes := by decide +kernel
  have short : ¬Json.Overlong "[1" :=
    Json.not_overlong_iff.2 (.inr ⟨.comma, ⟨1, 3, 2⟩, by decide +kernel⟩)
  have legible : Json.Legible bytes := ⟨"[1", by decide +kernel, short⟩
  obtain ⟨reports, -⟩ := get_reports_iff_legible env c "mill" plain directory
  have reported := (reports (diskWithMill bytes)).2 <| .inr fun other hother => by
    rw [held] at hother
    cases hother
    exact legible
  exact ⟨plain, directory, held, reported, by decide +kernel⟩

/-- A stray byte in the document is not reported, nor is a number of too many digits. -/
theorem illegible_mill_is_not_reported :
    let env : Environment := ⟨Table.empty, Table.empty, false, Path.ofText "/app"⟩
    let c := Catalogue.new (some (Path.ofText "eps"))
    let ones := String.ofList (List.replicate 4301 '1')
    (get env (diskWithMill [0xFF]) "mill" c).1 =
        .error (.disk (.encoding ⟨.invalidStart, 0, [0xFF]⟩)) ∧
      ¬Reported (get env (diskWithMill [0xFF]) "mill" c).1 ∧
      ¬Reported (get env (diskWithMill (Text.encode ones)) "mill" c).1 := by
  intro env c ones
  have stopped : (get env (diskWithMill [0xFF]) "mill" c).1 =
      .error (.disk (.encoding ⟨.invalidStart, 0, [0xFF]⟩)) := by decide +kernel
  have hfile : c.file env "mill" = ⟨.here, ["eps", "mill.json"]⟩ := by decide +kernel
  have held : ∀ bytes, (diskWithMill bytes).readBytes (c.file env "mill") = .ok bytes := by
    intro bytes
    rw [hfile]
    rfl
  refine ⟨stopped, ?_, ?_⟩
  · rw [stopped, reported_error_iff]
    decide
  · have long : Numeral.digitLimit < (List.replicate 4301 '1').length := by
      rw [List.length_replicate]
      decide
    have illegible := Json.not_legible_of_whole (Json.whole_ones 4300) long
    have unknown : ¬∃ e, c.known.find? "mill" = some e := by
      rintro ⟨e, he⟩
      cases he
    rw [reported_get_iff, reported_readEpisode_iff, reported_readJson_of_bytes (held _), not_or]
    exact ⟨unknown, illegible⟩

end Catalogue

end Storyline
