import Storyline.Console.Session
import Storyline.Proofs.Json.Overlong
import Storyline.Proofs.Save.Gateway

/-!
# Storyline.Proofs.Save.Content

What loading makes of whatever stands in a slot.  A content is *judged* if it is loaded as a
record or refused as none.  Two things keep a content from being judged: bytes that spell no
text, and a whole number of too many digits.  The console leaves a content that is refused aside
and goes on to its menu, but it is stopped by one that is not judged.
-/

namespace Storyline

namespace Save

/-! ## Reading -/

namespace Record

variable {fields : Table Json} {fault : NumberFault}

/-- A version that can be written can be shown where it is refused. -/
theorem versionField_ne_number (writable : fields.Holds Json.Writable) :
    versionField fields ≠ .error (.number fault) := by
  intro h
  have hfound : ((fields.find? (ofString "version")).getD .null).Writable := by
    rw [ofString_string]
    cases hf : fields.find? "version" with
    | none => exact ⟨_, rfl⟩
    | some found => exact writable "version" found hf
  obtain ⟨shown, hshown⟩ := hfound.shown
  simp only [versionField, hshown] at h
  split at h <;> cases h

theorem stringField_ne_number (name : String) :
    stringField fields name ≠ .error (.number fault) := by
  intro h
  rw [stringField] at h
  split at h <;> cases h

theorem resourcesField_ne_number : resourcesField fields ≠ .error (.number fault) := by
  intro h
  rw [resourcesField] at h
  split at h
  · cases h
  · cases h
  · rw [ofMembers] at h
    split at h <;> cases h
  · cases h

/-- A value that can be written is a record, or is none for what it is. -/
theorem ofJson_ne_number {j : Json} (writable : j.Writable) :
    ofJson j ≠ .error (.number fault) := by
  intro h
  cases j with
  | object members =>
    have hfields := Table.holds_ofList (Json.writable_object.1 writable)
    obtain h | ⟨_, -, h⟩ := bind_error_iff.1 h
    · exact versionField_ne_number hfields h
    obtain h | ⟨_, -, h⟩ := bind_error_iff.1 h
    · exact stringField_ne_number _ h
    obtain h | ⟨_, -, h⟩ := bind_error_iff.1 h
    · exact stringField_ne_number _ h
    obtain h | ⟨_, -, h⟩ := bind_error_iff.1 h
    · exact resourcesField_ne_number h
    · cases h
  | _ => cases h

end Record

variable {σ ε : Type}

/-- Whether a fault lies with what stands in a slot. -/
def GatewayFault.ofContent : GatewayFault ε → Bool
  | .notJson _ | .record _ => true
  | _ => false

/-- A text that is not overlong is a record or is refused as none. -/
theorem readRecord_of_not_overlong {text : String} (h : ¬Json.Overlong text) (slot : Int) :
    (∃ record, readRecord (ε := ε) slot text = .ok record) ∨
      ∃ fault, readRecord (ε := ε) slot text = .error fault ∧ fault.ofContent = true := by
  obtain ⟨j, hread⟩ | ⟨problem, place, hread⟩ := Json.not_overlong_iff.1 h
  · cases hrecord : Record.ofJson j with
    | ok record => exact .inl ⟨record, by simp only [readRecord, hread, hrecord]⟩
    | error fault =>
      cases fault with
      | record fault =>
        exact .inr ⟨.record fault, by simp only [readRecord, hread, hrecord], rfl⟩
      | number fault =>
        exact absurd hrecord (Record.ofJson_ne_number (Json.writable_read hread))
  · exact .inr ⟨.notJson slot, by simp only [readRecord, hread], rfl⟩

theorem readRecord_of_overlong {text : String} (h : Json.Overlong text) (slot : Int) :
    ∃ fault, readRecord (ε := ε) slot text = .error (.number fault) := by
  obtain ⟨fault, hread⟩ := h
  exact ⟨fault, by rw [readRecord, hread]⟩

/-! ## Loading -/

/-- Whether what stands in a slot is judged: it is loaded as a record, or refused as none. -/
def Judged (answer : Except (GatewayFault ε) (Option Record)) : Prop :=
  (∃ record, answer = .ok (some record)) ∨
    ∃ fault, answer = .error fault ∧ fault.ofContent = true

theorem not_judged_of_error {fault : GatewayFault ε} (h : fault.ofContent = false) :
    ¬Judged (.error fault) := by
  rintro (⟨record, hrecord⟩ | ⟨other, hother, hcontent⟩)
  · cases hrecord
  · cases hother
    rw [h] at hcontent
    cases hcontent

section Slot

variable {store : Store σ ε} {slot : Int} {key : String} {g : Gateway σ} {after : σ}

/-- A text in a slot is judged unless it is overlong. -/
theorem judged_load_iff (hkey : slotKey (ε := ε) slot = .ok key) {text : String}
    (found : (store.read key).on g.world = (.ok (some text), after)) :
    Judged ((Gateway.load store slot).on g).1 ↔ ¬Json.Overlong text := by
  rw [Gateway.on_load_found hkey found]
  constructor
  · intro judged overlong
    obtain ⟨fault, hread⟩ := readRecord_of_overlong (ε := ε) overlong slot
    rw [hread] at judged
    exact not_judged_of_error rfl judged
  · intro short
    obtain ⟨record, hread⟩ | ⟨fault, hread, hcontent⟩ :=
      readRecord_of_not_overlong (ε := ε) short slot
    · rw [hread]
      exact .inl ⟨record, rfl⟩
    · rw [hread]
      exact .inr ⟨fault, rfl, hcontent⟩

end Slot

/-! ## Files -/

/-- The file of the slot that runs are saved in. -/
def slotFile (base : Path) : Path := base.join (autoKey ++ ".json")

theorem keyPath_autoKey (base : Path) : keyPath base autoKey = .ok (slotFile base) := by
  rw [keyPath, if_pos (by decide +kernel)]
  rfl

section File

variable {base : Path} {d : Disk} {bytes : List UInt8} (h : d.readBytes (slotFile base) = .ok bytes)

include h

theorem readKey_of_bytes {text : String} (decoded : Text.decode bytes = .ok text) :
    readKey base autoKey d = .ok (some (String.ofList (Text.unifyLineEnds text.toList))) := by
  rw [readKey_eq (keyPath_autoKey base), Disk.readText_of_bytes h, decoded]
  rfl

theorem readKey_of_undecoded {fault : Text.EncodingFault}
    (undecoded : Text.decode bytes = .error fault) :
    readKey base autoKey d = .error (.disk (.encoding fault)) := by
  rw [readKey_eq (keyPath_autoKey base), Disk.readText_of_bytes h, undecoded]

/-- Bytes in the file of the slot are judged just if they are legible. -/
theorem judged_load_file_iff (last : Option Record) :
    Judged ((Gateway.load (fileStore base) 0).on ⟨last, d⟩).1 ↔ Json.Legible bytes := by
  cases decoded : Text.decode bytes with
  | ok text =>
    have found : ((fileStore base).read autoKey).on d =
        (.ok (some (String.ofList (Text.unifyLineEnds text.toList))), d) := by
      rw [fileStore, Act.on_of, readKey_of_bytes h decoded]
    rw [judged_load_iff slotKey_zero found, Json.legible_iff decoded]
  | error fault =>
    have stopped : ((fileStore base).read autoKey).on d =
        (.error (.disk (.encoding fault)), d) := by
      rw [fileStore, Act.on_of, readKey_of_undecoded h decoded]
    rw [Gateway.on_load_stopped slotKey_zero stopped]
    exact iff_of_false (not_judged_of_error rfl) (Json.not_legible_of_error decoded)

end File

end Save

/-! ## The console -/

namespace Console

open Save (Judged autoKey slotFile slotKey_zero readKey_of_bytes readKey_of_undecoded)

section Resumable

variable {directory : Path} {c : Console} {bytes : List UInt8}

theorem on_store_read (key : String) :
    ((store directory).read key).on c =
      ((Save.readKey directory key c.disk).mapError ConsoleFault.file, c) := by
  simp only [store, onDisk, Save.fileStore, Act.on_within, Act.on_of]
  cases Save.readKey directory key c.disk <;> rfl

variable (h : c.disk.readBytes (slotFile directory) = .ok bytes)

include h

theorem on_store_read_of_bytes {text : String} (decoded : Text.decode bytes = .ok text) :
    ((store directory).read autoKey).on c =
      (.ok (some (String.ofList (Text.unifyLineEnds text.toList))), c) := by
  rw [on_store_read, readKey_of_bytes h decoded]
  rfl

theorem on_store_read_of_undecoded {fault : Text.EncodingFault}
    (undecoded : Text.decode bytes = .error fault) :
    ((store directory).read autoKey).on c = (.error (.file (.disk (.encoding fault))), c) := by
  rw [on_store_read, readKey_of_undecoded h undecoded]
  rfl

/-- From a content that is judged the console takes a record or none, and only takes notes. -/
theorem on_resumable_of_legible (legible : Json.Legible bytes) (e : Episode) :
    ∃ saved notes, (resumable directory e).on c = (.ok saved, { c with notes }) := by
  obtain ⟨text, decoded, short⟩ := legible
  have found := on_store_read_of_bytes h decoded
  have hload := Save.Gateway.on_loadFor_found slotKey_zero (g := ⟨none, c⟩) found e.id
  obtain ⟨record, hread⟩ | ⟨fault, hread, hcontent⟩ :=
    Save.readRecord_of_not_overlong (ε := ConsoleFault) short 0
  · rw [hread] at hload
    by_cases own : record.episode = e.id
    · simp only [resumable, Act.on_of, hload, if_pos own]
      exact ⟨_, _ :: c.notes, rfl⟩
    · simp only [resumable, Act.on_of, hload, if_neg own]
      exact ⟨none, _ :: _ :: c.notes, rfl⟩
  · rw [hread] at hload
    simp only [resumable, Act.on_of, hload]
    cases fault with
    | notJson slot => exact ⟨none, _ :: c.notes, rfl⟩
    | record fault => exact ⟨none, _ :: c.notes, rfl⟩
    | _ => cases hcontent

/-- A content that is not judged stops the console where it stands. -/
theorem on_resumable_of_not_legible (illegible : ¬Json.Legible bytes) (e : Episode) :
    ∃ fault, fault.ofContent = false ∧
      (resumable directory e).on c = (.error (.gateway fault), c) := by
  cases decoded : Text.decode bytes with
  | error fault =>
    have stopped := on_store_read_of_undecoded h decoded
    have hload := Save.Gateway.on_load_stopped slotKey_zero (g := ⟨none, c⟩) stopped
    refine ⟨.store (.file (.disk (.encoding fault))), rfl, ?_⟩
    simp only [resumable, Act.on_of, Save.Gateway.loadFor, Act.on_bind, hload]
  | ok text =>
    rw [Json.legible_iff decoded, not_not] at illegible
    obtain ⟨fault, hread⟩ := Save.readRecord_of_overlong (ε := ConsoleFault) illegible 0
    have found := on_store_read_of_bytes h decoded
    have hload := Save.Gateway.on_loadFor_found slotKey_zero (g := ⟨none, c⟩) found e.id
    refine ⟨.number fault, rfl, ?_⟩
    rw [hread] at hload
    simp only [resumable, Act.on_of, hload]

end Resumable

section MainMenu

variable (env : Environment) (directory : Path) (e : Episode) (times : Nat)
  (settings : RawSettings) {c now : Console}

/-- What the main menu does once an action is picked, if it is known which run can go on. -/
def carryOut (saved : Option Save.Record) : MenuAction → Act Console SessionFault Unit
  | .quit => pure ()
  | .options => do
    let settings ← inSession (optionsMenu env settings)
    mainMenu env directory e times settings
  | .resume => do
    playEpisode env directory e settings saved
    mainMenu env directory e times settings
  | .newGame => do
    playEpisode env directory e settings none
    mainMenu env directory e times settings

/-- Once it is known which run can go on, the menu is shown, an action is asked for, and it is
carried out. -/
theorem on_mainMenu_of_ok {saved : Option Save.Record}
    (h : (resumable directory e).on c = (.ok saved, now)) :
    (mainMenu env directory e (times + 1) settings).on c =
      (inSession (askAction e saved.isSome) >>=
        carryOut env directory e times settings saved).on now := by
  rw [mainMenu, Act.on_bind, h]
  dsimp only
  rw [Act.on_bind, Act.on_bind]
  cases (inSession (askAction e saved.isSome)).on now with
  | mk answer after =>
    cases answer with
    | error fault => rfl
    | ok action => cases action <;> rfl

theorem on_mainMenu_of_error {fault : SessionFault}
    (h : (resumable directory e).on c = (.error fault, now)) :
    (mainMenu env directory e (times + 1) settings).on c = (.error fault, now) := by
  rw [mainMenu, Act.on_bind, h]

end MainMenu

end Console

namespace Save

variable {ε : Type}

/-- Just the legible contents of a slot are judged, whether they stand in memory or in a file.
With these the console takes a record or none, taking no more than notes, and shows its main
menu; any other content stops it.  Bytes are legible at least if they spell a text without a
row of too many digits. -/
theorem content_judged_iff_legible :
    (∀ (texts : Table String) (last : Option Record) (text : String),
      texts.find? autoKey = some text →
        (Judged ((Gateway.load (memoryStore (ε := ε)) 0).on ⟨last, texts⟩).1 ↔
          ¬Json.Overlong text)) ∧
    (∀ (base : Path) (d : Disk) (last : Option Record) (bytes : List UInt8),
      d.readBytes (slotFile base) = .ok bytes →
        (Judged ((Gateway.load (fileStore base) 0).on ⟨last, d⟩).1 ↔ Json.Legible bytes)) ∧
    (∀ (env : Environment) (directory : Path) (e : Episode) (times : Nat)
      (settings : RawSettings) (c : Console) (bytes : List UInt8),
      c.disk.readBytes (slotFile directory) = .ok bytes →
        (Json.Legible bytes → ∃ saved notes,
          (Console.resumable directory e).on c = (.ok saved, { c with notes }) ∧
            (Console.mainMenu env directory e (times + 1) settings).on c =
              (Console.inSession (Console.askAction e saved.isSome) >>=
                Console.carryOut env directory e times settings saved).on { c with notes }) ∧
        (¬Json.Legible bytes → ∃ fault, fault.ofContent = false ∧
          (Console.resumable directory e).on c = (.error (.gateway fault), c) ∧
            (Console.mainMenu env directory e (times + 1) settings).on c =
              (.error (.gateway fault), c))) ∧
    (∀ text, Json.Overlong text → Json.LongRun text.toList) ∧
    ∀ bytes text, Text.decode bytes = .ok text → ¬Json.LongRun text.toList →
      Json.Legible bytes := by
  refine ⟨?_, ?_, ?_, fun text => Json.Overlong.longRun, fun bytes text =>
    Json.legible_of_not_longRun⟩
  · intro texts last text held
    have found : ((memoryStore (ε := ε)).read autoKey).on texts = (.ok (some text), texts) := by
      rw [memoryStore, Act.on_look, held]
    exact judged_load_iff slotKey_zero found
  · intro base d last bytes held
    exact judged_load_file_iff held last
  · intro env directory e times settings c bytes held
    constructor
    · intro legible
      obtain ⟨saved, notes, hsaved⟩ := Console.on_resumable_of_legible held legible e
      have hmenu := Console.on_mainMenu_of_ok env directory e times settings hsaved
      exact ⟨saved, notes, hsaved, hmenu⟩
    · intro illegible
      obtain ⟨fault, hcontent, hstop⟩ := Console.on_resumable_of_not_legible held illegible e
      exact ⟨fault, hcontent, hstop,
        Console.on_mainMenu_of_error env directory e times settings hstop⟩

/-- A console whose disk has bytes in the file of the slot. -/
def consoleWithSave (bytes : List UInt8) : Console where
  input := ["3"]
  output := ""
  notes := []
  disk := ⟨[(["saves"], .directory), (["saves", "taleweave-save-0.json"], .file bytes)], []⟩

/-- A house with nothing to do in it. -/
def house : Episode := ⟨"house", "The house", "door", Table.ofList [("door", .ending none none)]⟩

/-- An empty list in the slot is no record, but it is refused as none, and the console goes
on. -/
theorem list_in_slot_is_judged :
    let base := Path.ofText "saves"
    let bytes := Text.encode "[]"
    let c := consoleWithSave bytes
    let env : Environment := ⟨Table.empty, Table.empty, false, Path.ofText "/app"⟩
    c.disk.readBytes (slotFile base) = .ok bytes ∧ Json.Legible bytes ∧
      Judged ((Gateway.load (fileStore base) 0).on ⟨none, c.disk⟩).1 ∧
      ((Gateway.load (fileStore base) 0).on ⟨none, c.disk⟩).1 = .error (.record .shape) ∧
      ∃ saved notes,
        (Console.resumable base house).on c = (.ok saved, { c with notes }) ∧
          (Console.mainMenu env base house 1 Table.empty).on c =
            (Console.inSession (Console.askAction house saved.isSome) >>=
              Console.carryOut env base house 0 Table.empty saved).on { c with notes } := by
  intro base bytes c env
  have held : c.disk.readBytes (slotFile base) = .ok bytes := by decide +kernel
  have decoded : Text.decode bytes = .ok "[]" := by decide +kernel
  have short : ¬Json.Overlong "[]" :=
    Json.not_overlong_iff.2 (.inl ⟨.array [], by decide +kernel⟩)
  have legible : Json.Legible bytes := ⟨"[]", decoded, short⟩
  have refused : ((Gateway.load (fileStore base) 0).on ⟨none, c.disk⟩).1 =
      .error (.record .shape) := by decide +kernel
  obtain ⟨-, file, console, -⟩ := content_judged_iff_legible (ε := Empty)
  have judged := (file base c.disk none bytes held).2 legible
  have goes := (console env base house 0 Table.empty c bytes held).1 legible
  exact ⟨held, legible, judged, refused, goes⟩

/-- A stray byte in the slot stops the console, and so would a number of too many digits. -/
theorem stray_byte_stops_console :
    let base := Path.ofText "saves"
    let c := consoleWithSave [0xFF]
    let env : Environment := ⟨Table.empty, Table.empty, false, Path.ofText "/app"⟩
    let stop : FileFault := .disk (.encoding ⟨.invalidStart, 0, [0xFF]⟩)
    let ones := String.ofList (List.replicate 4301 '1')
    ((Gateway.load (fileStore base) 0).on ⟨none, c.disk⟩).1 = .error (.store stop) ∧
      ¬Judged ((Gateway.load (fileStore base) 0).on ⟨none, c.disk⟩).1 ∧
      ((Console.mainMenu env base house 1 Table.empty).on c).1 =
        .error (.gateway (.store (.file stop))) ∧
      ¬Judged ((Gateway.load (memoryStore (ε := Empty)) 0).on
        ⟨none, Table.ofList [(autoKey, ones)]⟩).1 := by
  intro base c env stop ones
  have stopped : ((Gateway.load (fileStore base) 0).on ⟨none, c.disk⟩).1 =
      .error (.store stop) := by decide +kernel
  have menu : ((Console.mainMenu env base house 1 Table.empty).on c).1 =
      .error (.gateway (.store (.file stop))) := by decide +kernel
  have overlong : Json.Overlong ones :=
    Json.overlong_of_whole (Json.whole_ones 4300) (by rw [List.length_replicate]; decide)
  have found : ((memoryStore (ε := Empty)).read autoKey).on (Table.ofList [(autoKey, ones)]) =
      (.ok (some ones), Table.ofList [(autoKey, ones)]) := by
    rw [memoryStore, Act.on_look]
    rfl
  refine ⟨stopped, ?_, menu, ?_⟩
  · rw [stopped]
    exact not_judged_of_error rfl
  · rw [judged_load_iff slotKey_zero found]
    exact not_not.2 overlong

end Save

end Storyline
