import Storyline.Proofs.Disk.Basic
import Storyline.Proofs.Json.Writer
import Storyline.Save.Store

/-!
# Storyline.Proofs.Save.Store

A store *keeps* what is held under a key if reading finds it there, and if a plain
text that was written is held from then on.  Both stores do, the one in memory and
the one in files.  All that the one in memory holds is a table.
-/

namespace Storyline.Save

/-- What a world holds under a key is what a store reads there, and a plain text that
the store has taken is held. -/
structure Store.Keeps {σ ε τ : Type} [Textual τ] (store : Store σ ε τ) (key : String)
    (held : σ → Option τ) : Prop where
  read : ∀ world text, held world = some text →
    ∃ after, (store.read key).on world = (.ok (some text), after) ∧ held after = some text
  write : ∀ world after text, Json.PlainText text →
    (store.write key text).on world = (.ok (), after) → held after = some (ofString text)

variable {τ : Type} [Textual τ]

theorem memoryStore_keeps {ε : Type} (key : String) :
    (memoryStore (ε := ε) τ).Keeps key fun texts => texts.find? key where
  read texts text h := ⟨texts, by rw [memoryStore, Act.on_look, h], h⟩
  write texts after text _ h := by
    rw [memoryStore, Act.on_change] at h
    cases h
    exact texts.find?_insert_self key (ofString text)

/-- A store has its texts in a table if it reads what is there, puts what it takes there, and
changes nothing there in any other way. -/
structure Store.Tabled {σ ε : Type} (store : Store σ ε) (texts : σ → Table String) : Prop where
  read : ∀ key world, ∃ after,
    (store.read key).on world = (.ok ((texts world).find? key), after) ∧ texts after = texts world
  taken : ∀ key text world after, (store.write key text).on world = (.ok (), after) →
    texts after = (texts world).insert key text
  refused : ∀ key text world fault after, (store.write key text).on world = (.error fault, after) →
    texts after = texts world
  note : ∀ n world, texts (store.note n world) = texts world

theorem memoryStore_tabled {ε : Type} : (memoryStore (ε := ε)).Tabled id where
  read key world := ⟨world, rfl, rfl⟩
  taken key text world after h := by
    rw [memoryStore, Act.on_change] at h
    cases h
    rfl
  refused key text world fault after h := by
    rw [memoryStore, Act.on_change] at h
    cases h
  note _ _ := rfl

/-- The text in the file of a key. -/
def fileHeld (base : Path) (key : String) (d : Disk) (τ : Type := String) [Textual τ] :
    Option τ :=
  match readKey base key d τ with
  | .ok text => text
  | .error _ => none

theorem readKey_of_fileHeld {base : Path} {key : String} {text : τ} {d : Disk}
    (h : fileHeld base key d τ = some text) : readKey base key d τ = .ok (some text) := by
  rw [fileHeld] at h
  split at h
  · next text' hread => rw [hread, h]
  · cases h

/-- The directory is made before a key is written. -/
theorem on_write (base : Path) (key text : String) (d : Disk) :
    ((fileStore base).write key text).on d =
      match Disk.ensureDirectory base d with
      | (.ok (), made) => (writeKey base key text).on made
      | (.error fault, made) => (.error (.disk fault), made) := by
  simp only [fileStore, ensureBase, Act.on_bind, Act.on_of]
  cases Disk.ensureDirectory base d with
  | mk answer made => cases answer <;> rfl

section Path

variable {base path : Path} {key : String} (hpath : keyPath base key = .ok path)

include hpath

/-- Reading under a key is reading its file. -/
theorem readKey_eq (d : Disk) : readKey base key d τ =
    match d.readText path with
    | .ok text => .ok (some (ofString text))
    | .error (.refused .notFound _) => .ok none
    | .error fault => .error (.disk fault) := by
  rw [readKey, hpath]
  rfl

/-- Writing under a key is writing its file. -/
theorem on_writeKey (text : String) (d : Disk) : (writeKey base key text).on d =
    match d.writeText path text with
    | .ok after => (.ok (), after)
    | .error fault => (.error (.disk fault), d) := by
  rw [writeKey, Act.on_of]
  split
  · next fault hfault =>
    rw [hpath] at hfault
    cases hfault
  · next file hfile =>
    rw [hpath] at hfile
    cases hfile
    rfl

end Path

/-- What is read from a file is a string. -/
theorem exists_ofString_of_read {base : Path} {key : String} {text : τ} {d after : Disk}
    (h : ((fileStore base τ).read key).on d = (.ok (some text), after)) :
    ∃ s : String, text = ofString s := by
  rw [fileStore, Act.on_of] at h
  obtain ⟨path, -, hfile⟩ := bind_ok_iff.1 (Prod.mk.inj h).1
  split at hfile
  · next s _ =>
    cases hfile
    exact ⟨s, rfl⟩
  · cases hfile
  · cases hfile

theorem readKey_writeKey {base : Path} {key text : String} {d after : Disk}
    (plain : Json.PlainText text) (h : (writeKey base key text).on d = (.ok (), after)) :
    readKey base key after τ = .ok (some (ofString text)) := by
  cases hp : keyPath base key with
  | error fault => rw [writeKey, Act.on_of, hp] at h; cases h
  | ok path =>
    rw [on_writeKey hp] at h
    cases hw : d.writeText path text with
    | error fault => rw [hw] at h; cases h
    | ok written =>
      rw [hw] at h
      cases h
      have hreturn : '\r' ∉ text.toList := fun hc => absurd (plain _ hc) (by decide)
      rw [readKey_eq hp, Disk.readText_writeText hw hreturn]

theorem fileStore_keeps (base : Path) (key : String) :
    (fileStore base τ).Keeps key (fileHeld base key · τ) where
  read d text h := ⟨d, by rw [fileStore, Act.on_of, readKey_of_fileHeld h], h⟩
  write d after text plain h := by
    obtain ⟨-, made, -, hwrite⟩ := Act.ok_of_bind h
    rw [fileHeld, readKey_writeKey plain hwrite]

end Storyline.Save
