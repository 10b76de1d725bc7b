import Storyline.Proofs.Disk.Use
import Storyline.Proofs.Save.Errands
import Storyline.Proofs.Save.History

/-!
# Storyline.Proofs.Save.Keys

What a store of files does with a key.  A text that is not safe to name a file is turned away: no
file is read or written for it, and the key is blamed unless it is to be written and the directory
cannot be made, which is tried first.  A safe text names a file in the directory itself, which is
the only one that is used for it.  No two safe texts share a file, and the keys of slots are safe.
-/

namespace Storyline.Save

/-! ## Safe keys -/

/-- Whether a character is an ASCII letter or digit, an underscore, a dot or a hyphen. -/
def IsSafe (c : Char) : Prop :=
  'A' ≤ c ∧ c ≤ 'Z' ∨ 'a' ≤ c ∧ c ≤ 'z' ∨ '0' ≤ c ∧ c ≤ '9' ∨ c = '_' ∨ c = '.' ∨ c = '-'

/-- Whether a text is safe to name a file: it has characters, and all of them are safe. -/
structure SafeKey (key : String) : Prop where
  ne_empty : key ≠ ""
  safe : ∀ c ∈ key.toList, IsSafe c

theorem isKeyChar_iff {c : Char} : isKeyChar c = true ↔ IsSafe c := by
  have hupper : c.isUpper = true ↔ 'A' ≤ c ∧ c ≤ 'Z' := decide_eq_true_iff
  have hlower : c.isLower = true ↔ 'a' ≤ c ∧ c ≤ 'z' :=
    Bool.and_eq_true_iff.trans (and_congr decide_eq_true_iff decide_eq_true_iff)
  have hdigit : c.isDigit = true ↔ '0' ≤ c ∧ c ≤ '9' :=
    Bool.and_eq_true_iff.trans (and_congr decide_eq_true_iff decide_eq_true_iff)
  have hletter : c.isAlphanum = true ↔
      (c.isUpper = true ∨ c.isLower = true) ∨ c.isDigit = true :=
    Bool.or_eq_true_iff.trans (or_congr Bool.or_eq_true_iff Iff.rfl)
  simp only [isKeyChar, IsSafe, Bool.or_eq_true, decide_eq_true_eq, hletter, hupper, hlower,
    hdigit, or_assoc]

/-- The keys are the texts that are safe. -/
theorem isKey_iff {key : String} : isKey key = true ↔ SafeKey key := by
  have hempty : key.toList = [] ↔ key = "" := String.toList_eq_nil_iff
  simp only [isKey, Bool.and_eq_true, Bool.not_eq_true', List.isEmpty_eq_false_iff, ne_eq, hempty,
    List.all_eq_true, isKeyChar_iff]
  exact ⟨fun h => ⟨h.1, h.2⟩, fun h => ⟨h.ne_empty, h.safe⟩⟩

instance decideSafeKey (key : String) : Decidable (SafeKey key) :=
  decidable_of_iff (isKey key = true) isKey_iff

/-- The keys of slots are safe. -/
theorem safeKey_keyOf (slot : Int) : SafeKey (keyOf slot) := by
  have hfixed : "taleweave-save-".toList.all isKeyChar = true := by decide
  have hdigits : (Nat.toDigits 10 slot.natAbs).all isKeyChar = true := by
    refine List.all_eq_true.2 fun c hc => ?_
    simp only [isKeyChar, Char.isAlphanum, Numeral.isDigit_of_mem hc, Bool.or_true, Bool.true_or]
  refine isKey_iff.1 (Bool.and_eq_true_iff.2 ⟨?_, ?_⟩)
  · rw [toList_keyOf]
    rfl
  · rw [toList_keyOf, List.all_append]
    exact Bool.and_eq_true_iff.2 ⟨hfixed, hdigits⟩

/-! ## The file of a key -/

/-- The place of the file of a key. -/
def placeOfKey (base : Path) (key : String) (d : Disk) : List String :=
  d.placeOf base ++ [key ++ ".json"]

theorem placeOfKey_of_here {d after : Disk} (h : after.here = d.here) (base : Path)
    (key : String) : placeOfKey base key after = placeOfKey base key d := by
  rw [placeOfKey, placeOfKey, Disk.placeOf_of_here h]

theorem on_ensureBase (base : Path) (d : Disk) : (ensureBase base).on d =
    ((Disk.ensureDirectory base d).1.mapError .disk, (Disk.ensureDirectory base d).2) := rfl

theorem here_of_ensureBase {base : Path} {d after : Disk} {answer : Except FileFault Unit}
    (h : (ensureBase base).on d = (answer, after)) : after.here = d.here := by
  have hsame := (Disk.fileAt?_ensureDirectory d base).1
  rw [on_ensureBase] at h
  rwa [(Prod.mk.inj h).2] at hsame

section Safe

variable {base : Path} {key text : String} {d : Disk} (hkey : isKey key = true)

include hkey

theorem keyPath_eq : keyPath base key = .ok ⟨base.root, base.parts ++ [key ++ ".json"]⟩ := by
  rw [keyPath_of_isKey hkey, keyFile, (isName_of_isKey hkey).join]

/-- Where its path leads is in the directory that the path of the directory leads to. -/
theorem locate_keyFile {place : List String} {found : Option DiskEntry}
    (h : d.locate (keyFile base key) = .ok (place, found)) :
    d.locate base = .ok (d.placeOf base, some .directory) ∧ place = placeOfKey base key d := by
  obtain ⟨above, habove, hplace, -⟩ := Disk.locate_of_join (isName_of_isKey hkey) h
  have hbase := Disk.locate_place habove
  rw [hbase] at habove hplace
  exact ⟨habove, hplace⟩

/-- What is fetched is spelled in the file. -/
theorem spelled_of_readKey (h : readKey base key d = .ok (some text)) :
    ∃ bytes spelled, d.fileAt? (placeOfKey base key d) = some bytes ∧
      Text.decode bytes = .ok spelled ∧ text = newlined spelled := by
  rw [readKey_eq (keyPath_of_isKey hkey base)] at h
  cases hbytes : d.readBytes (keyFile base key) with
  | ok bytes =>
    have hfile := Disk.fileAt?_of_readBytes hbytes
    rw [placeOf_keyFile hkey] at hfile
    rw [Disk.readText_of_bytes hbytes] at h
    cases hspelled : Text.decode bytes with
    | ok spelled =>
      rw [hspelled] at h
      cases h
      exact ⟨bytes, spelled, hfile, hspelled, rfl⟩
    | error fault =>
      rw [hspelled] at h
      cases h
  | error fault =>
    rw [Disk.readText_of_refused hbytes] at h
    cases fault with
    | refused problem path => cases problem <;> cases h
    | _ => cases h

/-- What is kept is in the file. -/
theorem fileAt?_of_written {after : Disk}
    (h : ((fileStore base).write key text).on d = (.ok (), after)) :
    after.fileAt? (placeOfKey base key d) = some (Text.encode text) := by
  obtain ⟨_, mid, hmade, hwritten⟩ := Act.ok_of_bind h
  have hmid := here_of_ensureBase hmade
  rw [on_writeKey (keyPath_of_isKey hkey base)] at hwritten
  cases hw : mid.writeText (keyFile base key) text with
  | error fault =>
    rw [hw] at hwritten
    cases hwritten
  | ok last =>
    rw [hw] at hwritten
    cases hwritten
    have hlast := (Disk.fileAt?_writeBytes hw).1
    have hfile := Disk.fileAt?_of_readBytes (Disk.readBytes_writeBytes hw)
    rw [placeOf_keyFile hkey] at hfile
    rw [← placeOfKey_of_here (hlast.trans hmid)]
    exact hfile

end Safe

/-! ## Files that are used -/

section Use

open Disk (UsesOnly)

variable {base : Path} {key text : String}

theorem usesOnly_ensureBase (base : Path) (d : Disk) (files : List (List String)) :
    UsesOnly (ensureBase base) d files where
  spares place _ := (Disk.fileAt?_ensureDirectory d base).2 place
  heeds other alike := by
    obtain ⟨hanswer, hafter⟩ := alike.ensureDirectory base
    rw [on_ensureBase, on_ensureBase, hanswer]
    exact ⟨rfl, hafter⟩

theorem usesOnly_read (hkey : isKey key = true) (d : Disk) :
    UsesOnly ((fileStore base).read key) d [placeOfKey base key d] := by
  refine .look fun other alike => ?_
  have hplace : d.placeOf (keyFile base key) ∈ [placeOfKey base key d] := by
    rw [placeOf_keyFile hkey]
    exact List.mem_singleton_self _
  rw [readKey_eq (keyPath_of_isKey hkey base), readKey_eq (keyPath_of_isKey hkey base),
    alike.readText hplace]

theorem usesOnly_writeKey (hkey : isKey key = true) (d : Disk) :
    UsesOnly (writeKey base key text) d [placeOfKey base key d] := by
  have hpath := keyPath_of_isKey hkey base
  constructor
  · intro place hplace
    rw [on_writeKey hpath]
    cases hw : d.writeText (keyFile base key) text with
    | error fault => rfl
    | ok after =>
      rw [List.mem_singleton, placeOfKey, ← placeOf_keyFile hkey] at hplace
      exact (Disk.fileAt?_writeBytes hw).2 place hplace
  · intro other alike
    rw [on_writeKey hpath, on_writeKey hpath]
    have hw := alike.writeBytes (keyFile base key) (Text.encode text)
    rw [Disk.writeText, Disk.writeText]
    generalize d.writeBytes (keyFile base key) (Text.encode text) = written,
      other.writeBytes (keyFile base key) (Text.encode text) = written' at hw
    cases hw with
    | ok hafter => exact ⟨rfl, hafter⟩
    | error fault => exact ⟨rfl, alike⟩

theorem usesOnly_write (hkey : isKey key = true) (text : String) (d : Disk) :
    UsesOnly ((fileStore base).write key text) d [placeOfKey base key d] := by
  refine (usesOnly_ensureBase base d _).bind fun _ after hmade => ?_
  rw [← placeOfKey_of_here (here_of_ensureBase hmade)]
  exact usesOnly_writeKey hkey after

end Use

/-! ## Keys that are turned away -/

section NoKey

variable {base : Path} {key : String} (hkey : ¬isKey key = true)

include hkey

theorem keyPath_of_not_isKey : keyPath base key = .error (.badKey key) := if_neg hkey

theorem on_read_of_not_isKey (d : Disk) :
    ((fileStore base).read key).on d = (.error (.badKey key), d) := by
  rw [fileStore, Act.on_of, readKey, keyPath_of_not_isKey hkey]
  rfl

theorem writeKey_of_not_isKey (text : String) :
    writeKey base key text = Act.of fun d => (.error (.badKey key), d) := by
  simp only [writeKey, keyPath_of_not_isKey hkey]

/-- The directory is made before the key is turned away. -/
theorem on_write_of_not_isKey (text : String) (d : Disk) :
    ((fileStore base).write key text).on d =
      match Disk.ensureDirectory base d with
      | (.ok (), after) => (.error (.badKey key), after)
      | (.error fault, after) => (.error (.disk fault), after) := by
  rw [on_write, writeKey_of_not_isKey hkey]
  rfl

theorem usesOnly_write_of_not_isKey (text : String) (d : Disk) :
    Disk.UsesOnly ((fileStore base).write key text) d [] := by
  refine (usesOnly_ensureBase base d []).bind fun _ after _ => ?_
  rw [writeKey_of_not_isKey hkey]
  exact .look fun _ _ => rfl

end NoKey

/-! ## Confinement -/

/-- How a text is turned away that is no key. -/
structure TurnedAway (base : Path) (key : String) : Prop where
  /-- The key is blamed when it is to be fetched, and the disk stays as it is. -/
  fetch : ∀ d, ((fileStore base).read key).on d = (.error (.badKey key), d)
  /-- Nothing is kept.  The key is blamed just if the directory is there in the end. -/
  keep : ∀ text d, ∃ fault after,
    ((fileStore base).write key text).on d = (.error fault, after) ∧
      (fault = .badKey key ↔ ∃ place, after.locate base = .ok (place, some .directory))
  /-- If it is there from the start, the disk stays as it is. -/
  there : ∀ text d place, d.locate base = .ok (place, some .directory) →
    ((fileStore base).write key text).on d = (.error (.badKey key), d)
  /-- No file is read or written. -/
  untouched : ∀ text d, Disk.UsesOnly ((fileStore base).write key text) d []

/-- How a key is served: by one file, a child of the directory. -/
structure Confined (base : Path) (key : String) : Prop where
  /-- The file has a name of its own, neither a dot nor two, and without slashes. -/
  named : Path.IsName (key ++ ".json")
  /-- Its path is that of the directory with this name. -/
  path : keyPath base key = .ok ⟨base.root, base.parts ++ [key ++ ".json"]⟩
  /-- Where the path leads is in the directory itself. -/
  child : ∀ file d place found, keyPath base key = .ok file → d.locate file = .ok (place, found) →
    d.locate base = .ok (d.placeOf base, some .directory) ∧ place = placeOfKey base key d
  /-- No other file is read or written. -/
  fetch : ∀ d, Disk.UsesOnly ((fileStore base).read key) d [placeOfKey base key d]
  keep : ∀ text d, Disk.UsesOnly ((fileStore base).write key text) d [placeOfKey base key d]
  /-- What is fetched comes from this file. -/
  fetched : ∀ text d after, ((fileStore base).read key).on d = (.ok (some text), after) →
    ∃ bytes spelled, d.fileAt? (placeOfKey base key d) = some bytes ∧
      Text.decode bytes = .ok spelled ∧ text = newlined spelled
  /-- What is kept goes to this file. -/
  kept : ∀ text d after, ((fileStore base).write key text).on d = (.ok (), after) →
    after.fileAt? (placeOfKey base key d) = some (Text.encode text)

theorem turnedAway_of_not_safe {key : String} (h : ¬SafeKey key) (base : Path) :
    TurnedAway base key := by
  rw [← isKey_iff] at h
  refine ⟨on_read_of_not_isKey h, fun text d => ?_, fun text d place there => ?_,
    usesOnly_write_of_not_isKey h⟩
  · have hmade := Disk.ensureDirectory_ok_iff (p := base) (d := d)
    rw [on_write_of_not_isKey h]
    cases hensured : Disk.ensureDirectory base d with
    | mk answer after =>
      rw [hensured] at hmade
      cases answer with
      | ok _ => exact ⟨_, after, rfl, iff_of_true rfl (hmade.1 rfl)⟩
      | error fault =>
        exact ⟨_, after, rfl, iff_of_false (fun heq => by cases heq)
          fun hthere => by cases hmade.2 hthere⟩
  · rw [on_write_of_not_isKey h, Disk.ensureDirectory_of_directory there]

theorem confined_of_safe {key : String} (h : SafeKey key) (base : Path) : Confined base key := by
  have hkey := isKey_iff.2 h
  refine ⟨isName_of_isKey hkey, keyPath_eq hkey, fun file d place found hfile hlocate => ?_,
    usesOnly_read hkey, usesOnly_write hkey, fun text d after hread => ?_,
    fun _ _ _ => fileAt?_of_written hkey⟩
  · rw [keyPath_of_isKey hkey] at hfile
    cases hfile
    exact locate_keyFile hkey hlocate
  · rw [fileStore, Act.on_of] at hread
    exact spelled_of_readKey hkey (Prod.mk.inj hread).1

/-- Whatever the directory of a store of files:

* A text that is no key is turned away, and no file is read or written for it.  When it is to be
  fetched the key is blamed.  When a text is to be kept under it the key is blamed just if the
  directory is there in the end: the directory is made first, and if that is refused, so is the
  text, for that reason.
* For a key one file is used, a child of the directory with a name of its own.
* No two keys use one file.
* The key of each slot is a key, and no two slots have one key or one file. -/
theorem keys_confined_blamed_iff_made (base : Path) :
    (∀ key, ¬SafeKey key → TurnedAway base key) ∧
      (∀ key, SafeKey key → Confined base key) ∧
      (∀ key other, SafeKey key → SafeKey other → key ≠ other →
        ∀ d, placeOfKey base key d ≠ placeOfKey base other d) ∧
      ∀ slot, IsSlot slot →
        slotKey (ε := FileFault) slot = .ok (keyOf slot) ∧ SafeKey (keyOf slot) ∧
          ∀ other, IsSlot other → slot ≠ other → keyOf slot ≠ keyOf other ∧
            ∀ d, placeOfKey base (keyOf slot) d ≠ placeOfKey base (keyOf other) d := by
  refine ⟨fun _ hkey => turnedAway_of_not_safe hkey base, fun _ hkey => confined_of_safe hkey base,
    fun _ _ _ _ hne _ => keyPlace_ne hne, fun slot isSlot => ?_⟩
  refine ⟨slotKey_ok_iff.2 ⟨isSlot, rfl⟩, safeKey_keyOf slot, fun other isOther hne => ?_⟩
  have hkeys : keyOf slot ≠ keyOf other := mt (keyOf_inj isSlot.1 isOther.1) hne
  exact ⟨hkeys, fun _ => keyPlace_ne hkeys⟩

/-- Two dots are a key and lead to a file in the directory; neither a path nor a key with a
newline is one. -/
theorem dots_stay_in_saves :
    let base := Path.ofText "saves"
    let d : Disk := ⟨[(["saves"], .directory)], []⟩
    let kept : Disk :=
      ⟨[(["saves", "...json"], .file (Text.encode "low")), (["saves"], .directory)], []⟩
    ¬SafeKey "../tide" ∧ ¬SafeKey "tide\n" ∧ SafeKey ".." ∧ SafeKey "-" ∧ IsSlot 0 ∧ IsSlot 10 ∧
      ((fileStore base).write "../tide" "low").on d = (.error (.badKey "../tide"), d) ∧
      ((fileStore base).read "tide\n").on d = (.error (.badKey "tide\n"), d) ∧
      ((fileStore base).write ".." "low").on d = (.ok (), kept) ∧
      kept.fileAt? ["saves", "...json"] = some (Text.encode "low") ∧
      placeOfKey base ".." d ≠ placeOfKey base "-" d ∧
      slotKey (ε := FileFault) 10 = .ok "taleweave-save-10" ∧ keyOf 0 ≠ keyOf 10 := by
  intro base d kept
  have path : ¬SafeKey "../tide" := by decide +kernel
  have line : ¬SafeKey "tide\n" := by decide +kernel
  have dots : SafeKey ".." := by decide +kernel
  have hyphen : SafeKey "-" := by decide +kernel
  have first : IsSlot 0 := by decide +kernel
  have tenth : IsSlot 10 := by decide +kernel
  have there : d.locate base = .ok (["saves"], some .directory) := by decide +kernel
  have written : ((fileStore base).write ".." "low").on d = (.ok (), kept) := by decide +kernel
  obtain ⟨turnedAway, confined, apart, slots⟩ := keys_confined_blamed_iff_made base
  obtain ⟨hten, -, differ⟩ := slots 10 tenth
  exact ⟨path, line, dots, hyphen, first, tenth, (turnedAway _ path).there _ d _ there,
    (turnedAway _ line).fetch d, written, (confined _ dots).kept _ d _ written,
    apart _ _ dots hyphen (by decide) d, hten, (differ 0 first (by decide)).1.symm⟩

/-- If a file is where the directory should be, the file is blamed for a text that is to be kept,
and not the key, which is blamed when it is fetched. -/
theorem file_in_the_way_is_blamed :
    let base := Path.ofText "saves"
    let d : Disk := ⟨[(["saves"], .file (Text.encode "ashes"))], []⟩
    ¬SafeKey "../escape" ∧
      ((fileStore base).read "../escape").on d = (.error (.badKey "../escape"), d) ∧
      ((fileStore base).write "../escape" "low").on d =
        (.error (.disk (.refused .exists base)), d) ∧
      (((fileStore base).write "../escape" "low").on d).1 ≠ .error (.badKey "../escape") := by
  decide +kernel

end Storyline.Save
