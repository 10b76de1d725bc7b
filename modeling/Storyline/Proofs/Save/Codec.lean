import Storyline.Json.Compare
import Storyline.Proofs.Json.Writable
import Storyline.Proofs.Save.Gateway

/-!
# Storyline.Proofs.Save.Codec

Saving and loading as a codec.  A record whose whole numbers are short enough is stored as a
text that depends on the record alone, and if the record is joined, it is loaded as it was
saved, and no other joined record has its text.  A text that was made elsewhere is brought into
that form by loading and saving once, and saving again changes nothing more, as long as what is
loaded is joined.  It is, if the text holds no halves; a file holds none.

What is not joined cannot come back, for the escapes of two halves side by side are those of the
character that they make up.

Records are compared with their resources as mappings, but value by value: a whole number is
never a double, and what is no number is itself.
-/

namespace Storyline

variable {τ : Type}

/-- Whether a value is a text, a double, or a whole number that is short enough. -/
def Value.Short : Value τ → Prop
  | .number (.int n) => (Nat.toDigits 10 n.natAbs).length ≤ Numeral.digitLimit
  | _ => True

variable [Textual τ]

theorem Value.short_iff {v : Value τ} : v.Short ↔ v.toJson.Writable := by
  cases v with
  | text s => exact ⟨fun _ => Json.writable_string s, fun _ => trivial⟩
  | number a =>
    rw [Value.toJson, Json.writable_number]
    cases a with
    | real x => exact ⟨fun _ _ h => (by cases h), fun _ => trivial⟩
    | int n =>
      have hlength : (Nat.toDigits 10 n.natAbs).length ≤ Numeral.digitLimit ↔
          n.natAbs < Numeral.firstUnwritable := length_toDigits_le_iff (by decide)
      constructor
      · intro h m hm
        cases hm
        exact hlength.1 h
      · intro h
        exact hlength.2 (h n rfl)

namespace Save

variable {σ ε : Type} [DecidableEq τ]

namespace Record

omit [Textual τ] in
/-- Whether a record can be stored: its resources are amounts and texts, and no whole number
among them is too long. -/
def Storable (r : Record τ) : Prop :=
  r.resources.Holds fun json => ∃ v : Value τ, json = v.toJson ∧ v.Short

theorem storable_iff {r : Record τ} :
    r.Storable ↔ r.resources.Typed ∧ r.resources.Holds Json.Writable := by
  constructor
  · intro h
    constructor
    · intro name json hf
      obtain ⟨v, rfl, -⟩ := h name json hf
      exact v.isValue_toJson
    · intro name json hf
      obtain ⟨v, rfl, hshort⟩ := h name json hf
      exact Value.short_iff.1 hshort
  · rintro ⟨typed, writable⟩ name json hf
    obtain ⟨v, rfl⟩ := Resources.isValue_iff.1 (typed name json hf)
    exact ⟨v, rfl, Value.short_iff.2 (writable name _ hf)⟩

omit [Textual τ] in
theorem Same.storable {r s : Record τ} (h : r.Same s) (storable : s.Storable) : r.Storable :=
  h.resources.symm.holds storable

omit [DecidableEq τ] in
theorem writable_version (version : Version) : (version.toJson : Json τ).Writable := by
  cases version with
  | whole =>
    have hone : 1 < Numeral.firstUnwritable :=
      Nat.lt_of_lt_of_le (show 1 < tenTo 1 by decide) (tenTo_le (by decide))
    exact Json.writable_number.2 fun n hn => by cases hn; exact hone
  | _ => exact ⟨_, rfl⟩

/-- A record has a text just if its resources can be written. -/
theorem exists_text_iff {r : Record τ} :
    (∃ text, r.text = .ok text) ↔ r.resources.Holds Json.Writable := by
  have hpayload : (∀ e ∈ r.payload, e.2.Writable) ↔ r.resources.toJson.Writable := by
    simp [payload, Json.writable_string, writable_version]
  rw [Resources.toJson, Json.writable_object, ← Table.holds_iff] at hpayload
  rw [← hpayload, ← Json.writable_object]
  constructor
  · rintro ⟨text, h⟩
    obtain ⟨cs, hcs, -⟩ := map_ok_iff.1 h
    exact ⟨cs, hcs⟩
  · exact Json.Writable.write

omit [DecidableEq τ] in
/-- Only a whole number that is too long keeps a record from having a text. -/
theorem text_fault {r : Record τ} {fault : NumberFault} (h : r.text = .error fault) :
    fault = .unwritable :=
  Json.writeChars_fault (map_error_iff.1 h)

/-- A record that can be stored has a text. -/
theorem Storable.text {r : Record τ} (h : r.Storable) : ∃ text, r.text = .ok text :=
  exists_text_iff.2 (storable_iff.1 h).2

/-! ## What is read -/

/-- What is read from a value that can be written can be stored. -/
theorem storable_of_ofJson {j : Json τ} {record : Record τ} (writable : j.Writable)
    (h : ofJson j = .ok record) : record.Storable := by
  cases j with
  | object members =>
    obtain ⟨-, -, -, hresources⟩ := ofJson_object_ok_iff.1 h
    obtain ⟨-, hempty⟩ | ⟨held, hfound, hheld, typed⟩ := resourcesField_ok_iff.1 hresources
    · rw [Storable, hempty]
      exact fun _ _ h => by cases h
    · have hall := Table.holds_ofList (Json.writable_object.1 writable)
      have hwritable : Json.Writable (.object held) := hall _ _ hfound
      rw [storable_iff, hheld]
      exact ⟨typed, Table.holds_ofList (Json.writable_object.1 hwritable)⟩
  | _ => cases h

/-- What is read from a value that is well formed is joined. -/
theorem joined_of_ofJson {j : Json τ} {record : Record τ} (formed : j.WellFormed)
    (h : ofJson j = .ok record) : record.Joined := by
  cases j with
  | object members =>
    obtain ⟨-, hepisode, hnode, hresources⟩ := ofJson_object_ok_iff.1 h
    have hfield : ∀ {name found}, (Table.ofList members).find? name = some found →
        found.WellFormed := by
      intro name found hfound
      rw [Table.find?_ofList formed.distinct] at hfound
      exact formed.lookup hfound
    have hstring : ∀ {name s}, stringField (Table.ofList members) name = .ok s →
        (wide s).Joined := by
      intro name s hs
      cases hfield (stringField_ok_iff.1 hs) with
      | string joined => exact joined
    obtain ⟨-, hempty⟩ | ⟨held, hfound, hheld, -⟩ := resourcesField_ok_iff.1 hresources
    · refine ⟨hstring hepisode, hstring hnode, ?_, ?_⟩
      · rw [hempty]
        exact fun _ h => by cases h
      · rw [hempty]
        exact fun _ _ h => by cases h
    · cases hfield hfound with
      | object distinct joined each =>
        have hentries : record.resources.entries = held := by
          rw [hheld, Table.entries_ofList distinct]
        refine ⟨hstring hepisode, hstring hnode, ?_, ?_⟩
        · intro name hname
          obtain ⟨e, he, rfl⟩ := List.mem_map.1 hname
          exact joined e (hentries ▸ he)
        · intro name s hs
          cases each _ (hentries ▸ Table.find?_eq_some_iff.1 hs) with
          | string joined => exact joined
  | _ => cases h

end Record

/-- What is read from a text is what the JSON value in it is read as. -/
theorem exists_json_of_readRecord {slot : Int} {text : τ} {record : Record τ}
    (h : readRecord (ε := ε) slot text = .ok record) :
    ∃ j, Json.read text = .ok j ∧ Record.ofJson j = .ok record := by
  rw [readRecord] at h
  split at h
  · cases h
  · cases h
  · next j hread =>
    split at h
    · next hrecord =>
      cases h
      exact ⟨j, hread, hrecord⟩
    · cases h
    · cases h

/-- What is read from a text can be stored. -/
theorem storable_of_readRecord {slot : Int} {text : τ} {record : Record τ}
    (h : readRecord (ε := ε) slot text = .ok record) : record.Storable := by
  obtain ⟨j, hread, hrecord⟩ := exists_json_of_readRecord h
  exact Record.storable_of_ofJson (Json.writable_read hread) hrecord

/-- What is read from a text without halves is joined. -/
theorem joined_of_readRecord {slot : Int} {text : String} {record : Record WideString}
    (h : readRecord (ε := ε) slot (ofString text) = .ok record) : record.Joined := by
  obtain ⟨j, hread, hrecord⟩ := exists_json_of_readRecord h
  exact Record.joined_of_ofJson (Json.wellFormed_read (Json.readsFine_ofString text) hread) hrecord

/-! ## Stores -/

/-- A record is saved in a slot as a text: once the store has taken that text under the key of
the slot the record is saved, and the store reads that text. -/
structure Store.Saves (store : Store σ ε τ) (slot : Int) (key : String) (record : Record τ)
    (text : String) : Prop where
  encoded : record.text = .ok text
  saved : ∀ g world, (store.write key text).on g.world = (.ok (), world) →
    ∃ now, (Gateway.save store record slot).on g = (.ok (), now) ∧
      ∃ after, (store.read key).on now.world = (.ok (some (ofString text)), after)

/-- A record settles in a slot as a text if it is saved as that text, and is loaded whenever it
has been saved. -/
structure Store.Settles (store : Store σ ε τ) (slot : Int) (key : String) (record : Record τ)
    (text : String) : Prop extends store.Saves slot key record text where
  loaded : ∀ g now, (Gateway.save store record slot).on g = (.ok (), now) →
    ∃ back after, (Gateway.load store slot).on now = (.ok (some back), after) ∧ back.Same record

/-- A store is faithful if whatever can be stored is saved in every slot; if records that are the
same are saved as one text, and joined records that are not the same never are; if what is joined
settles, and nothing else does; and if what is loaded, whatever text it was made from, settles as
one text from then on, provided that it is joined, as it is if that text holds no halves. -/
structure Store.Faithful (store : Store σ ε WideString) : Prop where
  saves : ∀ slot key, slotKey (ε := ε) slot WideString = .ok key →
    ∀ record : Record WideString, record.Storable → ∃ text, store.Saves slot key record text
  canonical : ∀ slot key slot' key' (r s : Record WideString) text other,
    r.Storable → s.Storable → store.Saves slot key r text → store.Saves slot' key' s other →
      (r.Same s → text = other) ∧ (r.Joined → s.Joined → text = other → r.Same s)
  settles : ∀ slot key, slotKey (ε := ε) slot WideString = .ok key →
    ∀ record : Record WideString, record.Storable → ∀ text g now,
      store.Saves slot key record text → (Gateway.save store record slot).on g = (.ok (), now) →
        (store.Settles slot key record text ↔ record.Joined)
  resettles : ∀ slot key, slotKey (ε := ε) slot WideString = .ok key → ∀ g g' record,
    (Gateway.load store slot).on g = (.ok (some record), g') → record.Joined →
      ∃ text, ∀ back : Record WideString, back.Same record → store.Settles slot key back text
  joined : ∀ slot key, slotKey (ε := ε) slot WideString = .ok key → ∀ g g' record text after,
    (store.read key).on g.world = (.ok (some (ofString text)), after) →
      (Gateway.load store slot).on g = (.ok (some record), g') → record.Joined

/-- What is loaded is what a text that the store reads is read as. -/
theorem exists_readRecord_of_load {store : Store σ ε τ} {slot : Int} {g g' : Gateway σ τ}
    {record : Record τ} (h : (Gateway.load store slot).on g = (.ok (some record), g')) :
    ∃ key text after, slotKey (ε := ε) slot τ = .ok key ∧
      (store.read key).on g.world = (.ok (some text), after) ∧
      readRecord (ε := ε) slot text = .ok record := by
  obtain ⟨key, g₁, hkey, hread⟩ := Act.ok_of_bind h
  obtain ⟨found, g₂, hstore, hfound⟩ := Act.ok_of_bind hread
  cases found with
  | none => cases hfound
  | some text =>
    obtain ⟨back, g₃, hback, hnote⟩ := Act.ok_of_bind hfound
    obtain ⟨-, g₄, -, hanswer⟩ := Act.ok_of_bind hnote
    cases hanswer
    refine ⟨key, text, ((store.read key).on g.world).2, Act.ok_of_known hkey, ?_,
      Act.ok_of_known hback⟩
    rw [Act.on_known] at hkey
    rw [← (Prod.mk.inj hkey).2, Gateway.on_ofStore] at hstore
    exact Prod.ext (mapError_ok_iff.1 (Prod.mk.inj hstore).1) rfl

/-- What is loaded can be stored. -/
theorem storable_of_load {store : Store σ ε τ} {slot : Int} {g g' : Gateway σ τ}
    {record : Record τ} (h : (Gateway.load store slot).on g = (.ok (some record), g')) :
    record.Storable := by
  obtain ⟨_, _, _, _, _, hread⟩ := exists_readRecord_of_load h
  exact storable_of_readRecord hread

section Settles

variable {store : Store σ ε τ} {slot : Int} {key : String} {held : σ → Option τ}
  (hkey : slotKey (ε := ε) slot τ = .ok key) (keeps : store.Keeps key held)
  (silent : ∀ n world, store.note n world = world)

include hkey keeps silent

omit [DecidableEq τ] in
/-- Once a record is saved its text is held. -/
theorem held_of_save {record : Record τ} {text : String} (encoded : record.text = .ok text)
    {g now : Gateway σ τ} (saved : (Gateway.save store record slot).on g = (.ok (), now)) :
    held now.world = some (ofString text) := by
  rw [Gateway.on_save_in hkey] at saved
  simp only [encoded, silent] at saved
  cases hwrite : (store.write key text).on g.world with
  | mk answer world =>
    rw [hwrite] at saved
    cases answer with
    | error fault => cases saved
    | ok _ =>
      cases saved
      exact keeps.write g.world world text (Json.plainText_write encoded) hwrite

omit [DecidableEq τ] in
/-- A store that keeps what it takes saves records as their texts. -/
theorem saves_text {record : Record τ} {text : String} (encoded : record.text = .ok text) :
    store.Saves slot key record text where
  encoded := encoded
  saved g world written := by
    have hsave := Gateway.on_save_in hkey store record g
    simp only [encoded, written, silent] at hsave
    obtain ⟨after, hread, -⟩ := keeps.read world (ofString text)
      (keeps.write g.world world text (Json.plainText_write encoded) written)
    exact ⟨_, hsave, after, hread⟩

/-- From such a store joined records are loaded. -/
theorem settles_text {record : Record τ} (storable : record.Storable) (joined : record.Joined)
    {text : String} (encoded : record.text = .ok text) : store.Settles slot key record text where
  toSaves := saves_text hkey keeps silent encoded
  loaded g now saved := by
    obtain ⟨after, -, hload⟩ := Gateway.on_load_text hkey keeps
      (Record.storable_iff.1 storable).1 joined encoded
      (held_of_save hkey keeps silent encoded saved)
    exact ⟨record.inOrder, _, hload, record.inOrder_same⟩

end Settles

/-- What is loaded from a text without halves is joined. -/
theorem joined_of_load {store : Store σ ε WideString} {slot : Int} {key : String}
    (hkey : slotKey (ε := ε) slot WideString = .ok key) {g g' : Gateway σ WideString}
    {record : Record WideString} {text : String} {after : σ}
    (found : (store.read key).on g.world = (.ok (some (ofString text)), after))
    (loaded : (Gateway.load store slot).on g = (.ok (some record), g')) : record.Joined := by
  obtain ⟨key', text', after', hkey', found', hread⟩ := exists_readRecord_of_load loaded
  rw [hkey] at hkey'
  cases hkey'
  rw [found] at found'
  cases found'
  exact joined_of_readRecord hread

/-- So such a store is faithful. -/
theorem Store.Faithful.of_keeps {store : Store σ ε WideString}
    {held : String → σ → Option WideString} (keeps : ∀ key, store.Keeps key (held key))
    (silent : ∀ n world, store.note n world = world) : store.Faithful where
  saves slot key hkey record storable := by
    obtain ⟨text, encoded⟩ := storable.text
    exact ⟨text, saves_text hkey (keeps key) silent encoded⟩
  canonical _ _ _ _ r s text other hr hs hrtext hstext := by
    constructor
    · intro same
      have htext := Record.text_eq_of_same same
      rw [hrtext.encoded, hstext.encoded] at htext
      exact Except.ok.inj htext
    · rintro joined joined' rfl
      exact Record.same_of_text_eq (Record.storable_iff.1 hr).1 (Record.storable_iff.1 hs).1 joined
        joined' hrtext.encoded hstext.encoded
  settles slot key hkey record storable text g now saves saved := by
    constructor
    · intro settles
      -- What was saved is a text without halves, and what is loaded from it is the record.
      obtain ⟨back, after, hload, same⟩ := settles.loaded g now saved
      obtain ⟨later, hread, -⟩ := (keeps key).read now.world _
        (held_of_save hkey (keeps key) silent saves.encoded saved)
      exact same.joined (joined_of_load hkey hread hload)
    · intro joined
      exact settles_text hkey (keeps key) silent storable joined saves.encoded
  resettles slot key hkey g g' record loaded joined := by
    have storable := storable_of_load loaded
    obtain ⟨text, encoded⟩ := storable.text
    refine ⟨text, fun back same => ?_⟩
    have hback : back.text = .ok text := (Record.text_eq_of_same same).trans encoded
    exact settles_text hkey (keeps key) silent (same.storable storable)
      (same.symm.joined joined) hback
  joined slot key hkey g g' record text after found loaded := joined_of_load hkey found loaded

/-- Both stores are faithful, the one in memory and the one in the files of a directory.  The
one in memory takes every text; the other may be refused by its disk, and whatever is loaded
from it is joined. -/
theorem stores_faithful :
    (memoryStore (ε := ε) WideString).Faithful ∧
    (∀ key text texts, ∃ after,
      ((memoryStore (ε := ε) WideString).write key text).on texts = (.ok (), after)) ∧
    ∀ base, (fileStore base WideString).Faithful ∧
      ∀ slot g g' record, (Gateway.load (fileStore base WideString) slot).on g =
        (.ok (some record), g') → record.Joined := by
  have memory : (memoryStore (ε := ε) WideString).Faithful :=
    .of_keeps memoryStore_keeps fun _ _ => rfl
  refine ⟨memory, fun key text texts => ⟨texts.insert key (ofString text), rfl⟩, fun base => ?_⟩
  constructor
  · exact .of_keeps (fileStore_keeps base) fun _ _ => rfl
  · intro slot g g' record loaded
    obtain ⟨key, text, after, hkey, found, -⟩ := exists_readRecord_of_load loaded
    obtain ⟨s, rfl⟩ := exists_ofString_of_read found
    exact joined_of_load hkey found loaded

/-- A text in memory whose one resource is named by a bare first half and an escaped second one;
the name of the other one comes between the first half and the character of the pair. -/
def splitText : WideString where
  points :=
    (WideString.ofString "\x7b\"episodeId\": \"ep1\", \"nodeId\": \"gate\", ").points ++
      (WideString.ofString "\"resources\": \x7b\"").points ++
        .half ⟨0xD83D, by decide, by decide⟩ ::
          (WideString.ofString "\\ude00\": 1, \"\\ue000\": 2\x7d, \"version\": 1\x7d").points

/-- A record of two resources, the first of that name. -/
def recordOf (name : WideString) : Record WideString where
  episode := ofString "ep1"
  node := ofString "gate"
  resources := Table.ofList [(name, .number (.int 1)), (ofString "\ue000", .number (.int 2))]

/-- In that text the halves are read one by one, and they are saved as the escapes of the
character that they make up.  So another record is loaded then, and its text is another one; and
at two nodes that differ no more than that a record has one text.  Nor does a record have the
text of what it equals as JSON, for a double is never saved as the whole number that it equals. -/
theorem split_text_drifts :
    let split : WideString :=
      ⟨[.half ⟨0xD83D, by decide, by decide⟩, .half ⟨0xDE00, by decide, by decide⟩]⟩
    let pair : WideString := ofString "😀"
    let store := memoryStore (ε := Empty) WideString
    let seen := (Gateway.load store 0).on ⟨none, Table.empty.insert autoKey splitText⟩
    let kept := (Gateway.save store (recordOf split) 0).on seen.2
    let again := (Gateway.load store 0).on kept.2
    let one : Amount := .real (Binary64.nearest false Binary64.one 1)
    let whole : Record := ⟨"ep1", "gate", Table.ofList [("gold", .number (.int 1))], .whole⟩
    let double : Record := ⟨"ep1", "gate", Table.ofList [("gold", .number one)], .whole⟩
    seen.1 = .ok (some (recordOf split)) ∧ kept.1 = .ok () ∧
      again.1 = .ok (some (recordOf pair)) ∧ ¬(recordOf pair).Same (recordOf split) ∧
      (recordOf pair).text ≠ (recordOf split).text ∧
      split ≠ pair ∧
      { recordOf pair with node := split }.text = { recordOf pair with node := pair }.text ∧
      whole.toJson.same double.toJson = true ∧ whole.text ≠ double.text := by
  intro split pair store seen kept again one whole double
  have hseen : seen.1 = .ok (some (recordOf split)) := by decide +kernel
  have hkept : kept.1 = .ok () := by decide +kernel
  have hagain : again.1 = .ok (some (recordOf pair)) := by decide +kernel
  have hother : ¬(recordOf pair).Same (recordOf split) := by
    -- Only one of them has a resource of this name.
    intro same
    exact absurd (same.resources pair) (by decide +kernel)
  exact ⟨hseen, hkept, hagain, hother, by decide +kernel, by decide, by decide +kernel,
    by decide +kernel, by decide +kernel⟩

/-- The text of a record: the resources by name, in ASCII. -/
example :
    Record.text ⟨"ep1", "gate",
      Table.ofList [("runes", .number (.int 3)), ("name", .string "René")], .whole⟩ =
      .ok ("\x7b\"episodeId\": \"ep1\", \"nodeId\": \"gate\", " ++
        "\"resources\": \x7b\"name\": \"Ren\\u00e9\", \"runes\": 3\x7d, \"version\": 1\x7d") := by
  decide +kernel

end Save

end Storyline
