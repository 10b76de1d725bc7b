import Storyline.Proofs.Disk.Place
import Storyline.Proofs.Save.Store

/-!
# Storyline.Proofs.Save.Errands

The two stores side by side.  Whatever is kept and fetched, under whatever keys, each fetch from
the store in memory answers with the text that was kept last under its key.  The store in the
files of a directory that was empty answers with the same text, save that line ends have become
newlines: so the two answer alike just if no carriage return is ever fetched.
-/

namespace Storyline.Save

/-! ## Errands -/

/-- What is asked of a store. -/
inductive Errand
  | fetch (key : String)
  | keep (key text : String)

/-- The key that is asked about. -/
def Errand.key : Errand → String
  | .fetch key | .keep key _ => key

namespace Store

variable {σ ε : Type}

/-- Does an errand; only a fetch answers with a text. -/
def serve (store : Store σ ε) : Errand → Act σ ε (Option String)
  | .fetch key => store.read key
  | .keep key text => do
    store.write key text
    return none

/-- The answers to errands, one after the other. -/
def answers (store : Store σ ε) : List Errand → σ → List (Except ε (Option String))
  | [], _ => []
  | errand :: rest, world =>
    let served := (store.serve errand).on world
    served.1 :: answers store rest served.2

end Store

/-- What is to be answered if each fetch is to get the text that was kept last under its key.
What has been kept comes with its key, the latest first. -/
def told : List (String × String) → List Errand → List (Option String)
  | _, [] => []
  | kept, .fetch key :: rest => kept.lookup key :: told kept rest
  | kept, .keep key text :: rest => none :: told ((key, text) :: kept) rest

theorem lookup_kept (key text other : String) (kept : List (String × String)) :
    ((key, text) :: kept).lookup other = if key = other then some text else kept.lookup other := by
  rw [List.lookup_cons]
  by_cases h : key = other
  · rw [if_pos h, h, beq_self_eq_true]
  · rw [if_neg h, beq_eq_false_iff_ne.2 (Ne.symm h)]

/-! ## In memory -/

/-- A table that has what was kept last under each key answers what is to be answered. -/
theorem answers_memoryStore {ε : Type} {kept : List (String × String)} {texts : Table String}
    (h : ∀ key, texts.find? key = kept.lookup key) (errands : List Errand) :
    (memoryStore (ε := ε)).answers errands texts = (told kept errands).map .ok := by
  induction errands generalizing kept texts with
  | nil => rfl
  | cons errand rest ih =>
    cases errand with
    | fetch key =>
      have hserve : ((memoryStore (ε := ε)).serve (.fetch key)).on texts =
          (.ok (texts.find? key), texts) := rfl
      rw [Store.answers, hserve, told, List.map_cons, ih h, h key]
    | keep key text =>
      have hserve : ((memoryStore (ε := ε)).serve (.keep key text)).on texts =
          (.ok none, texts.insert key text) := rfl
      have hinsert : ∀ other,
          (texts.insert key text).find? other = ((key, text) :: kept).lookup other := by
        intro other
        rw [Table.find?_insert, lookup_kept, h other]
      rw [Store.answers, hserve, told, List.map_cons, ih hinsert]

/-! ## In files -/

/-- A text with its line ends made newlines. -/
def newlined (text : String) : String := String.ofList (Text.unifyLineEnds text.toList)

theorem newlined_eq_self_iff {text : String} : newlined text = text ↔ '\r' ∉ text.toList := by
  rw [← Text.unifyLineEnds_eq_self_iff, newlined, ← String.toList_inj, String.toList_ofList]

/-- The file of a key. -/
def keyFile (base : Path) (key : String) : Path := base.join (key ++ ".json")

section Key

variable {key other : String}

theorem not_mem_of_isKey (h : isKey key = true) {c : Char} (hc : isKeyChar c = false) :
    c ∉ key.toList := by
  intro hmem
  have hall : ∀ c ∈ key.toList, isKeyChar c = true :=
    List.all_eq_true.1 (Bool.and_eq_true_iff.1 h).2
  rw [hall c hmem] at hc
  cases hc

theorem isName_of_isKey (h : isKey key = true) : Path.IsName (key ++ ".json") :=
  Path.isName_json (not_mem_of_isKey h (by decide))

theorem keyPath_of_isKey (h : isKey key = true) (base : Path) :
    keyPath base key = .ok (keyFile base key) := if_pos h

/-- The file of a key lies in the directory, under the name that is made of the key. -/
theorem placeOf_keyFile (h : isKey key = true) (d : Disk) (base : Path) :
    d.placeOf (keyFile base key) = d.placeOf base ++ [key ++ ".json"] :=
  Disk.placeOf_join (isName_of_isKey h) d base

/-- No two keys have files of one name. -/
theorem fileName_inj (h : key ++ ".json" = other ++ ".json") : key = other := by
  have hchars := congrArg String.toList h
  rw [String.toList_append, String.toList_append] at hchars
  exact String.toList_inj.1 (List.append_cancel_right hchars)

/-- So in one directory their files lie apart. -/
theorem keyPlace_ne {place : List String} (h : other ≠ key) :
    place ++ [other ++ ".json"] ≠ place ++ [key ++ ".json"] := fun heq =>
  h (fileName_inj (List.singleton_inj.1 (List.append_cancel_left heq)))

end Key

/-- Whether the disk refuses nothing in the course of errands. -/
def Obeyed (base : Path) (errands : List Errand) (d : Disk) : Prop :=
  ∀ fault, .error (.disk fault) ∉ (fileStore base).answers errands d

/-- The files of a directory are as they should be once texts were kept: the file of a key has
the text that was kept last under it, and there is none if no text was. -/
structure Filed (base : Path) (kept : List (String × String)) (d : Disk) : Prop where
  -- What was written can also be reached, since writing made the way to it.
  latest : ∀ key text, isKey key = true → kept.lookup key = some text →
    d.readBytes (keyFile base key) = .ok (Text.encode text)
  -- Where nothing was, the way may still be missing: the place is known from the path alone.
  vacant : ∀ key, isKey key = true → kept.lookup key = none →
    d.fileAt? (d.placeOf (keyFile base key)) = none

theorem filed_of_no_children {base : Path} {d : Disk} (h : d.children (d.placeOf base) = []) :
    Filed base [] d where
  latest _ _ _ hkept := by cases hkept
  vacant key hkey _ := by
    rw [placeOf_keyFile hkey]
    exact Disk.fileAt?_of_no_children h _

namespace Filed

variable {base : Path} {kept : List (String × String)} {d : Disk}

/-- Making the directory leaves its files as they are. -/
theorem ensure (filed : Filed base kept d) : Filed base kept (Disk.ensureDirectory base d).2 where
  latest key text hkey hkept := Disk.readBytes_ensureDirectory (filed.latest key text hkey hkept)
  vacant key hkey hkept := by
    obtain ⟨hhere, hfiles⟩ := Disk.fileAt?_ensureDirectory d base
    rw [Disk.placeOf_of_here hhere, hfiles]
    exact filed.vacant key hkey hkept

/-- Writing the file of a key leaves those of the other keys as they are. -/
theorem write (filed : Filed base kept d) {key text : String} (hkey : isKey key = true)
    {after : Disk} (h : d.writeText (keyFile base key) text = .ok after) :
    Filed base ((key, text) :: kept) after := by
  have hjoin : ∀ {other}, isKey other = true →
      (keyFile base other).parts = base.parts ++ [other ++ ".json"] := by
    intro other hother
    rw [keyFile, (isName_of_isKey hother).join]
  constructor
  · intro other last hother hkept
    rw [lookup_kept] at hkept
    split at hkept
    · next heq =>
      cases hkept
      exact heq ▸ Disk.readBytes_writeBytes h
    · next hne =>
      have hnames : other ++ ".json" ≠ key ++ ".json" := fun heq => hne (fileName_inj heq).symm
      exact Disk.readBytes_writeBytes_of_ne (filed.latest other last hother hkept) (hjoin hother)
        (hjoin hkey) (isName_of_isKey hother).ne_dots (isName_of_isKey hkey).ne_dots hnames h
  · intro other hother hkept
    rw [lookup_kept] at hkept
    split at hkept
    · cases hkept
    · next hne =>
      obtain ⟨hhere, hfiles⟩ := Disk.fileAt?_writeBytes h
      have hapart : d.placeOf (keyFile base other) ≠ d.placeOf (keyFile base key) := by
        rw [placeOf_keyFile hother, placeOf_keyFile hkey]
        exact keyPlace_ne (Ne.symm hne)
      rw [Disk.placeOf_of_here hhere, hfiles _ hapart]
      exact filed.vacant other hother hkept

/-- A fetch is refused, or it gets the text that was kept last, with newlines. -/
theorem read (filed : Filed base kept d) {key : String} (hkey : isKey key = true) :
    (∃ fault, readKey base key d = .error (.disk fault)) ∨
      readKey base key d = .ok ((kept.lookup key).map newlined) := by
  rw [readKey_eq (keyPath_of_isKey hkey base)]
  cases hkept : kept.lookup key with
  | some text =>
    rw [Disk.readText_of_bytes (filed.latest key text hkey hkept), Text.decode_encode]
    exact .inr rfl
  | none =>
    cases hbytes : d.readBytes (keyFile base key) with
    | ok bytes =>
      have hfile := Disk.fileAt?_of_readBytes hbytes
      rw [filed.vacant key hkey hkept] at hfile
      cases hfile
    | error fault =>
      rw [Disk.readText_of_refused hbytes]
      cases fault with
      | refused problem path =>
        cases problem with
        | notFound => exact .inr rfl
        | _ => exact .inl ⟨_, rfl⟩
      | _ => exact .inl ⟨_, rfl⟩

/-- Keeping a text is refused, or its key has it from then on. -/
theorem keep (filed : Filed base kept d) {key : String} (hkey : isKey key = true)
    (text : String) :
    (∃ fault after,
      ((fileStore base).serve (.keep key text)).on d = (.error (.disk fault), after)) ∨
    ∃ after, ((fileStore base).serve (.keep key text)).on d = (.ok none, after) ∧
      Filed base ((key, text) :: kept) after := by
  have hensured := filed.ensure
  simp only [Store.serve, Act.on_bind, on_write]
  cases hmade : Disk.ensureDirectory base d with
  | mk answer made =>
    rw [hmade] at hensured
    cases answer with
    | error fault => exact .inl ⟨fault, made, rfl⟩
    | ok _ =>
      simp only [on_writeKey (keyPath_of_isKey hkey base)]
      cases hwrite : made.writeText (keyFile base key) text with
      | error fault => exact .inl ⟨fault, made, rfl⟩
      | ok after => exact .inr ⟨after, rfl, hensured.write hkey hwrite⟩

/-- Unless the disk refuses, the files answer what is to be answered, with newlines. -/
theorem answers (filed : Filed base kept d) {errands : List Errand}
    (keys : ∀ errand ∈ errands, isKey errand.key = true) (obeyed : Obeyed base errands d) :
    (fileStore base).answers errands d =
      (told kept errands).map fun answer => .ok (answer.map newlined) := by
  induction errands generalizing kept d with
  | nil => rfl
  | cons errand rest ih =>
    obtain ⟨hkey, hrest⟩ := List.forall_mem_cons.1 keys
    simp only [Obeyed, Store.answers, List.mem_cons, not_or] at obeyed
    rw [Store.answers]
    cases errand with
    | fetch key =>
      have hserve : ((fileStore base).serve (.fetch key)).on d = (readKey base key d, d) := rfl
      rw [hserve] at obeyed ⊢
      replace hkey : isKey key = true := hkey
      obtain ⟨fault, hrefused⟩ | hread := filed.read hkey
      · exact absurd hrefused.symm (obeyed fault).1
      · rw [hread, told, List.map_cons, ih filed hrest fun fault => (obeyed fault).2]
    | keep key text =>
      replace hkey : isKey key = true := hkey
      obtain ⟨fault, after, hrefused⟩ | ⟨after, hkept, hfiled⟩ := filed.keep hkey text
      · rw [hrefused] at obeyed
        exact absurd rfl (obeyed fault).1
      · rw [hkept] at obeyed ⊢
        rw [told, List.map_cons, ih hfiled hrest fun fault => (obeyed fault).2]
        rfl

end Filed

/-! ## What is not refused -/

/-- Whether there is room for the file of a key: neither its name nor its path is too long. -/
structure HasRoom (base : Path) (key : String) : Prop where
  name : (key ++ ".json").utf8ByteSize ≤ Disk.nameLimit
  path : (keyFile base key).text.utf8ByteSize < Disk.pathLimit

instance decideHasRoom (base : Path) (key : String) : Decidable (HasRoom base key) :=
  decidable_of_iff
    ((key ++ ".json").utf8ByteSize ≤ Disk.nameLimit ∧
      (keyFile base key).text.utf8ByteSize < Disk.pathLimit)
    ⟨fun h => ⟨h.1, h.2⟩, fun h => ⟨h.name, h.path⟩⟩

/-- A directory is ready if it is there and in the place of each file there is a text or
nothing. -/
structure Ready (base : Path) (place : List String) (d : Disk) : Prop where
  there : d.locate base = .ok (place, some .directory)
  texts : ∀ key, isKey key = true → d.entry? (place ++ [key ++ ".json"]) = none ∨
    ∃ text, d.entry? (place ++ [key ++ ".json"]) = some (.file (Text.encode text))

namespace Ready

variable {base : Path} {place : List String} {d : Disk} {key : String}

theorem of_no_children (there : d.locate base = .ok (place, some .directory))
    (empty : d.children place = []) : Ready base place d where
  there := there
  texts key _ := by
    refine .inl (Option.eq_none_iff_forall_ne_some.2 fun entry h => ?_)
    have hmem := Disk.mem_entries_of_found (List.concat_ne_nil _ place) h
    rw [← Disk.mem_children_iff, empty] at hmem
    cases hmem

/-- A key leads to its file. -/
theorem locate (ready : Ready base place d) (hkey : isKey key = true) (room : HasRoom base key) :
    d.locate (keyFile base key) =
      .ok (place ++ [key ++ ".json"], d.entry? (place ++ [key ++ ".json"])) := by
  have plain : '\x00' ∉ (key ++ ".json").toList := by
    rw [String.toList_append, List.mem_append, not_or]
    exact ⟨not_mem_of_isKey hkey (by decide), by decide⟩
  exact Disk.locate_join ⟨isName_of_isKey hkey, plain, room.name⟩ ready.there room.path

/-- A fetch is not refused. -/
theorem read (ready : Ready base place d) (hkey : isKey key = true) (room : HasRoom base key) :
    ∃ found, readKey base key d = .ok found := by
  have hlocate := ready.locate hkey room
  rw [readKey_eq (keyPath_of_isKey hkey base)]
  obtain hnone | ⟨text, htext⟩ := ready.texts key hkey
  · rw [hnone] at hlocate
    rw [Disk.readText_of_refused (Disk.readBytes_of_vacant hlocate)]
    exact ⟨none, rfl⟩
  · rw [htext] at hlocate
    have hbytes := Disk.readBytes_ok_iff.2 ⟨_, hlocate⟩
    rw [Disk.readText_of_bytes hbytes, Text.decode_encode]
    exact ⟨some _, rfl⟩

theorem not_directory (ready : Ready base place d) (hkey : isKey key = true) :
    d.entry? (place ++ [key ++ ".json"]) ≠ some .directory := by
  intro h
  obtain hnone | ⟨text, htext⟩ := ready.texts key hkey
  · rw [hnone] at h
    cases h
  · rw [htext] at h
    cases h

/-- A directory stays ready when a text is put in the place of a file. -/
theorem put (ready : Ready base place d) (hkey : isKey key = true) (text : String) :
    Ready base place (d.put (place ++ [key ++ ".json"]) (.file (Text.encode text))) := by
  obtain ⟨hnul, hshort, hfollow⟩ := Disk.locate_ok_iff.1 ready.there
  have hdown : place ≠ place ++ [key ++ ".json"] := by simp
  have hstays := Disk.follow_put_of_ne hfollow (ready.not_directory hkey) hdown
    (.file (Text.encode text))
  refine ⟨Disk.locate_ok_iff.2 ⟨hnul, hshort, hstays⟩, fun other hother => ?_⟩
  by_cases heq : other = key
  · rw [heq, Disk.entry?_put_self d _ (List.concat_ne_nil _ place)]
    exact .inr ⟨text, rfl⟩
  · rw [Disk.entry?_put_of_ne d _ (keyPlace_ne heq)]
    exact ready.texts other hother

/-- Keeping a text is not refused, and the directory is ready for more. -/
theorem keep (ready : Ready base place d) (hkey : isKey key = true) (room : HasRoom base key)
    (text : String) : ∃ after,
      ((fileStore base).serve (.keep key text)).on d = (.ok none, after) ∧
        Ready base place after := by
  have hensured := Disk.ensureDirectory_of_directory ready.there
  have hwrite : d.writeText (keyFile base key) text =
      .ok (d.put (place ++ [key ++ ".json"]) (.file (Text.encode text))) :=
    Disk.writeBytes_of_locate (ready.locate hkey room) (ready.not_directory hkey)
      (Text.encode text)
  have hserve : ((fileStore base).serve (.keep key text)).on d =
      (.ok none, d.put (place ++ [key ++ ".json"]) (.file (Text.encode text))) := by
    simp only [Store.serve, Act.on_bind, on_write, hensured,
      on_writeKey (keyPath_of_isKey hkey base), hwrite]
    rfl
  exact ⟨_, hserve, ready.put hkey text⟩

/-- Where there is room nothing is refused. -/
theorem obeyed (ready : Ready base place d) {errands : List Errand}
    (keys : ∀ errand ∈ errands, isKey errand.key = true)
    (room : ∀ errand ∈ errands, HasRoom base errand.key) : Obeyed base errands d := by
  intro fault
  induction errands generalizing d with
  | nil => exact List.not_mem_nil
  | cons errand rest ih =>
    obtain ⟨hkey, hkeys⟩ := List.forall_mem_cons.1 keys
    obtain ⟨hroom, hrooms⟩ := List.forall_mem_cons.1 room
    rw [Store.answers, List.mem_cons, not_or]
    cases errand with
    | fetch key =>
      have hserve : ((fileStore base).serve (.fetch key)).on d = (readKey base key d, d) := rfl
      obtain ⟨found, hread⟩ := ready.read hkey hroom
      rw [hserve]
      exact ⟨fun h => (by cases h.trans hread), ih ready hkeys hrooms⟩
    | keep key text =>
      replace hkey : isKey key = true := hkey
      obtain ⟨after, hserve, hready⟩ := ready.keep hkey hroom text
      rw [hserve]
      exact ⟨fun h => (by cases h), ih hready hkeys hrooms⟩

end Ready

/-- Whatever texts are kept and fetched, under any keys in any order:

* From the store in memory each fetch gets the text that was kept last under its key, if there
  is one.
* So it does from the files of a directory that was empty or missing, unless the disk refuses,
  but with newlines for the line ends of that text.
* So the two stores answer alike just if no text that is fetched holds a carriage return.
* The disk does not refuse if the directory is there and there is room for the files. -/
theorem stores_answer_alike_iff {base : Path} {d : Disk} {errands : List Errand}
    (empty : d.children (d.placeOf base) = [])
    (keys : ∀ errand ∈ errands, isKey errand.key = true) :
    memoryStore.answers errands Table.empty =
        (told [] errands).map (Except.ok (ε := FileFault)) ∧
      (Obeyed base errands d →
        (fileStore base).answers errands d =
            (told [] errands).map (fun answer => .ok (answer.map newlined)) ∧
          ((fileStore base).answers errands d = memoryStore.answers errands Table.empty ↔
            ∀ text, some text ∈ told [] errands → '\r' ∉ text.toList)) ∧
      ∀ place, d.locate base = .ok (place, some .directory) →
        (∀ errand ∈ errands, HasRoom base errand.key) → Obeyed base errands d := by
  have hnone : ∀ key, Table.find? Table.empty key = ([] : List (String × String)).lookup key :=
    fun _ => rfl
  have memory := answers_memoryStore (ε := FileFault) hnone errands
  refine ⟨memory, fun obeyed => ?_, fun place there room => ?_⟩
  · have files := (filed_of_no_children empty).answers keys obeyed
    refine ⟨files, ?_⟩
    rw [memory, files, List.map_inj_left]
    constructor
    · intro alike text htext
      have hsame := Except.ok.inj (alike _ htext)
      exact newlined_eq_self_iff.1 (Option.some.inj hsame)
    · intro plain answer hanswer
      cases answer with
      | none => rfl
      | some text => rw [Option.map_some, newlined_eq_self_iff.2 (plain text hanswer)]
  · rw [← Disk.locate_place there] at empty
    exact (Ready.of_no_children there empty).obeyed keys room

/-- A directory that is missing, a key that is written twice, the second time with less, and one
that never is: each fetch gets the same from both stores.  Nor is anything refused if the
directory is there. -/
theorem last_tide_is_fetched :
    let base := Path.ofText "saves"
    let d : Disk := ⟨[], []⟩
    let made : Disk := ⟨[(["saves"], .directory)], []⟩
    let errands : List Errand := [.fetch "tide", .keep "tide" "high water", .keep "moon" "new",
      .keep "tide" "low", .fetch "tide", .fetch "moon", .fetch "tide.json"]
    d.children (d.placeOf base) = [] ∧ (∀ errand ∈ errands, isKey errand.key = true) ∧
      told [] errands = [none, none, none, none, some "low", some "new", none] ∧
      Obeyed base errands d ∧ (fileStore base).answers errands d = (told [] errands).map .ok ∧
      memoryStore.answers errands Table.empty = (fileStore base).answers errands d ∧
      made.children (made.placeOf base) = [] ∧ (∀ errand ∈ errands, HasRoom base errand.key) ∧
      Obeyed base errands made := by
  intro base d made errands
  have keys : ∀ errand ∈ errands, isKey errand.key = true := by decide +kernel
  have htold : told [] errands = [none, none, none, none, some "low", some "new", none] := by
    decide +kernel
  have hanswers : (fileStore base).answers errands d = (told [] errands).map .ok := by
    decide +kernel
  have obeyed : Obeyed base errands d := by
    intro fault h
    rw [hanswers] at h
    obtain ⟨answer, -, heq⟩ := List.mem_map.1 h
    cases heq
  have empty : d.children (d.placeOf base) = [] := by decide +kernel
  obtain ⟨-, files, -⟩ := stores_answer_alike_iff empty keys
  obtain ⟨-, alike⟩ := files obeyed
  have plain : ∀ text, some text ∈ told [] errands → '\r' ∉ text.toList := by
    intro text h
    rw [htold] at h
    obtain rfl | rfl : text = "low" ∨ text = "new" := by simpa using h
    · decide
    · decide
  have empty' : made.children (made.placeOf base) = [] := by decide +kernel
  have room : ∀ errand ∈ errands, HasRoom base errand.key := by decide +kernel
  have there : made.locate base = .ok (["saves"], some .directory) := by decide +kernel
  obtain ⟨-, -, smooth⟩ := stores_answer_alike_iff empty' keys
  exact ⟨empty, keys, htold, obeyed, hanswers, (alike.2 plain).symm, empty', room,
    smooth _ there room⟩

/-- A carriage return that is kept in a file is fetched as a newline. -/
theorem return_is_not_fetched :
    let base := Path.ofText "saves"
    let errands : List Errand := [.keep "k" "a\rb", .fetch "k"]
    (∀ errand ∈ errands, isKey errand.key = true) ∧
      told [] errands = [none, some "a\rb"] ∧
      memoryStore.answers errands Table.empty =
        [Except.ok (ε := FileFault) none, .ok (some "a\rb")] ∧
      (fileStore base).answers errands ⟨[], []⟩ = [.ok none, .ok (some "a\nb")] ∧
      (fileStore base).answers errands ⟨[], []⟩ ≠ memoryStore.answers errands Table.empty := by
  decide +kernel

end Storyline.Save
