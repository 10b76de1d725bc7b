import Storyline.Proofs.Catalogue
import Storyline.Proofs.Disk.Place

/-!
# Storyline.Proofs.Catalogue.Listing

Listing the episodes and opening them.  The list takes the suffix off the names of the files in
the directory, and opening an episode puts it back.  The two undo each other for every name but
one: a file whose name is the suffix and nothing else is listed under its whole name, though it
is opened by the empty id.
-/

namespace Storyline

/-! ## Names -/

/-- The stem of a name is what stands before its last dot, if that is something. -/
theorem Path.stem_eq {name base : String} {extension : List Char}
    (hname : name.toList = base.toList ++ '.' :: extension) (hbase : base ≠ "")
    (hne : extension ≠ []) (last : '.' ∉ extension) : stem name = base := by
  have hback : name.toList.reverse = extension.reverse ++ '.' :: base.toList.reverse := by
    rw [hname]
    simp
  have hafter : name.toList.reverse.takeWhile (· ≠ '.') = extension.reverse := by
    have hall : ∀ c ∈ extension.reverse, decide (c ≠ '.') = true := by
      intro c hc
      refine decide_eq_true fun heq => last ?_
      rw [← heq]
      exact List.mem_reverse.1 hc
    rw [hback, List.takeWhile_append_of_pos hall, List.takeWhile_cons_of_neg (by simp),
      List.append_nil]
  have hbefore : (name.toList.reverse.drop (extension.reverse.length + 1)).reverse =
      base.toList := by
    rw [hback, List.drop_append]
    simp
  have hbase' : base.toList ≠ [] := fun h => hbase (String.toList_inj.1 h)
  have hlength : extension.reverse.length < name.toList.reverse.length := by
    rw [hback, List.length_append, List.length_cons]
    omega
  rw [stem]
  simp only [hafter, hbefore]
  rw [if_pos ⟨hlength, by simpa using hne, hbase'⟩, String.ofList_toList]

namespace Catalogue

theorem isDocumentName_iff {name : String} :
    isDocumentName name = true ↔ ∃ id, name = id ++ ".json" := by
  rw [isDocumentName, List.isSuffixOf_iff_suffix]
  constructor
  · rintro ⟨front, h⟩
    refine ⟨String.ofList front, String.toList_inj.1 ?_⟩
    rw [← h, String.toList_append, String.toList_ofList]
    rfl
  · rintro ⟨id, rfl⟩
    exact ⟨id.toList, String.toList_append.symm⟩

theorem stem_document {id : String} (h : id ≠ "") : Path.stem (id ++ ".json") = id := by
  have hname : (id ++ ".json").toList = id.toList ++ '.' :: ['j', 's', 'o', 'n'] :=
    String.toList_append
  exact Path.stem_eq hname h (by decide) (by decide)

/-! ## What is listed -/

/-- Whether the directory can be reached with all that is named like a document in it: no path
there is too long. -/
structure InReach (env : Environment) (d : Disk) (c : Catalogue) : Prop where
  directory : ¬d.TooLong (c.directory env)
  children : ∀ place, d.locate (c.directory env) = .ok (place, some .directory) →
    ∀ e ∈ d.children place, isDocumentName e.1 = true → ¬d.TooLong ((c.directory env).join e.1)

/-- The names in a directory that documents may have. -/
def documentNames (d : Disk) (place : List String) : List String :=
  ((d.children place).map Prod.fst).filter isDocumentName

theorem exists_filesAmong_iff {d : Disk} {dir : Path} {names : List String} :
    (∃ found, filesAmong d dir names = .ok found) ↔ ∀ name ∈ names, ¬d.TooLong (dir.join name) := by
  induction names with
  | nil => exact iff_of_true ⟨_, rfl⟩ (by simp)
  | cons name rest ih =>
    rw [List.forall_mem_cons, ← ih, ← Disk.exists_isFile_iff]
    constructor
    · rintro ⟨found, h⟩
      obtain ⟨isFile, hfile, h⟩ := bind_ok_iff.1 h
      obtain ⟨others, hothers, -⟩ := bind_ok_iff.1 h
      exact ⟨⟨isFile, hfile⟩, ⟨others, hothers⟩⟩
    · rintro ⟨⟨isFile, hfile⟩, ⟨others, hothers⟩⟩
      exact ⟨_, bind_ok_iff.2 ⟨isFile, hfile, bind_ok_iff.2 ⟨others, hothers, rfl⟩⟩⟩

theorem filesAmong_eq {d : Disk} {dir : Path} {names : List String}
    (h : ∀ name ∈ names, d.isFile (dir.join name) = .ok (d.fileIn? dir name).isSome) :
    filesAmong d dir names = .ok (names.filter fun name => (d.fileIn? dir name).isSome) := by
  induction names with
  | nil => rfl
  | cons name rest ih =>
    obtain ⟨hname, hrest⟩ := List.forall_mem_cons.1 h
    rw [filesAmong, hname, ih hrest, List.filter_cons]
    rfl

theorem filesAmong_sublist {d : Disk} {dir : Path} {names found : List String}
    (h : filesAmong d dir names = .ok found) : found.Sublist names := by
  induction names generalizing found with
  | nil => cases h; exact .slnil
  | cons name rest ih =>
    obtain ⟨isFile, -, h⟩ := bind_ok_iff.1 h
    obtain ⟨others, hothers, h⟩ := bind_ok_iff.1 h
    cases h
    split
    · exact (ih hothers).cons_cons name
    · exact (ih hothers).cons name

section Ids

variable {env : Environment} {d : Disk} {c : Catalogue} {place : List String}

theorem ids_of_directory (h : d.locate (c.directory env) = .ok (place, some .directory)) :
    c.ids env d = (filesAmong d (c.directory env) (documentNames d place)).map fun found =>
      sortBy id (found.map Path.stem) := by
  have hdir := Disk.isDirectory_eq_true_iff.2 ⟨place, h⟩
  simp only [ids, hdir, h, bind, Except.bind, if_true, documentNames]
  cases filesAmong d (c.directory env)
    (((d.children place).map Prod.fst).filter isDocumentName) <;> rfl

/-- A directory that is not there has no ids, unless its path is too long. -/
theorem ids_of_no_directory (reached : ¬d.TooLong (c.directory env))
    (h : ∀ place, d.locate (c.directory env) ≠ .ok (place, some .directory)) :
    c.ids env d = .ok [] := by
  have hdir : d.isDirectory (c.directory env) = .ok false := by
    obtain ⟨found, hfound⟩ := Disk.exists_lies?_iff.2 reached
    refine map_ok_iff.2 ⟨found, hfound, beq_eq_false_iff_ne.2 ?_⟩
    rintro rfl
    obtain ⟨place, hl⟩ := Disk.lies?_eq_some_iff.1 hfound
    exact h place hl
  rw [ids, hdir]
  rfl

theorem ids_of_tooLong (h : d.TooLong (c.directory env)) :
    ∃ fault, c.ids env d = .error fault := by
  rw [Disk.TooLong] at h
  have hdir : d.isDirectory (c.directory env) =
      .error (.refused .nameTooLong (c.directory env)) := by
    rw [Disk.isDirectory, Disk.lies?, h]
    rfl
  exact ⟨.refused .nameTooLong (c.directory env), by rw [ids, hdir]; rfl⟩

theorem mem_documentNames {name : String} :
    name ∈ documentNames d place ↔
      (∃ entry, (name, entry) ∈ d.children place) ∧ isDocumentName name = true := by
  simp [documentNames]

/-- The ids are listed just if the directory can be reached with all its documents. -/
theorem exists_ids_iff : (∃ ids, c.ids env d = .ok ids) ↔ InReach env d c := by
  by_cases hdir : ∃ place, d.locate (c.directory env) = .ok (place, some .directory)
  · obtain ⟨place, hl⟩ := hdir
    have hlong : ¬d.TooLong (c.directory env) := by
      rw [Disk.TooLong, hl]
      exact fun h => by cases h
    have hnames : (∃ ids, c.ids env d = .ok ids) ↔
        ∃ found, filesAmong d (c.directory env) (documentNames d place) = .ok found := by
      rw [ids_of_directory hl]
      constructor
      · rintro ⟨_, h⟩
        obtain ⟨found, hfound, -⟩ := map_ok_iff.1 h
        exact ⟨found, hfound⟩
      · rintro ⟨found, h⟩
        exact ⟨_, map_ok_iff.2 ⟨found, h, rfl⟩⟩
    rw [hnames, exists_filesAmong_iff]
    constructor
    · refine fun h => ⟨hlong, fun other hl' e he hname => ?_⟩
      rw [hl] at hl'
      cases hl'
      exact h _ (mem_documentNames.2 ⟨⟨e.2, he⟩, hname⟩)
    · intro reach name hname
      obtain ⟨⟨entry, hentry⟩, hdocument⟩ := mem_documentNames.1 hname
      exact reach.children place hl (name, entry) hentry hdocument
  · have hnone : ∀ place, d.locate (c.directory env) ≠ .ok (place, some .directory) :=
      fun place hl => hdir ⟨place, hl⟩
    constructor
    · rintro ⟨listed, h⟩
      refine ⟨fun hlong => ?_, fun place hl => absurd hl (hnone place)⟩
      obtain ⟨fault, hfault⟩ := ids_of_tooLong hlong
      rw [hfault] at h
      cases h
    · exact fun reach => ⟨[], ids_of_no_directory reach.directory hnone⟩

/-- Whatever the disk, what is listed are stems of names that documents may have, in order. -/
theorem exists_listed_names {listed : List String} (h : c.ids env d = .ok listed) :
    ∃ names : List String, (∀ name ∈ names, isDocumentName name = true) ∧
      listed = sortBy id (names.map Path.stem) := by
  rw [ids] at h
  obtain ⟨isDirectory, -, h⟩ := bind_ok_iff.1 h
  split at h
  · obtain ⟨⟨place, _⟩, -, h⟩ := bind_ok_iff.1 h
    obtain ⟨found, hfound, h⟩ := bind_ok_iff.1 h
    cases h
    exact ⟨found, fun name hname =>
      (List.mem_filter.1 ((filesAmong_sublist hfound).subset hname)).2, rfl⟩
  · cases h
    exact ⟨[], List.forall_mem_nil _, rfl⟩

/-- No id that is listed is empty. -/
theorem ne_empty_of_listed {listed : List String} (h : c.ids env d = .ok listed) {i : String}
    (hi : i ∈ listed) : i ≠ "" := by
  obtain ⟨names, hnames, rfl⟩ := exists_listed_names h
  rw [(perm_sortBy id _).mem_iff] at hi
  obtain ⟨name, hname, rfl⟩ := List.mem_map.1 hi
  obtain ⟨j, rfl⟩ := isDocumentName_iff.1 (hnames name hname)
  by_cases hj : j = ""
  · rw [hj]
    decide +kernel
  · rwa [stem_document hj]

/-- What is listed are the stems of the files that are named like documents. -/
theorem listed_eq (sound : d.Sound) {listed : List String} (h : c.ids env d = .ok listed) :
    ∃ names : List String, names.Nodup ∧
      (∀ name, name ∈ names ↔
        isDocumentName name = true ∧ (d.fileIn? (c.directory env) name).isSome = true) ∧
      listed = sortBy id (names.map Path.stem) := by
  have reach := exists_ids_iff.1 ⟨_, h⟩
  by_cases hdir : ∃ place, d.locate (c.directory env) = .ok (place, some .directory)
  · obtain ⟨place, hl⟩ := hdir
    have htold : ∀ name ∈ documentNames d place, d.isFile ((c.directory env).join name) =
        .ok (d.fileIn? (c.directory env) name).isSome := by
      intro name hname
      obtain ⟨⟨entry, hentry⟩, hdocument⟩ := mem_documentNames.1 hname
      exact Disk.isFile_join (sound.fits_of_child hentry) hl
        (reach.children place hl (name, entry) hentry hdocument)
    rw [ids_of_directory hl, filesAmong_eq htold] at h
    refine ⟨_, ((sound.nodup_children place).filter _).filter _, fun name => ?_,
      (Except.ok.inj h).symm⟩
    rw [List.mem_filter, ← documentNames, mem_documentNames, and_assoc, and_iff_right_iff_imp]
    rintro ⟨-, hsome⟩
    obtain ⟨bytes, hfile⟩ := Option.isSome_iff_exists.1 hsome
    rw [Disk.fileIn?_of_locate hl, Disk.fileAt?_eq_some_iff] at hfile
    exact ⟨_, sound.mem_children_iff.2 hfile⟩
  · have hnone : ∀ place, d.locate (c.directory env) ≠ .ok (place, some .directory) :=
      fun place hl => hdir ⟨place, hl⟩
    rw [ids_of_no_directory reach.directory hnone] at h
    refine ⟨[], List.nodup_nil, fun name => ?_, (Except.ok.inj h).symm⟩
    refine iff_of_false List.not_mem_nil fun ⟨_, hsome⟩ => ?_
    obtain ⟨bytes, hfile⟩ := Option.isSome_iff_exists.1 hsome
    exact hdir (Disk.locate_of_fileIn? hfile)

end Ids

/-! ## What is opened -/

/-- The bytes of the document of an id, if there is a file for it. -/
def document? (env : Environment) (d : Disk) (c : Catalogue) (id : String) : Option (List UInt8) :=
  d.fileIn? (c.directory env) (id ++ ".json")

/-- Whether there is a document for an id. -/
def HasDocument (env : Environment) (d : Disk) (c : Catalogue) (id : String) : Prop :=
  (document? env d c id).isSome = true

section Listed

variable {env : Environment} {d : Disk} {c : Catalogue} {listed : List String} (sound : d.Sound)
  (h : c.ids env d = .ok listed)

include sound h

theorem mem_listed_iff (i : String) : i ∈ listed ↔
    i ≠ "" ∧ HasDocument env d c i ∨ i = ".json" ∧ HasDocument env d c "" := by
  obtain ⟨names, -, hnames, rfl⟩ := listed_eq sound h
  rw [(perm_sortBy id _).mem_iff, List.mem_map]
  constructor
  · rintro ⟨name, hname, rfl⟩
    obtain ⟨hdocument, hsome⟩ := (hnames name).1 hname
    obtain ⟨j, rfl⟩ := isDocumentName_iff.1 hdocument
    by_cases hj : j = ""
    · rw [hj] at hsome ⊢
      exact .inr ⟨by decide +kernel, hsome⟩
    · rw [stem_document hj]
      exact .inl ⟨hj, hsome⟩
  · rintro (⟨hi, hdocument⟩ | ⟨rfl, hdocument⟩)
    · exact ⟨i ++ ".json", (hnames _).2 ⟨isDocumentName_iff.2 ⟨i, rfl⟩, hdocument⟩,
        stem_document hi⟩
    · exact ⟨"" ++ ".json", (hnames _).2 ⟨isDocumentName_iff.2 ⟨"", rfl⟩, hdocument⟩,
        by decide +kernel⟩

/-- The ids are listed in order. -/
theorem pairwise_listed : listed.Pairwise fun i j => i ≤ j := by
  obtain ⟨names, -, -, rfl⟩ := listed_eq sound h
  exact pairwise_sortBy id _

/-- No id is listed twice unless it is for the file that is named by the suffix alone. -/
theorem nodup_listed (hbare : ¬HasDocument env d c "") : listed.Nodup := by
  obtain ⟨names, hnodup, hnames, rfl⟩ := listed_eq sound h
  rw [(perm_sortBy id _).nodup_iff, List.Nodup, List.pairwise_map]
  have hid : ∀ name ∈ names, ∃ i, i ≠ "" ∧ name = i ++ ".json" := by
    intro name hname
    obtain ⟨hdocument, hsome⟩ := (hnames name).1 hname
    obtain ⟨i, rfl⟩ := isDocumentName_iff.1 hdocument
    refine ⟨i, ?_, rfl⟩
    rintro rfl
    exact hbare hsome
  refine hnodup.imp_of_mem fun {name other} hname hother hne heq => hne ?_
  obtain ⟨i, hi, rfl⟩ := hid name hname
  obtain ⟨j, hj, rfl⟩ := hid other hother
  rw [stem_document hi, stem_document hj] at heq
  rw [heq]

/-- The file of a document can be reached, and its name fits. -/
theorem fits_of_document {i : String} {bytes : List UInt8}
    (hfile : document? env d c i = some bytes) :
    Disk.Fits (i ++ ".json") ∧ ¬d.TooLong (c.file env i) := by
  obtain ⟨place, hl⟩ := Disk.locate_of_fileIn? hfile
  rw [document?, Disk.fileIn?_of_locate hl, Disk.fileAt?_eq_some_iff,
    ← sound.mem_children_iff] at hfile
  have hdocument : isDocumentName (i ++ ".json") = true := isDocumentName_iff.2 ⟨i, rfl⟩
  have reach := exists_ids_iff.1 ⟨listed, h⟩
  exact ⟨sound.fits_of_child hfile,
    reach.children place hl (i ++ ".json", .file bytes) hfile hdocument⟩

/-- Opening an id that is no path opens the document of that id. -/
theorem readBytes_file_iff {i : String} (plain : '/' ∉ i.toList) {bytes : List UInt8} :
    d.readBytes (c.file env i) = .ok bytes ↔ document? env d c i = some bytes := by
  constructor
  · exact Disk.fileIn?_of_readBytes (Path.isName_json plain)
  · intro hfile
    obtain ⟨fits, reached⟩ := fits_of_document sound h hfile
    exact Disk.readBytes_of_fileIn? fits hfile reached

end Listed

/-- An episode is missing only if its file is not found. -/
theorem not_found_of_missing {d : Disk} {file other : Path} {id : String}
    (h : readEpisode d file id = .error (.missing other)) :
    ∃ path, d.readBytes file = .error (.refused .notFound path) := by
  obtain hread | ⟨j, -, hbuilt⟩ := bind_error_iff.1 h
  · cases hbytes : d.readBytes file with
    | ok bytes =>
      rw [readJson, Disk.readText_of_bytes hbytes] at hread
      cases hdecoded : Text.decode bytes with
      | error fault =>
        rw [hdecoded] at hread
        cases hread
      | ok text =>
        rw [hdecoded] at hread
        simp only at hread
        split at hread <;> cases hread
    | error fault =>
      rw [readJson, Disk.readText_of_refused hbytes] at hread
      cases fault with
      | refused problem path =>
        cases problem with
        | notFound => exact ⟨path, rfl⟩
        | _ => cases hread
      | _ => cases hread
  · cases j with
    | object members =>
      dsimp only at hbuilt
      split at hbuilt <;> cases hbuilt
    | _ => cases hbuilt

theorem get_ne_missing {env : Environment} {d : Disk} {c : Catalogue} {id : String}
    {bytes : List UInt8} (h : d.readBytes (c.file env id) = .ok bytes) (other : Path) :
    (get env d id c).1 ≠ .error (.missing other) := by
  intro hmissing
  rw [get] at hmissing
  split at hmissing
  · cases hmissing
  · split at hmissing
    · cases hmissing
    · next fault hread =>
      cases hmissing
      obtain ⟨path, hpath⟩ := not_found_of_missing hread
      rw [h] at hpath
      cases hpath

/-- Listing and opening, on any sound disk:

* The ids are listed just if no path is too long, neither that of the directory nor that of
  anything in it that is named like a document.
* They are in order, and they are the ids of the documents, but for the file that is named by the
  suffix alone: its id is empty, and its whole name is listed instead.
* So each id of a document is listed once, and nothing else is, just if there is no such file.
* Opening an id that is no path opens its document.  No episode with a document is missing. -/
theorem listed_once_iff_no_bare_suffix {d : Disk} (sound : d.Sound) (env : Environment)
    (c : Catalogue) :
    ((∃ listed, c.ids env d = .ok listed) ↔ InReach env d c) ∧
    ∀ listed, c.ids env d = .ok listed →
      (listed.Pairwise fun i j => i ≤ j) ∧
      (∀ i, i ∈ listed ↔
        i ≠ "" ∧ HasDocument env d c i ∨ i = ".json" ∧ HasDocument env d c "") ∧
      ((listed.Pairwise fun i j => i < j) ∧ (∀ i, i ∈ listed ↔ HasDocument env d c i) ↔
        ¬HasDocument env d c "") ∧
      (∀ i, '/' ∉ i.toList → ∀ bytes,
        d.readBytes (c.file env i) = .ok bytes ↔ document? env d c i = some bytes) ∧
      ∀ i, HasDocument env d c i → ∀ known other,
        (get env d i ⟨c.base, known⟩).1 ≠ .error (.missing other) := by
  refine ⟨exists_ids_iff, fun listed h => ⟨pairwise_listed sound h, mem_listed_iff sound h, ?_,
    fun i plain bytes => readBytes_file_iff sound h plain, fun i hdocument known other => ?_⟩⟩
  · constructor
    · rintro ⟨-, hexact⟩ hbare
      have hempty := (mem_listed_iff sound h "").1 ((hexact "").2 hbare)
      simp at hempty
    · intro hbare
      constructor
      · have hboth := (pairwise_listed sound h).and (nodup_listed sound h hbare)
        refine hboth.imp fun {i j} ⟨hle, hne⟩ => ?_
        by_contra hlt
        exact hne (String.le_antisymm hle (String.not_lt.1 hlt))
      · intro i
        rw [mem_listed_iff sound h, or_iff_left fun hjson => hbare hjson.2]
        refine and_iff_right_of_imp ?_
        rintro hdocument rfl
        exact hbare hdocument
  · obtain ⟨bytes, hfile⟩ := Option.isSome_iff_exists.1 hdocument
    obtain ⟨fits, -⟩ := fits_of_document sound h hfile
    have plain : '/' ∉ i.toList := fun hslash =>
      fits.isName.no_slash (String.toList_append ▸ List.mem_append_left _ hslash)
    have held : d.readBytes (file env ⟨c.base, known⟩ i) = .ok bytes :=
      (readBytes_file_iff sound h plain).2 hfile
    exact get_ne_missing held other

/-- A disk with files of some names in a directory. -/
def shelf (names : List String) : Disk :=
  ⟨(["eps"], .directory) :: names.map fun name => (["eps", name], .file (Text.encode "[]")), []⟩

/-- Names with several dots, or with one at the start, a name that is no document's, and a
directory that is named like one. -/
theorem dotted_names_are_listed :
    let env : Environment := ⟨Table.empty, Table.empty, false, Path.ofText "/app"⟩
    let c := Catalogue.new (some (Path.ofText "eps"))
    let bare := shelf ["mill.json", "b.2.json", ".ford.json", "notes.txt", "..json", "Z.json"]
    let d := bare.put ["eps", "den.json"] .directory
    let listed := [".", ".ford", "Z", "b.2", "mill"]
    d.Sound ∧ InReach env d c ∧ c.ids env d = .ok listed ∧ ¬HasDocument env d c "" ∧
      (listed.Pairwise fun i j => i < j) ∧ (∀ i, i ∈ listed ↔ HasDocument env d c i) ∧
      document? env d c "den" = none ∧
      ∀ known other, (get env d "b.2" ⟨c.base, known⟩).1 ≠ .error (.missing other) := by
  intro env c bare d listed
  have sound : d.Sound := by decide +kernel
  have hlisted : c.ids env d = .ok listed := by decide +kernel
  have hbare : ¬HasDocument env d c "" := by
    rw [HasDocument]
    decide +kernel
  obtain ⟨hreach, listing⟩ := listed_once_iff_no_bare_suffix sound env c
  obtain ⟨-, -, hexact, -, hopens⟩ := listing listed hlisted
  obtain ⟨strict, same⟩ := hexact.2 hbare
  exact ⟨sound, hreach.1 ⟨listed, hlisted⟩, hlisted, hbare, strict, same, by decide +kernel,
    hopens "b.2" ((same "b.2").1 (by decide +kernel))⟩

/-- The file that is named by the suffix alone is listed under its whole name, which is missing
when it is opened; with a document for that id the name is listed twice. -/
theorem bare_suffix_is_listed :
    let env : Environment := ⟨Table.empty, Table.empty, false, Path.ofText "/app"⟩
    let c := Catalogue.new (some (Path.ofText "eps"))
    let one := shelf [".json"]
    let two := shelf [".json", ".json.json"]
    one.Sound ∧ two.Sound ∧ c.ids env one = .ok [".json"] ∧
      (document? env one c "").isSome = true ∧ document? env one c ".json" = none ∧
      (get env one ".json" c).1 = .error (.missing (Path.ofText "eps/.json.json")) ∧
      c.ids env two = .ok [".json", ".json"] := by
  decide +kernel

end Catalogue

end Storyline
