import Storyline.Proofs.Disk.Basic
import Storyline.Proofs.Disk.Path

/-!
# Storyline.Proofs.Disk.Place

The places that paths lead to, and the files there.  The place of a path is known from its parts
alone, whatever lies on the way.  Making directories changes no file anywhere, and writing a
file changes the one at its place and no other.
-/

namespace Storyline.Disk

/-! ## Places -/

/-- The place that parts lead to, if they lead anywhere. -/
def descend : List String → List String → List String
  | place, [] => place
  | place, part :: rest => descend (if part = ".." then place.dropLast else place ++ [part]) rest

/-- The place of a path. -/
def placeOf (d : Disk) (p : Path) : List String :=
  descend (if p.root = .here then d.here else []) p.parts

theorem placeOf_of_here {d after : Disk} (h : after.here = d.here) (p : Path) :
    after.placeOf p = d.placeOf p := by
  rw [placeOf, placeOf, h]

theorem descend_append (start parts more : List String) :
    descend start (parts ++ more) = descend (descend start parts) more := by
  induction parts generalizing start with
  | nil => rfl
  | cons part rest ih => exact ih _

variable {d : Disk} {place : List String}

theorem follow_place {start parts : List String} {found : Option DiskEntry}
    (h : d.follow start parts = .ok (place, found)) : place = descend start parts := by
  induction parts generalizing start with
  | nil => cases h; rfl
  | cons part rest ih =>
    obtain ⟨up, h⟩ | ⟨down, -, ⟨-, h⟩ | ⟨-, rfl, hplace, -⟩⟩ := follow_cases h
    · rw [descend, if_pos up]
      exact ih h
    · rw [descend, if_neg down]
      exact ih h
    · rw [descend, if_neg down]
      exact hplace

/-- A path that leads somewhere leads to its place. -/
theorem locate_place {p : Path} {found : Option DiskEntry} (h : d.locate p = .ok (place, found)) :
    place = d.placeOf p :=
  follow_place (locate_ok_iff.1 h).2.2

/-- The place of a name that is joined to a path lies in the place of the path. -/
theorem placeOf_join {name : String} (h : Path.IsName name) (d : Disk) (p : Path) :
    d.placeOf (p.join name) = d.placeOf p ++ [name] := by
  rw [h.join, placeOf, placeOf, descend_append, descend, if_neg h.ne_dots, descend]

/-! ## Files -/

/-- The bytes of the file at a place, if a file lies there. -/
def fileAt? (d : Disk) (place : List String) : Option (List UInt8) :=
  match d.entry? place with
  | some (.file bytes) => some bytes
  | _ => none

theorem fileAt?_eq_some_iff {bytes : List UInt8} :
    d.fileAt? place = some bytes ↔ d.entry? place = some (.file bytes) := by
  rw [fileAt?]
  split
  · next found h => rw [h, Option.some.injEq, Option.some.injEq, DiskEntry.file.injEq]
  · next hother => exact iff_of_false (fun h => by cases h) (hother bytes)

theorem fileAt?_of_readBytes {p : Path} {bytes : List UInt8} (h : d.readBytes p = .ok bytes) :
    d.fileAt? (d.placeOf p) = some bytes := by
  obtain ⟨place, hl⟩ := readBytes_ok_iff.1 h
  rw [← locate_place hl, fileAt?_eq_some_iff]
  exact entry?_of_locate hl (fun h => by cases h)

/-- Where no file lies none is put by making directories, and the working directory stays. -/
theorem fileAt?_ensureDirectory (d : Disk) (q : Path) :
    (ensureDirectory q d).2.here = d.here ∧
      ∀ place, (ensureDirectory q d).2.fileAt? place = d.fileAt? place := by
  refine ensureDirectory_keeps
    (fun after => after.here = d.here ∧ ∀ place, after.fileAt? place = d.fileAt? place)
    (fun mid q after same made => ?_) ⟨rfl, fun _ => rfl⟩
  obtain ⟨⟨other, found⟩, hl, hput⟩ := bind_ok_iff.1 made
  cases found with
  | some entry => cases hput
  | none =>
    cases hput
    obtain ⟨hne, free⟩ := entry?_of_follow (locate_ok_iff.1 hl).2.2 (fun h => by cases h)
    refine ⟨same.1, fun place => (same.2 place).symm ▸ ?_⟩
    by_cases heq : place = other
    · rw [heq, fileAt?, fileAt?, entry?_put_self mid _ hne, free]
    · rw [fileAt?, fileAt?, entry?_put_of_ne mid _ heq]

/-- Writing changes no file but the one at the place of the path. -/
theorem fileAt?_writeBytes {p : Path} {bytes : List UInt8} {after : Disk}
    (h : d.writeBytes p bytes = .ok after) :
    after.here = d.here ∧ ∀ place, place ≠ d.placeOf p → after.fileAt? place = d.fileAt? place := by
  obtain ⟨there, found, hl, -, rfl⟩ := writeBytes_ok h
  refine ⟨rfl, fun place hne => ?_⟩
  rw [← locate_place hl] at hne
  rw [fileAt?, fileAt?, entry?_put_of_ne d _ hne]

/-! ## Children -/

theorem child_iff {e : List String × DiskEntry} {name : String} {entry : DiskEntry} :
    (if e.1.dropLast = place then e.1.getLast?.map fun name => (name, e.2) else none) =
        some (name, entry) ↔ e = (place ++ [name], entry) := by
  obtain ⟨parts, found⟩ := e
  constructor
  · intro h
    split at h
    · next hplace =>
      obtain ⟨last, hlast, heq⟩ := Option.map_eq_some_iff.1 h
      cases heq
      obtain ⟨above, rfl⟩ := List.getLast?_eq_some_iff.1 hlast
      rw [List.dropLast_concat] at hplace
      rw [hplace]
    · cases h
  · intro h
    cases h
    rw [if_pos (List.dropLast_concat), List.getLast?_concat]
    rfl

theorem mem_children_iff {name : String} {entry : DiskEntry} :
    (name, entry) ∈ d.children place ↔ (place ++ [name], entry) ∈ d.entries := by
  simp only [children, List.mem_filterMap, child_iff, exists_eq_right]

theorem mem_entries_of_found {entry : DiskEntry} (hne : place ≠ []) (h : d.entry? place = some entry) :
    (place, entry) ∈ d.entries := by
  rw [ entry?, if_neg hne] at h
  obtain ⟨before, after, hentries, -⟩ := List.lookup_eq_some_iff.1 h
  rw [hentries]
  exact List.mem_append_right before List.mem_cons_self

/-- In a directory without children there are no files. -/
theorem fileAt?_of_no_children (h : d.children place = []) (name : String) :
    d.fileAt? (place ++ [name]) = none := by
  refine Option.eq_none_iff_forall_ne_some.2 fun bytes hfile => ?_
  have hmem := mem_entries_of_found (List.concat_ne_nil name place) (fileAt?_eq_some_iff.1 hfile)
  rw [← mem_children_iff, h] at hmem
  cases hmem

/-! ## Directories -/

section Directory

variable {start parts : List String} {name : String}

theorem follow_append (h : d.follow start parts = .ok (place, some .directory))
    (more : List String) : d.follow start (parts ++ more) = d.follow place more := by
  induction parts generalizing start with
  | nil => cases h; rfl
  | cons part rest ih =>
    obtain ⟨rfl, h⟩ | ⟨down, fits, ⟨hd, h⟩ | ⟨hother, -, -, hfound⟩⟩ := follow_cases h
    · exact follow_up d ▸ ih h
    · exact follow_into down fits hd ▸ ih h
    · exact absurd hfound.symm hother

/-- Parts before the last one lead to a directory. -/
theorem follow_of_concat {found : Option DiskEntry}
    (h : d.follow start (parts ++ [name]) = .ok (place, found)) :
    ∃ above, d.follow start parts = .ok (above, some .directory) ∧
      d.follow above [name] = .ok (place, found) := by
  induction parts generalizing start with
  | nil => exact ⟨start, rfl, h⟩
  | cons part rest ih =>
    obtain ⟨rfl, h⟩ | ⟨down, fits, ⟨hd, h⟩ | ⟨-, hnil, -⟩⟩ := follow_cases h
    · rw [follow_up]
      exact ih h
    · rw [follow_into down fits hd]
      exact ih h
    · exact absurd hnil (List.concat_ne_nil name rest)

end Directory

/-- Whether a name can be that of what lies in a directory of a disk. -/
structure Fits (name : String) : Prop where
  isName : Path.IsName name
  plain : '\x00' ∉ name.toList
  short : name.utf8ByteSize ≤ nameLimit

instance decideFits (name : String) : Decidable (Fits name) :=
  decidable_of_iff
    (Path.IsName name ∧ '\x00' ∉ name.toList ∧ name.utf8ByteSize ≤ nameLimit)
    ⟨fun h => ⟨h.1, h.2.1, h.2.2⟩, fun h => ⟨h.isName, h.plain, h.short⟩⟩

/-- A disk is sound if no two entries share a place and all places are made of names that fit. -/
structure Sound (d : Disk) : Prop where
  distinct : (d.entries.map Prod.fst).Nodup
  fits : ∀ e ∈ d.entries, ∀ part ∈ e.1, Fits part

instance decideSound (d : Disk) : Decidable d.Sound :=
  decidable_of_iff
    ((d.entries.map Prod.fst).Nodup ∧ ∀ e ∈ d.entries, ∀ part ∈ e.1, Fits part)
    ⟨fun h => ⟨h.1, h.2⟩, fun h => ⟨h.distinct, h.fits⟩⟩

namespace Sound

variable {name : String} {entry : DiskEntry} (sound : d.Sound)

include sound

theorem mem_children_iff :
    (name, entry) ∈ d.children place ↔ d.entry? (place ++ [name]) = some entry := by
  have hne := List.concat_ne_nil name place
  rw [Disk.mem_children_iff]
  refine ⟨fun hmem => ?_, mem_entries_of_found hne⟩
  rw [ entry?, if_neg hne, List.lookup_eq_some_iff]
  obtain ⟨before, after, hentries⟩ := List.append_of_mem hmem
  refine ⟨before, after, hentries, fun e he => bne_iff_ne.2 fun heq => ?_⟩
  have hdistinct := sound.distinct
  rw [hentries, List.map_append, List.nodup_append] at hdistinct
  exact hdistinct.2.2 _ (List.mem_map_of_mem he) _ List.mem_cons_self heq.symm

/-- No two children of a directory share a name. -/
theorem nodup_children (place : List String) : ((d.children place).map Prod.fst).Nodup := by
  have hdistinct := List.pairwise_map.1 sound.distinct
  rw [List.Nodup, List.pairwise_map, children, List.pairwise_filterMap]
  refine hdistinct.imp fun hne child hchild other hother heq => hne ?_
  rw [child_iff.1 hchild, child_iff.1 hother, heq]

theorem fits_of_child (h : (name, entry) ∈ d.children place) : Fits name :=
  sound.fits _ (Disk.mem_children_iff.1 h) _ (List.mem_append_right place List.mem_cons_self)

end Sound

/-- Whether a path is too long, or has a name that is. -/
def TooLong (d : Disk) (p : Path) : Prop := d.locate p = .error (.refused .nameTooLong p)

section Join

variable {dir : Path} {name : String}

theorem nul_not_mem_of_locate {p : Path} {came : List String × Option DiskEntry}
    (h : d.locate p = .ok came) : '\x00' ∉ p.text.toList := by
  simpa using (locate_ok_iff.1 h).1

theorem nul_not_mem_join_of_locate (hname : Fits name)
    (h : d.locate dir = .ok (place, some .directory)) :
    '\x00' ∉ (dir.join name).text.toList := by
  rw [Path.nul_mem_text_join hname.isName]
  exact not_or.2 ⟨nul_not_mem_of_locate h, hname.plain⟩

/-- A name that fits leads from a directory to what lies there, if the path is short enough. -/
theorem locate_join (hname : Fits name) (h : d.locate dir = .ok (place, some .directory))
    (short : (dir.join name).text.utf8ByteSize < pathLimit) :
    d.locate (dir.join name) = .ok (place ++ [name], d.entry? (place ++ [name])) := by
  have hplain := nul_not_mem_join_of_locate hname h
  refine locate_ok_iff.2 ⟨by simpa using hplain, short, ?_⟩
  rw [hname.isName.join]
  exact (follow_append (locate_ok_iff.1 h).2.2 [name]).trans
    (follow_name hname.isName.ne_dots (Nat.not_lt.2 hname.short))

/-- So it does if the path is not too long. -/
theorem locate_join_of_reached (hname : Fits name)
    (h : d.locate dir = .ok (place, some .directory)) (reached : ¬d.TooLong (dir.join name)) :
    d.locate (dir.join name) = .ok (place ++ [name], d.entry? (place ++ [name])) := by
  refine locate_join hname h (Nat.lt_of_not_le fun hlong => reached ?_)
  have hplain := nul_not_mem_join_of_locate hname h
  rw [TooLong, locate, if_neg (by simpa using hplain), if_pos hlong]

/-- What a name that is joined to a path leads to lies in the directory of the path. -/
theorem locate_of_join {found : Option DiskEntry} (hname : Path.IsName name)
    (h : d.locate (dir.join name) = .ok (place, found)) :
    ∃ above, d.locate dir = .ok (above, some .directory) ∧ place = above ++ [name] ∧
      found = d.entry? place := by
  obtain ⟨-, hshort, hfollow⟩ := locate_ok_iff.1 h
  have hplain : '\x00' ∉ dir.text.toList := fun hnul =>
    nul_not_mem_of_locate h ((Path.nul_mem_text_join hname dir).2 (.inl hnul))
  have hdir := Nat.lt_of_le_of_lt (Path.size_text_le_join hname dir) hshort
  rw [hname.join] at hfollow
  obtain ⟨above, habove, hlast⟩ := follow_of_concat hfollow
  refine ⟨above, locate_ok_iff.2 ⟨by simpa using hplain, hdir, habove⟩, ?_⟩
  obtain ⟨hup, -⟩ | ⟨-, hfits, -⟩ := follow_cases hlast
  · exact absurd hup hname.ne_dots
  · rw [follow_name hname.ne_dots hfits] at hlast
    cases hlast
    exact ⟨rfl, rfl⟩

end Join

/-! ## Going up -/

section Parent

variable {file : Path} {found : Option DiskEntry}

/-- The last part of a path leads on from the directory that the rest of it leads to. -/
theorem locate_parent (h : d.locate file = .ok (place, found)) (hne : file.parts ≠ []) :
    ∃ above, d.locate file.parent = .ok (above, some .directory) ∧
      d.follow above [file.parts.getLast hne] = .ok (place, found) := by
  obtain ⟨hnul, hshort, hfollow⟩ := locate_ok_iff.1 h
  have hplain := Path.nul_not_mem_text_parent (p := file) (by simpa using hnul)
  have hsize := Nat.lt_of_le_of_lt (Path.size_text_parent_le file) hshort
  rw [← List.dropLast_concat_getLast hne] at hfollow
  obtain ⟨above, habove, hlast⟩ := follow_of_concat hfollow
  exact ⟨above, locate_ok_iff.2 ⟨by simpa using hplain, hsize, habove⟩, hlast⟩

/-- Where there is a directory, there is one above it or it is the root. -/
theorem exists_directory_parent (h : d.locate file = .ok (place, some .directory)) :
    ∃ above, d.locate file.parent = .ok (above, some .directory) := by
  by_cases hnone : file.parts = []
  · have hsame : file.parent = file := by rw [Path.parent, hnone, List.dropLast_nil, ← hnone]
    rw [hsame]
    exact ⟨place, h⟩
  · obtain ⟨above, habove, -⟩ := locate_parent h hnone
    exact ⟨above, habove⟩

/-- What is no directory lies in the directory that its path leads to without the last part. -/
theorem exists_locate_parent (h : d.locate file = .ok (place, found))
    (hfound : found ≠ some .directory) :
    ∃ above, d.locate file.parent = .ok (above, some .directory) ∧ above ≠ place := by
  by_cases hnone : file.parts = []
  · have hfollow := (locate_ok_iff.1 h).2.2
    rw [hnone] at hfollow
    cases hfollow
    exact absurd rfl hfound
  · obtain ⟨above, habove, hlast⟩ := locate_parent h hnone
    refine ⟨above, habove, ?_⟩
    obtain ⟨-, hup⟩ | ⟨-, -, ⟨-, hdown⟩ | ⟨-, -, rfl, -⟩⟩ := follow_cases hlast
    · cases hup
      exact absurd rfl hfound
    · cases hdown
      exact absurd rfl hfound
    · exact fun heq => by simpa using congrArg List.length heq

/-- Once a file is written its directory is there, and bytes are written to it again. -/
theorem writeBytes_again {bytes : List UInt8} {after : Disk}
    (h : d.writeBytes file bytes = .ok after) (more : List UInt8) :
    ensureDirectory file.parent after = (.ok (), after) ∧
      ∃ again, after.writeBytes file more = .ok again := by
  obtain ⟨place, found, hl, hfound, rfl⟩ := writeBytes_ok h
  obtain ⟨above, habove, hne⟩ := exists_locate_parent hl hfound
  obtain ⟨hnul, hshort, hfollow⟩ := locate_ok_iff.1 habove
  have free : d.entry? place ≠ some .directory := (entry?_of_locate hl hfound).symm ▸ hfound
  have hstays := follow_put_of_ne hfollow free hne (.file bytes)
  exact ⟨ensureDirectory_of_directory (locate_ok_iff.2 ⟨hnul, hshort, hstays⟩),
    _, writeBytes_of_locate (locate_put hl hfound (.file bytes)) nofun more⟩

end Parent

/-! ## What lies at a path -/

section Lies

variable {p : Path}

/-- A path is refused by its own name. -/
theorem path_of_refused {problem : DiskProblem} {q : Path}
    (h : d.locate p = .error (.refused problem q)) : q = p := by
  rw [locate] at h
  split at h
  · cases h
  split at h
  · cases h; rfl
  · obtain ⟨_, -, hproblem⟩ := mapError_error_iff.1 h
    cases hproblem
    rfl

/-- It is told what lies at a path unless the path is too long. -/
theorem exists_lies?_iff : (∃ found, d.lies? p = .ok found) ↔ ¬d.TooLong p := by
  rw [lies?, TooLong]
  cases h : d.locate p with
  | ok came => exact iff_of_true ⟨_, rfl⟩ (fun hlong => by cases hlong)
  | error fault =>
    cases fault with
    | refused problem q =>
      rw [path_of_refused h]
      cases problem with
      | nameTooLong => exact iff_of_false (by rintro ⟨_, htold⟩; cases htold) (fun hne => hne rfl)
      | _ => exact iff_of_true ⟨_, rfl⟩ (fun hlong => by cases hlong)
    | _ => exact iff_of_true ⟨_, rfl⟩ (fun hlong => by cases hlong)

/-- What is told to lie at a path is what the path leads to. -/
theorem lies?_eq_some_iff {entry : DiskEntry} :
    d.lies? p = .ok (some entry) ↔ ∃ place, d.locate p = .ok (place, some entry) := by
  rw [lies?]
  split
  · next place found h =>
    rw [h, Except.ok.injEq]
    constructor
    · rintro rfl
      exact ⟨place, rfl⟩
    · rintro ⟨_, heq⟩
      cases heq
      rfl
  · next h => exact iff_of_false (fun h => by cases h) (by rintro ⟨_, hl⟩; rw [h] at hl; cases hl)
  · next h => exact iff_of_false (fun h => by cases h) (by rintro ⟨_, hl⟩; rw [h] at hl; cases hl)

theorem isDirectory_eq_true_iff :
    d.isDirectory p = .ok true ↔ ∃ place, d.locate p = .ok (place, some .directory) := by
  rw [← lies?_eq_some_iff, isDirectory, map_ok_iff]
  constructor
  · rintro ⟨found, hfound, heq⟩
    rw [hfound, beq_iff_eq.1 heq]
  · exact fun h => ⟨_, h, rfl⟩

/-- It is told whether a path leads to a file unless the path is too long. -/
theorem exists_isFile_iff : (∃ found, d.isFile p = .ok found) ↔ ¬d.TooLong p := by
  rw [← exists_lies?_iff]
  constructor
  · rintro ⟨found, h⟩
    obtain ⟨entry, hentry, -⟩ := map_ok_iff.1 h
    exact ⟨entry, hentry⟩
  · rintro ⟨entry, h⟩
    exact ⟨_, map_ok_iff.2 ⟨entry, h, rfl⟩⟩

end Lies

/-! ## Files of a directory -/

/-- The bytes of the file of a name in the directory that a path leads to. -/
def fileIn? (d : Disk) (dir : Path) (name : String) : Option (List UInt8) :=
  match d.locate dir with
  | .ok (place, some .directory) => d.fileAt? (place ++ [name])
  | _ => none

section FileIn

variable {dir : Path} {name : String} {bytes : List UInt8}

theorem fileIn?_of_locate (h : d.locate dir = .ok (place, some .directory)) (name : String) :
    d.fileIn? dir name = d.fileAt? (place ++ [name]) := by
  rw [fileIn?, h]

theorem locate_of_fileIn? (h : d.fileIn? dir name = some bytes) :
    ∃ place, d.locate dir = .ok (place, some .directory) := by
  rw [fileIn?] at h
  split at h
  · next place hl => exact ⟨place, hl⟩
  · cases h

theorem fileIn?_of_readBytes (hname : Path.IsName name)
    (h : d.readBytes (dir.join name) = .ok bytes) : d.fileIn? dir name = some bytes := by
  obtain ⟨place, hl⟩ := readBytes_ok_iff.1 h
  obtain ⟨above, habove, rfl, hfound⟩ := locate_of_join hname hl
  rw [fileIn?_of_locate habove, fileAt?_eq_some_iff, hfound]

/-- What is told of a name in a directory, unless its path is too long. -/
theorem isFile_join (hname : Fits name) (h : d.locate dir = .ok (place, some .directory))
    (reached : ¬d.TooLong (dir.join name)) :
    d.isFile (dir.join name) = .ok (d.fileIn? dir name).isSome := by
  have hl := locate_join_of_reached hname h reached
  rw [isFile, lies?, hl, fileIn?_of_locate h, fileAt?]
  cases d.entry? (place ++ [name]) with
  | none => rfl
  | some entry => cases entry <;> rfl

theorem readBytes_of_fileIn? (hname : Fits name) (h : d.fileIn? dir name = some bytes)
    (reached : ¬d.TooLong (dir.join name)) : d.readBytes (dir.join name) = .ok bytes := by
  obtain ⟨place, hl⟩ := locate_of_fileIn? h
  rw [fileIn?_of_locate hl, fileAt?_eq_some_iff] at h
  have hjoined := locate_join_of_reached hname hl reached
  rw [h] at hjoined
  exact readBytes_ok_iff.2 ⟨_, hjoined⟩

end FileIn

end Storyline.Disk
