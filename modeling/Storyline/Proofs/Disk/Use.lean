import Storyline.Proofs.Disk.Place

/-!
# Storyline.Proofs.Disk.Use

Which files an action uses.  Two disks are *alike on* some places if the same lies everywhere
on both, a directory, a file or nothing, and the files at those places hold the same.  An action
*uses only* the files at some places if it leaves all other files as they are and makes the same
of disks that are alike on those places, whatever the other files hold.

To make directories is to use no file; to read or write a path is to use only the file at its
place.  When directories have been made, the directory is there just if nothing was refused.
-/

namespace Storyline.Disk

/-! ## Disks that are alike -/

/-- Two finds of one kind: nothing, directories or files, whatever the files hold. -/
inductive SameKind : Option DiskEntry → Option DiskEntry → Prop
  | nothing : SameKind none none
  | directory : SameKind (some .directory) (some .directory)
  | file (bytes other : List UInt8) : SameKind (some (.file bytes)) (some (.file other))

theorem SameKind.refl (found : Option DiskEntry) : SameKind found found := by
  cases found with
  | none => exact .nothing
  | some entry =>
    cases entry with
    | file bytes => exact .file bytes bytes
    | directory => exact .directory

/-- Finds of one kind at one place. -/
def SameFind (came other : List String × Option DiskEntry) : Prop :=
  came.1 = other.1 ∧ SameKind came.2 other.2

/-- Two disks that differ at most in what files hold, and not in the files at some places. -/
structure AlikeOn (files : List (List String)) (d other : Disk) : Prop where
  here : d.here = other.here
  kinds : ∀ place, SameKind (d.entry? place) (other.entry? place)
  held : ∀ place ∈ files, d.fileAt? place = other.fileAt? place

namespace AlikeOn

variable {files : List (List String)} {d other : Disk} (h : AlikeOn files d other)

include h

theorem put (place : List String) (entry : DiskEntry) :
    AlikeOn files (d.put place entry) (other.put place entry) where
  here := h.here
  kinds there := by
    rw [entry?_put, entry?_put]
    split
    · exact .refl _
    · exact h.kinds there
  held there hfile := by
    have hheld := h.held there hfile
    rw [fileAt?, fileAt?] at hheld ⊢
    rw [entry?_put, entry?_put]
    by_cases hput : there = place ∧ place ≠ []
    · simp only [if_pos hput]
    · simp only [if_neg hput]
      exact hheld

/-- Parts lead to one place on both. -/
theorem follow (start parts : List String) :
    Agree SameFind (d.follow start parts) (other.follow start parts) := by
  induction parts generalizing start with
  | nil => exact .ok ⟨rfl, .directory⟩
  | cons part rest ih =>
    rw [follow.eq_def, follow.eq_def other]
    by_cases up : part = ".."
    · simp only [if_pos up]
      exact ih _
    by_cases long : nameLimit < part.utf8ByteSize
    · simp only [if_neg up, if_pos long]
      exact .error _
    simp only [if_neg up, if_neg long]
    -- Where the part leads hangs on the kind of what lies there, not on what a file holds.
    have hkind := h.kinds (start ++ [part])
    generalize d.entry? (start ++ [part]) = found, other.entry? (start ++ [part]) = found'
      at hkind
    cases hkind with
    | directory => exact ih _
    | nothing =>
      cases rest with
      | nil => exact .ok ⟨rfl, .nothing⟩
      | cons next rest => exact .error _
    | file bytes bytes' =>
      cases rest with
      | nil => exact .ok ⟨rfl, .file bytes bytes'⟩
      | cons next rest => exact .error _

theorem locate (p : Path) : Agree SameFind (d.locate p) (other.locate p) := by
  rw [Disk.locate, Disk.locate]
  split
  · exact .error _
  split
  · exact .error _
  rw [h.here]
  exact (h.follow _ p.parts).mapError _

theorem makeDirectory (p : Path) :
    Agree (AlikeOn files) (d.makeDirectory p) (other.makeDirectory p) := by
  rw [Disk.makeDirectory, Disk.makeDirectory]
  refine (h.locate p).bind ?_
  rintro ⟨place, found⟩ ⟨place', found'⟩ ⟨hplace, hkind⟩
  obtain rfl : place = place' := hplace
  cases hkind with
  | nothing => exact .ok (h.put place .directory)
  | directory => exact .error _
  | file bytes bytes' => exact .error _

theorem isDirectory (p : Path) : d.isDirectory p = other.isDirectory p := by
  have hlocate := h.locate p
  rw [Disk.isDirectory, Disk.isDirectory, lies?, lies?]
  generalize d.locate p = came, other.locate p = came' at hlocate
  cases hlocate with
  | error fault => rfl
  | @ok found found' same =>
    obtain ⟨place, entry⟩ := found
    obtain ⟨place', entry'⟩ := found'
    obtain ⟨-, hkind⟩ := same
    cases hkind <;> rfl

theorem excuse (p : Path) (fault : DiskFault) : d.excuse p fault = other.excuse p fault := by
  rw [excuse.eq_def, excuse.eq_def, h.isDirectory]

/-- A file at one of the places is read alike. -/
theorem readBytes {p : Path} (hp : d.placeOf p ∈ files) : d.readBytes p = other.readBytes p := by
  rw [Disk.readBytes, Disk.readBytes]
  cases hcame : d.locate p with
  | error fault => rw [(h.locate p).eq_error hcame]
  | ok came =>
    obtain ⟨⟨place', found'⟩, hcame', hplace, hkind⟩ := (h.locate p).eq_ok hcame
    obtain ⟨place, found⟩ := came
    obtain rfl : place = place' := hplace
    rw [hcame']
    cases hkind with
    | nothing => rfl
    | directory => rfl
    | file bytes bytes' =>
      have hheld := h.held place (locate_place hcame ▸ hp)
      have hentry := entry?_of_locate hcame (fun h => by cases h)
      have hentry' := entry?_of_locate hcame' (fun h => by cases h)
      rw [fileAt?_eq_some_iff.2 hentry, fileAt?_eq_some_iff.2 hentry'] at hheld
      rw [Option.some.inj hheld]

theorem readText {p : Path} (hp : d.placeOf p ∈ files) : d.readText p = other.readText p := by
  rw [Disk.readText, Disk.readText, h.readBytes hp]

/-- What files hold makes no difference to writing one. -/
theorem writeBytes (p : Path) (bytes : List UInt8) :
    Agree (AlikeOn files) (d.writeBytes p bytes) (other.writeBytes p bytes) := by
  rw [Disk.writeBytes, Disk.writeBytes]
  refine (h.locate p).bind ?_
  rintro ⟨place, found⟩ ⟨place', found'⟩ ⟨hplace, hkind⟩
  obtain rfl : place = place' := hplace
  cases hkind with
  | directory => exact .error _
  | nothing => exact .ok (h.put place (.file bytes))
  | file old old' => exact .ok (h.put place (.file bytes))

end AlikeOn

/-! ## Making directories -/

section Directories

variable {d : Disk} {p q : Path}

theorem exists_locate_of_made {after : Disk} (made : d.makeDirectory p = .ok after) :
    ∃ place, after.locate p = .ok (place, some .directory) := by
  rw [makeDirectory] at made
  obtain ⟨⟨place, found⟩, hl, hput⟩ := bind_ok_iff.1 made
  cases found with
  | some entry => cases hput
  | none =>
    cases hput
    exact ⟨place, locate_put hl (fun h => by cases h) .directory⟩

/-- A directory is not made where the path leads nowhere or something lies already. -/
theorem refused_of_makeDirectory {fault : DiskFault} (refused : d.makeDirectory p = .error fault) :
    d.locate p = .error fault ∨ fault = .refused .exists p := by
  rw [makeDirectory] at refused
  obtain unplaced | ⟨⟨place, found⟩, -, hput⟩ := bind_error_iff.1 refused
  · exact .inl unplaced
  · cases found with
    | none => cases hput
    | some entry =>
      cases hput
      exact .inr rfl

/-- A refusal is no matter just if the directory is there. -/
theorem excuse_ok_iff {fault : DiskFault} (refused : d.makeDirectory p = .error fault) :
    d.excuse p fault = .ok () ↔ ∃ place, d.locate p = .ok (place, some .directory) := by
  rw [← isDirectory_eq_true_iff]
  constructor
  · intro h
    rw [excuse.eq_def] at h
    split at h
    · cases h
    · cases h
    · obtain ⟨there, hthere, h⟩ := bind_ok_iff.1 h
      cases there with
      | true => exact hthere
      | false => cases h
  · intro hthere
    obtain ⟨place, hl⟩ := isDirectory_eq_true_iff.1 hthere
    obtain hnone | rfl := refused_of_makeDirectory refused
    · rw [hl] at hnone
      cases hnone
    · simp only [excuse, hthere]
      rfl

/-- One attempt to make a directory. -/
def attempt (p : Path) (d : Disk) : Except DiskFault Unit × Disk :=
  match d.makeDirectory p with
  | .ok after => (.ok (), after)
  | .error fault => (d.excuse p fault, d)

theorem attempt_ok_iff :
    (attempt p d).1 = .ok () ↔
      ∃ place, (attempt p d).2.locate p = .ok (place, some .directory) := by
  rw [attempt]
  cases hmade : d.makeDirectory p with
  | ok after => exact iff_of_true rfl (exists_locate_of_made hmade)
  | error fault => exact excuse_ok_iff hmade

/-- Whether a directory is missing on the way to a path. -/
def Missing (d : Disk) (p : Path) : Prop := ∃ q, d.makeDirectory p = .error (.refused .notFound q)

theorem ensureFrom_zero : ensureFrom 0 p d = attempt p d := by
  rw [ensureFrom, attempt]
  cases d.makeDirectory p with
  | ok after => rfl
  | error fault =>
    cases fault with
    | refused problem q => cases problem <;> rfl
    | _ => rfl

theorem ensureFrom_of_not_missing (h : ¬d.Missing p) (steps : Nat) :
    ensureFrom steps p d = attempt p d := by
  cases steps with
  | zero => exact ensureFrom_zero
  | succ steps =>
    rw [ensureFrom, attempt]
    cases hmade : d.makeDirectory p with
    | ok after => rfl
    | error fault =>
      cases fault with
      | refused problem q =>
        cases problem with
        | notFound => exact absurd ⟨q, hmade⟩ h
        | _ => rfl
      | _ => rfl

/-- If one is missing, the directories on the way are made before another attempt. -/
theorem ensureFrom_of_missing (h : d.Missing p) (steps : Nat) :
    ensureFrom (steps + 1) p d =
      match ensureFrom steps p.parent d with
      | (.error fault, mid) => (.error fault, mid)
      | (.ok (), mid) => attempt p mid := by
  obtain ⟨q, hmade⟩ := h
  rw [ensureFrom]
  simp only [hmade]
  rfl

theorem ensureFrom_ok_iff (steps : Nat) :
    (ensureFrom steps p d).1 = .ok () ↔
      ∃ place, (ensureFrom steps p d).2.locate p = .ok (place, some .directory) := by
  induction steps generalizing p with
  | zero =>
    rw [ensureFrom_zero]
    exact attempt_ok_iff
  | succ steps ih =>
    by_cases missing : d.Missing p
    · have habove := ih (p := p.parent)
      rw [ensureFrom_of_missing missing]
      cases hfrom : ensureFrom steps p.parent d with
      | mk answer mid =>
        rw [hfrom] at habove
        cases answer with
        | ok _ => exact attempt_ok_iff
        | error fault =>
          -- If the directory were there after all, so would be the one above it.
          refine iff_of_false (fun heq => by cases heq) ?_
          rintro ⟨place, hl⟩
          cases habove.2 (exists_directory_parent hl)
    · rw [ensureFrom_of_not_missing missing]
      exact attempt_ok_iff

/-- Once directories have been made, the directory is there just if nothing was refused. -/
theorem ensureDirectory_ok_iff :
    (ensureDirectory p d).1 = .ok () ↔
      ∃ place, (ensureDirectory p d).2.locate p = .ok (place, some .directory) :=
  ensureFrom_ok_iff p.parts.length

end Directories

namespace AlikeOn

variable {files : List (List String)} {d other : Disk}

theorem attempt (h : AlikeOn files d other) (p : Path) :
    (attempt p d).1 = (attempt p other).1 ∧ AlikeOn files (attempt p d).2 (attempt p other).2 := by
  have hmade := h.makeDirectory p
  rw [Disk.attempt, Disk.attempt]
  generalize d.makeDirectory p = made, other.makeDirectory p = made' at hmade
  cases hmade with
  | ok hafter => exact ⟨rfl, hafter⟩
  | error fault => exact ⟨h.excuse p fault, h⟩

theorem missing_iff (h : AlikeOn files d other) (p : Path) : d.Missing p ↔ other.Missing p := by
  have hmade := h.makeDirectory p
  rw [Missing, Missing]
  generalize d.makeDirectory p = made, other.makeDirectory p = made' at hmade
  cases hmade with
  | ok hafter => exact iff_of_false (by rintro ⟨_, h⟩; cases h) (by rintro ⟨_, h⟩; cases h)
  | error fault => simp only [Except.error.injEq]

theorem ensureFrom (h : AlikeOn files d other) (steps : Nat) (p : Path) :
    (ensureFrom steps p d).1 = (ensureFrom steps p other).1 ∧
      AlikeOn files (ensureFrom steps p d).2 (ensureFrom steps p other).2 := by
  induction steps generalizing p with
  | zero =>
    rw [ensureFrom_zero, ensureFrom_zero]
    exact h.attempt p
  | succ steps ih =>
    by_cases missing : d.Missing p
    · obtain ⟨hanswer, hmid⟩ := ih p.parent
      rw [ensureFrom_of_missing missing, ensureFrom_of_missing ((h.missing_iff p).1 missing)]
      cases hfrom : Disk.ensureFrom steps p.parent d with
      | mk answer mid =>
        cases hfrom' : Disk.ensureFrom steps p.parent other with
        | mk answer' mid' =>
          rw [hfrom, hfrom'] at hanswer hmid
          obtain rfl : answer = answer' := hanswer
          cases answer with
          | error fault => exact ⟨rfl, hmid⟩
          | ok _ => exact hmid.attempt p
    · rw [ensureFrom_of_not_missing missing,
        ensureFrom_of_not_missing (mt (h.missing_iff p).2 missing)]
      exact h.attempt p

theorem ensureDirectory (h : AlikeOn files d other) (p : Path) :
    (ensureDirectory p d).1 = (ensureDirectory p other).1 ∧
      AlikeOn files (ensureDirectory p d).2 (ensureDirectory p other).2 :=
  h.ensureFrom p.parts.length p

end AlikeOn

/-! ## Actions -/

/-- On a disk an action uses only the files at some places. -/
structure UsesOnly {ε α : Type} (act : Act Disk ε α) (d : Disk) (files : List (List String)) :
    Prop where
  /-- The files elsewhere stay as they are. -/
  spares : ∀ place, place ∉ files → (act.on d).2.fileAt? place = d.fileAt? place
  /-- What the files elsewhere hold makes no difference. -/
  heeds : ∀ other, AlikeOn files d other →
    (act.on d).1 = (act.on other).1 ∧ AlikeOn files (act.on d).2 (act.on other).2

namespace UsesOnly

variable {ε α β : Type} {d : Disk} {files : List (List String)}

/-- To look at what is alike is to use no more. -/
theorem look {f : Disk → Except ε α} (h : ∀ other, AlikeOn files d other → f d = f other) :
    UsesOnly (Act.of fun d => (f d, d)) d files where
  spares _ _ := rfl
  heeds other alike := ⟨h other alike, alike⟩

theorem bind {act : Act Disk ε α} {next : α → Act Disk ε β} (h : UsesOnly act d files)
    (hnext : ∀ a after, act.on d = (.ok a, after) → UsesOnly (next a) after files) :
    UsesOnly (act >>= next) d files := by
  constructor
  · intro place hplace
    have hspares := h.spares place hplace
    rw [Act.on_bind]
    cases hact : act.on d with
    | mk answer after =>
      rw [hact] at hspares
      cases answer with
      | error fault => exact hspares
      | ok a => exact ((hnext a after hact).spares place hplace).trans hspares
  · intro other alike
    obtain ⟨hanswer, hafter⟩ := h.heeds other alike
    rw [Act.on_bind, Act.on_bind]
    cases hact : act.on d with
    | mk answer after =>
      cases hother : act.on other with
      | mk answer' after' =>
        rw [hact, hother] at hanswer hafter
        obtain rfl : answer = answer' := hanswer
        cases answer with
        | error fault => exact ⟨rfl, hafter⟩
        | ok a => exact (hnext a after hact).heeds after' hafter

end UsesOnly

end Storyline.Disk
