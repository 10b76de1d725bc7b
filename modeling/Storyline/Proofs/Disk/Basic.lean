import Storyline.Disk.Basic
import Storyline.Proofs.Act
import Storyline.Proofs.Text.Utf8

/-!
# Storyline.Proofs.Disk.Basic

What is written to a file is read from it.  Writing puts one entry in its place, and
the way there leads through directories, which are other places.
-/

namespace Storyline.Disk

variable {d : Disk} {place other : List String} {entry : DiskEntry}

theorem lookup_filter_ne {l : List (List String × DiskEntry)} (h : other ≠ place) :
    (l.filter (·.1 ≠ place)).lookup other = l.lookup other := by
  induction l with
  | nil => rfl
  | cons e l ih =>
    obtain ⟨p, found⟩ := e
    by_cases hp : p = place
    · have hne : (other == p) = false := beq_eq_false_iff_ne.2 (hp ▸ h)
      rw [List.filter_cons_of_neg (by simpa using hp), ih, List.lookup_cons, hne]
    · rw [List.filter_cons_of_pos (by simpa using hp), List.lookup_cons, List.lookup_cons, ih]

theorem entry?_put_self (d : Disk) (entry : DiskEntry) (h : place ≠ []) :
    entry? (d.put place entry) place = some entry := by
  rw [ entry?, if_neg h, put, List.lookup_cons_self]

theorem entry?_put_of_ne (d : Disk) (entry : DiskEntry) (h : other ≠ place) :
    entry? (d.put place entry) other = d.entry? other := by
  rw [ entry?, entry?, put]
  have hne : (other == place) = false := beq_eq_false_iff_ne.2 h
  rw [List.lookup_cons, hne, lookup_filter_ne h]

theorem entry?_put (d : Disk) (place other : List String) (entry : DiskEntry) :
    entry? (d.put place entry) other =
      if other = place ∧ place ≠ [] then some entry else d.entry? other := by
  by_cases h : other = place
  · by_cases root : place = []
    · rw [h, root, if_neg (fun both => both.2 rfl)]
      rfl
    · rw [h, if_pos ⟨rfl, root⟩, entry?_put_self d entry root]
  · rw [if_neg (fun both => h both.1), entry?_put_of_ne d entry h]

/-! ## Following parts -/

section Follow

variable {start rest : List String} {part : String}

theorem follow_up (d : Disk) : d.follow start (".." :: rest) = d.follow start.dropLast rest := by
  rw [follow.eq_def]
  exact if_pos rfl

theorem follow_into (down : part ≠ "..") (fits : ¬nameLimit < part.utf8ByteSize)
    (h : d.entry? (start ++ [part]) = some .directory) :
    d.follow start (part :: rest) = d.follow (start ++ [part]) rest := by
  rw [follow.eq_def]
  simp only [if_neg down, if_neg fits, h]

theorem follow_last (down : part ≠ "..") (fits : ¬nameLimit < part.utf8ByteSize)
    (h : d.entry? (start ++ [part]) ≠ some .directory) :
    d.follow start [part] = .ok (start ++ [part], d.entry? (start ++ [part])) := by
  rw [follow.eq_def]
  simp only [if_neg down, if_neg fits]
  cases he : d.entry? (start ++ [part]) with
  | none => rfl
  | some entry =>
    cases entry with
    | file bytes => rfl
    | directory => exact absurd he h

/-- A name leads down to what lies there. -/
theorem follow_name (down : part ≠ "..") (fits : ¬nameLimit < part.utf8ByteSize) :
    d.follow start [part] = .ok (start ++ [part], d.entry? (start ++ [part])) := by
  by_cases h : d.entry? (start ++ [part]) = some .directory
  · rw [follow_into down fits h, h, follow]
  · exact follow_last down fits h

/-- The ways in which a part leads on. -/
theorem follow_cases {found : Option DiskEntry}
    (h : d.follow start (part :: rest) = .ok (place, found)) :
    part = ".." ∧ d.follow start.dropLast rest = .ok (place, found) ∨
      part ≠ ".." ∧ ¬nameLimit < part.utf8ByteSize ∧
        (d.entry? (start ++ [part]) = some .directory ∧
            d.follow (start ++ [part]) rest = .ok (place, found) ∨
          d.entry? (start ++ [part]) ≠ some .directory ∧ rest = [] ∧
            place = start ++ [part] ∧ found = d.entry? (start ++ [part])) := by
  by_cases down : part = ".."
  · rw [down, follow_up] at h
    exact .inl ⟨down, h⟩
  by_cases fits : nameLimit < part.utf8ByteSize
  · rw [follow.eq_def] at h
    simp only [if_neg down, if_pos fits] at h
    cases h
  by_cases he : d.entry? (start ++ [part]) = some .directory
  · rw [follow_into down fits he] at h
    exact .inr ⟨down, fits, .inl ⟨he, h⟩⟩
  · cases rest with
    | nil =>
      rw [follow_last down fits he] at h
      cases h
      exact .inr ⟨down, fits, .inr ⟨he, rfl, rfl, rfl⟩⟩
    | cons next rest =>
      rw [follow.eq_def] at h
      simp only [if_neg down, if_neg fits] at h
      cases hf : d.entry? (start ++ [part]) with
      | none => simp only [hf] at h; contradiction
      | some entry =>
        cases entry with
        | file bytes => simp only [hf] at h; contradiction
        | directory => exact absurd hf he

end Follow

/-- Where parts lead if it is not to a directory. -/
theorem entry?_of_follow {start parts : List String} {found : Option DiskEntry}
    (h : d.follow start parts = .ok (place, found)) (hfound : found ≠ some .directory) :
    place ≠ [] ∧ d.entry? place = found := by
  induction parts generalizing start with
  | nil => cases h; exact absurd rfl hfound
  | cons part rest ih =>
    obtain ⟨-, h⟩ | ⟨-, -, ⟨-, h⟩ | ⟨-, -, rfl, hf⟩⟩ := follow_cases h
    · exact ih h
    · exact ih h
    · exact ⟨by simp, hf.symm⟩

/-- Once an entry is put where parts lead, they lead to that entry. -/
theorem follow_put {start parts : List String} {found : Option DiskEntry}
    (h : d.follow start parts = .ok (place, found)) (hfound : found ≠ some .directory)
    (entry : DiskEntry) :
    (d.put place entry).follow start parts = .ok (place, some entry) := by
  obtain ⟨hplace, hentry⟩ := entry?_of_follow h hfound
  -- The directories on the way are other places, for nothing is put in theirs.
  have hdirectory : ∀ p, d.entry? p = some .directory →
      entry? (d.put place entry) p = some .directory := by
    intro p hp
    have hne : p ≠ place := by
      rintro rfl
      exact hfound (hentry.symm.trans hp)
    rw [entry?_put_of_ne d _ hne, hp]
  induction parts generalizing start with
  | nil => cases h; exact absurd rfl hfound
  | cons part rest ih =>
    obtain ⟨rfl, h⟩ | ⟨down, fits, ⟨hd, h⟩ | ⟨-, rfl, rfl, -⟩⟩ := follow_cases h
    · rw [follow_up]
      exact ih h
    · rw [follow_into down fits (hdirectory _ hd)]
      exact ih h
    · rw [follow_name down fits, entry?_put_self d entry hplace]

/-- What is put elsewhere, and not in the place of a directory, is not in the way of parts. -/
theorem follow_put_of_ne {start parts : List String} {found : DiskEntry}
    (h : d.follow start parts = .ok (place, some found)) (free : d.entry? other ≠ some .directory)
    (hne : place ≠ other) (entry : DiskEntry) :
    (d.put other entry).follow start parts = .ok (place, some found) := by
  have hdirectory : ∀ p, d.entry? p = some .directory →
      entry? (d.put other entry) p = some .directory := by
    intro p hp
    have hp' : p ≠ other := by
      rintro rfl
      exact free hp
    rw [entry?_put_of_ne d _ hp', hp]
  induction parts generalizing start with
  | nil => cases h; rfl
  | cons part rest ih =>
    obtain ⟨rfl, h⟩ | ⟨down, fits, ⟨hd, h⟩ | ⟨hfile, rfl, rfl, hfound⟩⟩ := follow_cases h
    · rw [follow_up]
      exact ih h
    · rw [follow_into down fits (hdirectory _ hd)]
      exact ih h
    · have hsame := entry?_put_of_ne d entry hne
      rw [follow_last down fits (by rw [hsame]; exact hfile), hsame, hfound]

/-- Parts lead to a place of the name that comes last. -/
theorem getLast?_of_follow {start parts : List String} {last : String} {found : Option DiskEntry}
    (h : d.follow start (parts ++ [last]) = .ok (place, found)) (down : last ≠ "..") :
    place.getLast? = some last := by
  induction parts generalizing start with
  | nil =>
    obtain ⟨up, -⟩ | ⟨-, -, ⟨-, h⟩ | ⟨-, -, rfl, -⟩⟩ := follow_cases h
    · exact absurd up down
    · cases h
      exact List.getLast?_concat
    · exact List.getLast?_concat
  | cons part rest ih =>
    obtain ⟨-, h⟩ | ⟨-, -, ⟨-, h⟩ | ⟨-, hnil, -⟩⟩ := follow_cases h
    · exact ih h
    · exact ih h
    · cases rest <;> cases hnil

/-! ## Files -/

theorem locate_ok_iff {p : Path} {came : List String × Option DiskEntry} :
    d.locate p = .ok came ↔ p.text.toList.contains '\x00' = false ∧
      p.text.utf8ByteSize < pathLimit ∧
      d.follow (if p.root = .here then d.here else []) p.parts = .ok came := by
  rw [locate]
  by_cases hnul : p.text.toList.contains '\x00' = true
  · rw [if_pos hnul, hnul]
    exact iff_of_false nofun nofun
  rw [if_neg hnul, eq_false_of_ne_true hnul]
  by_cases hlong : pathLimit ≤ p.text.utf8ByteSize
  · rw [if_pos hlong]
    exact iff_of_false nofun fun h => absurd hlong (Nat.not_le.2 h.2.1)
  rw [if_neg hlong]
  simp only [Nat.lt_of_not_le hlong, true_and]
  cases d.follow (if p.root = .here then d.here else []) p.parts with
  | ok found => simp only [mapError_ok, Except.ok.injEq]
  | error problem => exact iff_of_false nofun nofun

theorem locate_put {p : Path} {found : Option DiskEntry} (h : d.locate p = .ok (place, found))
    (hfound : found ≠ some .directory) (entry : DiskEntry) :
    (d.put place entry).locate p = .ok (place, some entry) := by
  obtain ⟨hnul, hlong, hfollow⟩ := locate_ok_iff.1 h
  exact locate_ok_iff.2 ⟨hnul, hlong, follow_put hfollow hfound entry⟩

theorem readBytes_ok_iff {p : Path} {bytes : List UInt8} :
    d.readBytes p = .ok bytes ↔ ∃ place, d.locate p = .ok (place, some (.file bytes)) := by
  rw [readBytes]
  constructor
  · intro h
    obtain ⟨⟨place, found⟩, hl, h⟩ := bind_ok_iff.1 h
    split at h
    · cases h
      next heq =>
        cases heq
        exact ⟨place, hl⟩
    · cases h
    · cases h
  · rintro ⟨place, hl⟩
    rw [hl]
    rfl

/-- Writing puts a file in the place that the path leads to. -/
theorem writeBytes_ok {p : Path} {bytes : List UInt8} {after : Disk}
    (h : d.writeBytes p bytes = .ok after) : ∃ place found, d.locate p = .ok (place, found) ∧
      found ≠ some .directory ∧ after = d.put place (.file bytes) := by
  rw [writeBytes] at h
  obtain ⟨⟨place, found⟩, hl, h⟩ := bind_ok_iff.1 h
  refine ⟨place, found, hl, ?_⟩
  cases found with
  | none => cases h; exact ⟨nofun, rfl⟩
  | some entry =>
    cases entry with
    | directory => cases h
    | file old => cases h; exact ⟨nofun, rfl⟩

theorem writeBytes_of_locate {p : Path} {found : Option DiskEntry}
    (h : d.locate p = .ok (place, found)) (hfound : found ≠ some .directory)
    (bytes : List UInt8) : d.writeBytes p bytes = .ok (d.put place (.file bytes)) := by
  rw [writeBytes, h]
  cases found with
  | none => rfl
  | some entry =>
    cases entry with
    | directory => exact absurd rfl hfound
    | file old => rfl

theorem readBytes_of_vacant {p : Path} (h : d.locate p = .ok (place, none)) :
    d.readBytes p = .error (.refused .notFound p) := by
  rw [readBytes, h]
  rfl

theorem readBytes_writeBytes {p : Path} {bytes : List UInt8} {after : Disk}
    (h : d.writeBytes p bytes = .ok after) : after.readBytes p = .ok bytes := by
  obtain ⟨place, found, hl, hfound, rfl⟩ := writeBytes_ok h
  exact readBytes_ok_iff.2 ⟨place, locate_put hl hfound (.file bytes)⟩

section Refused

variable {p : Path} {fault : DiskFault} (plain : '\x00' ∉ p.text.toList)

include plain

/-- A path without the NUL character leads somewhere, or the disk says why not. -/
theorem refused_of_locate (h : d.locate p = .error fault) :
    ∃ problem path, fault = .refused problem path := by
  rw [locate, if_neg (by simpa using plain)] at h
  split at h
  · cases h
    exact ⟨_, _, rfl⟩
  · obtain ⟨problem, -, hproblem⟩ := mapError_error_iff.1 h
    exact ⟨problem, p, hproblem.symm⟩

theorem refused_of_readBytes (h : d.readBytes p = .error fault) :
    ∃ problem path, fault = .refused problem path := by
  rw [readBytes] at h
  obtain unplaced | ⟨⟨place, found⟩, -, h⟩ := bind_error_iff.1 h
  · exact refused_of_locate plain unplaced
  · cases found with
    | none =>
      cases h
      exact ⟨_, _, rfl⟩
    | some entry =>
      cases entry with
      | file bytes => cases h
      | directory =>
        cases h
        exact ⟨_, _, rfl⟩

end Refused

/-- The text of a file is what its bytes spell, with its line ends made newlines. -/
theorem readText_of_bytes {p : Path} {bytes : List UInt8} (h : d.readBytes p = .ok bytes) :
    d.readText p =
      match Text.decode bytes with
      | .ok text => .ok (String.ofList (Text.unifyLineEnds text.toList))
      | .error fault => .error (.encoding fault) := by
  rw [readText, h]
  cases hd : Text.decode bytes <;> simp only [bind, Except.bind, hd] <;> rfl

theorem readText_of_refused {p : Path} {fault : DiskFault} (h : d.readBytes p = .error fault) :
    d.readText p = .error fault := by
  rw [readText, h]
  rfl

/-- A text without carriage returns is read as it was written. -/
theorem readText_writeText {p : Path} {text : String} {after : Disk}
    (h : d.writeText p text = .ok after) (plain : '\r' ∉ text.toList) :
    after.readText p = .ok text := by
  simp only [readText_of_bytes (readBytes_writeBytes h), Text.decode_encode,
    Text.unifyLineEnds_of_not_mem plain, String.ofList_toList]

/-! ## What stays -/

/-- A directory that is there is not made again. -/
theorem ensureDirectory_of_directory {p : Path} (h : d.locate p = .ok (place, some .directory)) :
    ensureDirectory p d = (.ok (), d) := by
  have hmade : d.makeDirectory p = .error (.refused .exists p) := by
    rw [makeDirectory, h]
    rfl
  have hexcuse : d.excuse p (.refused .exists p) = .ok () := by
    have hdirectory : d.isDirectory p = .ok true := by
      rw [isDirectory, lies?, h]
      rfl
    simp only [excuse, hdirectory]
    rfl
  rw [ensureDirectory, ensureFrom.eq_def]
  simp only [hmade, hexcuse]

/-- Making a directory with those that lead to it makes one directory after the other. -/
theorem ensureDirectory_keeps (P : Disk → Prop)
    (keeps : ∀ d q after, P d → d.makeDirectory q = .ok after → P after) {q : Path} (h : P d) :
    P (ensureDirectory q d).2 := by
  rw [ensureDirectory]
  generalize q.parts.length = steps
  induction steps generalizing q d with
  | zero =>
    rw [ensureFrom]
    split
    · next made => exact keeps _ _ _ h made
    · exact h
    · exact h
  | succ steps ih =>
    rw [ensureFrom]
    split
    · next made => exact keeps _ _ _ h made
    · have habove := ih h (q := q.parent)
      simp only
      cases hmade : ensureFrom steps q.parent d with
      | mk answer mid =>
        rw [hmade] at habove
        cases answer with
        | error fault => exact habove
        | ok _ =>
          simp only
          split
          · next made => exact keeps _ _ _ habove made
          · exact habove
    · exact h

/-- What lies at the place of a path, if it is no directory. -/
theorem entry?_of_locate {p : Path} {found : Option DiskEntry} (h : d.locate p = .ok (place, found))
    (hfound : found ≠ some .directory) : d.entry? place = found :=
  (entry?_of_follow (locate_ok_iff.1 h).2.2 hfound).2

section Stays

variable {p q : Path} {bytes : List UInt8} {after : Disk} (h : d.readBytes p = .ok bytes)

include h

/-- A file stays when something is put in another place. -/
theorem readBytes_put (free : d.entry? other ≠ some .directory)
    (apart : ∀ found, d.locate p ≠ .ok (other, found)) (entry : DiskEntry) :
    (d.put other entry).readBytes p = .ok bytes := by
  obtain ⟨place, hl⟩ := readBytes_ok_iff.1 h
  have hne : place ≠ other := by
    rintro rfl
    exact apart _ hl
  obtain ⟨hnul, hlong, hfollow⟩ := locate_ok_iff.1 hl
  exact readBytes_ok_iff.2
    ⟨place, locate_ok_iff.2 ⟨hnul, hlong, follow_put_of_ne hfollow free hne entry⟩⟩

/-- A file stays when a directory is made. -/
theorem readBytes_makeDirectory (made : d.makeDirectory q = .ok after) :
    after.readBytes p = .ok bytes := by
  obtain ⟨⟨other, found⟩, hl, hput⟩ := bind_ok_iff.1 made
  cases found with
  | some entry => cases hput
  | none =>
    cases hput
    have free : d.entry? other = none := entry?_of_locate hl nofun
    refine readBytes_put h (by rw [free]; nofun) (fun found hp => ?_) _
    obtain ⟨place, hplace⟩ := readBytes_ok_iff.1 h
    rw [hplace] at hp
    cases hp
    rw [entry?_of_locate hplace nofun] at free
    cases free

/-- So it does when a directory is made with those that lead to it, even in part. -/
theorem readBytes_ensureDirectory : (ensureDirectory q d).2.readBytes p = .ok bytes :=
  ensureDirectory_keeps (fun d => d.readBytes p = .ok bytes)
    (fun _ _ _ h made => readBytes_makeDirectory h made) h

/-- A file stays when one of another name is written. -/
theorem readBytes_writeBytes_of_ne {above beneath : List String} {name other : String}
    (hp : p.parts = above ++ [name]) (hq : q.parts = beneath ++ [other]) (down : name ≠ "..")
    (down' : other ≠ "..") (hne : name ≠ other) {written : List UInt8}
    (writes : d.writeBytes q written = .ok after) : after.readBytes p = .ok bytes := by
  obtain ⟨there, found, hl, hfound, rfl⟩ := writeBytes_ok writes
  have free : d.entry? there ≠ some .directory := by
    rw [entry?_of_locate hl hfound]
    exact hfound
  refine readBytes_put h free (fun found' hp' => ?_) _
  have hnamed := (locate_ok_iff.1 hp').2.2
  have hnamed' := (locate_ok_iff.1 hl).2.2
  rw [hp] at hnamed
  rw [hq] at hnamed'
  have hlast := (getLast?_of_follow hnamed down).symm.trans (getLast?_of_follow hnamed' down')
  exact hne (Option.some.inj hlast)

end Stays

end Storyline.Disk
