import Mathlib.Data.List.Basic
import Storyline.Proofs.Disk.Place
import Storyline.Proofs.Json.RoundTrip
import Storyline.Proofs.Table
import Storyline.Proofs.Text.Blank
import Storyline.Settings

/-!
# Storyline.Proofs.Settings

Settings in normal form, and the file they are kept in.  Normal settings are those that making
normal leaves as they are, and all that are made normal are.  What is saved is read back, and
whatever a file holds, the settings that are loaded from it are normal.
-/

namespace Storyline

namespace Settings

/-! ## Normal form -/

/-- Settings in normal form: the mode, and after it the optional settings there are, in their
order, none of them empty and none with a blank at either end. -/
structure IsNormal (s : Settings) : Prop where
  mode : ∃ mode : TextMode, s.entries.head? = some (RawSettings.modeName, mode.word)
  names : (s.entries.tail.map Prod.fst).Sublist optionalNames
  texts : ∀ e ∈ s.entries.tail, e.2 ≠ "" ∧ Text.trim e.2 = e.2

theorem optionalText?_eq_some_iff {raw : RawSettings} {name text : String} :
    optionalText? raw name = some text ↔
      ∃ whole, raw.find? name = some (.string whole) ∧ Text.trim whole ≠ "" ∧
        text = Text.trim whole := by
  rw [optionalText?]
  constructor
  · intro h
    split at h
    · next whole found =>
      split at h
      · cases h
      · next hne => exact ⟨whole, found, hne, (Option.some.inj h).symm⟩
    · cases h
  · rintro ⟨whole, found, hne, rfl⟩
    simp only [found, if_neg hne]

/-- The entries of those names that a text is known for. -/
def gather (ask : String → Option String) (names : List String) : List (String × String) :=
  names.filterMap fun name => (ask name).map fun text => (name, text)

section Gather

variable {ask : String → Option String} {names : List String}

theorem ask_of_mem_gather {e : String × String} (h : e ∈ gather ask names) :
    ask e.1 = some e.2 := by
  obtain ⟨name, -, hentry⟩ := List.mem_filterMap.1 h
  obtain ⟨text, htext, rfl⟩ := Option.map_eq_some_iff.1 hentry
  exact htext

theorem names_gather_sublist : ((gather ask names).map Prod.fst).Sublist names := by
  induction names with
  | nil => exact .slnil
  | cons name rest ih =>
    rw [gather, List.filterMap_cons]
    cases ask name with
    | none => exact ih.cons name
    | some text => exact ih.cons_cons name

theorem gather_congr {other : String → Option String} (h : ∀ name ∈ names, ask name = other name) :
    gather ask names = gather other names :=
  List.filterMap_congr fun name hname => by rw [h name hname]

/-- Entries are gathered again from their own table, if they are in the order of the names. -/
theorem gather_lookup {l : List (String × String)} (h : (l.map Prod.fst).Sublist names)
    (distinct : names.Nodup) : gather (fun name => Table.lookup name l) names = l := by
  induction names generalizing l with
  | nil =>
    rw [List.map_eq_nil_iff.1 (List.sublist_nil.1 h)]
    rfl
  | cons name rest ih =>
    obtain ⟨hname, hrest⟩ := List.nodup_cons.1 distinct
    cases l with
    | nil => exact ih (List.nil_sublist rest) hrest
    | cons e l =>
      obtain ⟨other, text⟩ := e
      by_cases heq : other = name
      · subst heq
        have hothers : ∀ n ∈ rest, Table.lookup n ((other, text) :: l) = Table.lookup n l := by
          intro n hn
          rw [Table.lookup, if_neg (by rintro rfl; exact hname hn)]
        rw [gather, List.filterMap_cons, Table.lookup, if_pos rfl]
        exact congrArg _ ((gather_congr hothers).trans (ih (List.cons_sublist_cons.1 h) hrest))
      · have hskip : (((other, text) :: l).map Prod.fst).Sublist rest := by
          refine (List.sublist_cons_iff.1 h).resolve_right ?_
          rintro ⟨rest, hcons, -⟩
          exact heq (List.cons.inj hcons).1
        have hnone : Table.lookup name ((other, text) :: l) = none :=
          Table.lookup_eq_none_iff.2 fun hmem => hname (hskip.subset hmem)
        rw [gather, List.filterMap_cons, hnone]
        exact ih hskip hrest

theorem lookup_gather {name : String} (mem : name ∈ names) :
    Table.lookup name (gather ask names) = ask name := by
  induction names with
  | nil => cases mem
  | cons first rest ih =>
    rw [gather, List.filterMap_cons]
    by_cases heq : first = name
    · subst heq
      cases hask : ask first with
      | none =>
        refine Table.lookup_eq_none_iff.2 fun hmem => ?_
        obtain ⟨e, he, hname⟩ := List.mem_map.1 hmem
        have hfound := ask_of_mem_gather he
        rw [hname, hask] at hfound
        cases hfound
      | some text => exact if_pos rfl
    · have hrest := ih ((List.mem_cons.1 mem).resolve_left (Ne.symm heq))
      cases ask first with
      | none => exact hrest
      | some text => exact (if_neg heq).trans hrest

end Gather

/-- Settings that are made normal: the mode, and the optional texts there are. -/
theorem entries_normalize (raw : RawSettings) : (normalize raw).entries =
    (RawSettings.modeName, raw.textMode.word) :: gather (optionalText? raw) optionalNames := by
  have hdistinct : (RawSettings.modeName :: optionalNames).Nodup := by decide
  rw [normalize, Table.entries_insertAll]
  · rfl
  · exact hdistinct.sublist (names_gather_sublist.cons_cons RawSettings.modeName)

/-- Under an optional name settings that are made normal have the text there, if there is one. -/
theorem find?_normalize {name : String} (h : name ∈ optionalNames) (raw : RawSettings) :
    (normalize raw).find? name = optionalText? raw name := by
  have hne : RawSettings.modeName ≠ name := by
    rintro rfl
    exact absurd h (by decide)
  rw [Table.find?, entries_normalize, Table.lookup, if_neg hne, lookup_gather h]

theorem isNormal_normalize (raw : RawSettings) : (normalize raw).IsNormal where
  mode := ⟨raw.textMode, by rw [entries_normalize]; rfl⟩
  names := by
    rw [entries_normalize]
    exact names_gather_sublist
  texts := by
    rw [entries_normalize]
    intro e he
    obtain ⟨whole, -, hne, htrim⟩ := optionalText?_eq_some_iff.1 (ask_of_mem_gather he)
    rw [htrim]
    exact ⟨hne, Text.trim_trim whole⟩

/-- Making normal asks for nothing but the mode and the optional texts. -/
theorem normalize_congr {raw other : RawSettings} (h : raw.Same other) :
    normalize raw = normalize other := by
  have hmode : raw.textMode = other.textMode := by
    rw [RawSettings.textMode, RawSettings.textMode, h]
  have htext : optionalText? raw = optionalText? other := by
    funext name
    rw [optionalText?, optionalText?, h]
  rw [normalize, normalize, hmode, htext]

theorem find?_raw (s : Settings) (name : String) :
    s.raw.find? name = (s.find? name).map Json.string := by
  show Table.lookup name (s.entries.map fun e => (e.1, Json.string e.2)) =
    (Table.lookup name s.entries).map Json.string
  induction s.entries with
  | nil => rfl
  | cons e rest ih =>
    rw [List.map_cons, Table.lookup, Table.lookup, ih]
    split <;> rfl

/-- A text that is set and trimmed is asked for as it is. -/
theorem optionalText?_raw {s : Settings} {name : String}
    (trimmed : ∀ text, s.find? name = some text → text ≠ "" ∧ Text.trim text = text) :
    optionalText? s.raw name = s.find? name := by
  rw [optionalText?, find?_raw]
  cases hfound : s.find? name with
  | none => rfl
  | some text =>
    obtain ⟨hne, htrim⟩ := trimmed text hfound
    simp only [Option.map_some, htrim, if_neg hne]

theorem textMode_raw {s : Settings} {mode : TextMode}
    (h : s.find? RawSettings.modeName = some mode.word) : s.raw.textMode = mode := by
  rw [RawSettings.textMode, find?_raw, h]
  cases mode
  · exact if_neg (by decide)
  · exact if_pos rfl

/-- Normal settings stay as they are when they are made normal. -/
theorem IsNormal.normalize_raw {s : Settings} (normal : s.IsNormal) : normalize s.raw = s := by
  obtain ⟨mode, hmode⟩ := normal.mode
  obtain ⟨rest, hentries⟩ := List.head?_eq_some_iff.1 hmode
  have hnames := normal.names
  have htexts := normal.texts
  rw [hentries, List.tail_cons] at hnames htexts
  have hfound : s.find? RawSettings.modeName = some mode.word := by
    rw [Table.find?, hentries]
    exact if_pos rfl
  have hlookup : ∀ name ∈ optionalNames, s.find? name = Table.lookup name rest := by
    intro name hname
    have hne : RawSettings.modeName ≠ name := by
      rintro rfl
      exact absurd hname (by decide)
    rw [Table.find?, hentries, Table.lookup, if_neg hne]
  have hoptional : ∀ name ∈ optionalNames, optionalText? s.raw name = Table.lookup name rest := by
    intro name hname
    rw [optionalText?_raw, hlookup name hname]
    intro text htext
    rw [hlookup name hname] at htext
    exact htexts _ (Table.mem_of_lookup htext)
  apply Table.ext_entries
  rw [entries_normalize, textMode_raw hfound, hentries, gather_congr hoptional,
    gather_lookup hnames (by decide)]

/-! ## The text of the file -/

/-- An entry of the file up to the text in it, which is read by itself. -/
theorem skipGap_writeEntry (e : String × String) (rest : List Char) :
    Json.skipGap (writeEntry e ++ rest) =
      '"' :: ((wide e.1).points.flatMap Json.writePoint ++ '"' :: ':' :: ' ' ::
        (Json.writeString e.2 ++ rest)) := by
  rw [writeEntry, List.cons_append, List.cons_append, Json.skipGap_gap rfl, Json.skipGap_gap rfl,
    Json.writeMember_append, Json.skipGap_cons (by decide)]

/-- The lines of the file are read back as members, up to the closing brace. -/
theorem readMembers_lines (text : WideString) {l : List (String × String)} (nonempty : l ≠ [])
    {fuel : Nat} (hf : l.length < fuel) :
    Json.readMembers text fuel (Json.skipGap
      (Json.separated ",\n" (l.map writeEntry) ++ ['\n', '\x7d'])) =
        .ok (l.map fun e => (e.1, .string e.2), []) := by
  induction l generalizing fuel with
  | nil => exact absurd rfl nonempty
  | cons e l ih =>
    have hfuel : 2 ≤ fuel := Nat.lt_of_le_of_lt (Nat.le_add_left 1 l.length) hf
    obtain ⟨fuel, rfl⟩ := Nat.exists_eq_add_of_le' hfuel
    have hvalue : ∀ rest, Json.skipGap (' ' :: (Json.writeString e.2 ++ rest)) =
        Json.writeString e.2 ++ rest := by
      intro rest
      rw [Json.skipGap_gap rfl, Json.writeString, List.cons_append, List.cons_append,
        Json.skipGap_cons (by decide)]
    have hname : (wide e.1).Joined := WideString.joined_ofString e.1
    have hheld : (wide e.2).Joined := WideString.joined_ofString e.2
    cases l with
    | nil =>
      rw [List.map_cons, List.map_nil, Json.separated, skipGap_writeEntry, Json.readMembers,
        Json.readString_written text _ hname]
      simp only [bind, Except.bind, Json.skipGap_cons (c := ':') (by decide), hvalue,
        Json.readValue_writeString _ hheld]
      rfl
    | cons next l =>
      have hrest := @ih (List.cons_ne_nil next l) (fuel + 1) (Nat.lt_of_succ_lt_succ hf)
      have hline : ∀ cs, Json.skipGap (",\n".toList ++ cs) = ',' :: '\n' :: cs := fun cs =>
        Json.skipGap_cons (c := ',') (by decide) ('\n' :: cs)
      rw [List.map_cons, Json.separated_cons_of_ne_nil _ _ (by simp), List.append_assoc,
        skipGap_writeEntry, Json.readMembers, Json.readString_written text _ hname]
      simp only [bind, Except.bind, Json.skipGap_cons (c := ':') (by decide), hvalue,
        Json.readValue_writeString _ hheld, List.append_assoc, hline,
        Json.skipGap_gap (c := '\n') rfl, hrest]
      rfl

theorem length_le_separated (separator : String) {parts : List (List Char)}
    (h : ∀ part ∈ parts, part ≠ []) : parts.length ≤ (Json.separated separator parts).length := by
  induction parts with
  | nil => exact Nat.le_refl 0
  | cons part rest ih =>
    obtain ⟨hpart, hrest⟩ := List.forall_mem_cons.1 h
    have hpart := List.length_pos_iff.2 hpart
    cases rest with
    | nil => exact hpart
    | cons next rest =>
      have hrest := ih hrest
      rw [Json.separated_cons_of_ne_nil separator part (List.cons_ne_nil next rest)]
      simp only [List.length_append, List.length_cons] at hrest ⊢
      omega

theorem exists_skipGap_lines {l : List (String × String)} (nonempty : l ≠ []) (more : List Char) :
    ∃ after, Json.skipGap (Json.separated ",\n" (l.map writeEntry) ++ more) = '"' :: after := by
  cases l with
  | nil => exact absurd rfl nonempty
  | cons e l =>
    cases l with
    | nil => exact ⟨_, skipGap_writeEntry e more⟩
    | cons next l =>
      rw [List.map_cons, Json.separated_cons_of_ne_nil _ _ (by simp), List.append_assoc]
      exact ⟨_, skipGap_writeEntry e _⟩

theorem readValue_lines (text : WideString) {l : List (String × String)} (nonempty : l ≠ [])
    (distinct : (l.map Prod.fst).Nodup) {fuel : Nat} (hf : l.length < fuel) :
    Json.readValue text (fuel + 1)
      ('\x7b' :: '\n' :: (Json.separated ",\n" (l.map writeEntry) ++ ['\n', '\x7d'])) =
        .ok (.object (l.map fun e => (e.1, .string e.2)), []) := by
  have hmembers := readMembers_lines text nonempty hf
  have hentries : (Table.ofList (l.map fun e => (e.1, Json.string e.2))).entries =
      l.map fun e => (e.1, .string e.2) :=
    Table.entries_ofList (by rwa [List.map_map])
  obtain ⟨after, hafter⟩ := exists_skipGap_lines nonempty ['\n', '\x7d']
  rw [hafter] at hmembers
  rw [Json.readValue, Json.skipGap_gap rfl, hafter]
  show (Json.readMembers text fuel ('"' :: after)).map _ = _
  rw [hmembers]
  simp only [Except.map, hentries]

theorem nodup_sortBy (s : Settings) : ((sortBy Prod.fst s.entries).map Prod.fst).Nodup :=
  ((perm_sortBy Prod.fst s.entries).map Prod.fst).nodup_iff.2 s.nodup_names

/-- The text of the file is read back as an object, its members in the order of their names. -/
theorem read_text {s : Settings} (nonempty : s.entries ≠ []) :
    Json.read s.text =
      .ok (.object ((sortBy Prod.fst s.entries).map fun e => (e.1, .string e.2))) := by
  have hlines : sortBy Prod.fst s.entries ≠ [] := fun hnil =>
    nonempty ((hnil ▸ perm_sortBy Prod.fst s.entries).symm.eq_nil)
  have hdistinct := nodup_sortBy s
  have hfaces : (wide s.text).faces = s.text.toList := WideString.faces_ofString s.text
  rw [Json.read, hfaces, Json.readText, hfaces]
  generalize wide s.text = whole
  rw [text, String.toList_ofList]
  generalize sortBy Prod.fst s.entries = l at hlines hdistinct ⊢
  have hlength : l.length ≤ (Json.separated ",\n" (l.map writeEntry)).length := by
    have hwritten : ∀ part ∈ l.map writeEntry, part ≠ [] :=
      List.forall_mem_map.2 fun _ _ => List.cons_ne_nil _ _
    have hle := length_le_separated ",\n" hwritten
    rwa [List.length_map] at hle
  rw [List.cons_append, List.cons_append]
  generalize hcs :
    '\x7b' :: '\n' :: (Json.separated ",\n" (l.map writeEntry) ++ ['\n', '\x7d']) = cs
  have hread : Json.readValue whole (2 * cs.length + 2) cs =
      .ok (.object (l.map fun e => (e.1, .string e.2)), []) := by
    rw [← hcs]
    apply readValue_lines whole hlines hdistinct
    simp only [List.length_cons, List.length_append]
    omega
  have hstart : Json.skipGap cs = cs := hcs ▸ Json.skipGap_cons (by decide) _
  have hmark : cs.head? ≠ some '\ufeff' := by simp [← hcs]
  rw [if_neg hmark, hstart]
  simp only [hread]
  rfl

/-- What is written for normal settings is read as these settings. -/
theorem IsNormal.ofText_text {s : Settings} (normal : s.IsNormal) : ofText s.text = s := by
  have hnonempty : s.entries ≠ [] := by
    obtain ⟨mode, hmode⟩ := normal.mode
    rintro hnil
    rw [hnil] at hmode
    cases hmode
  have hsame : (Table.ofList ((sortBy Prod.fst s.entries).map fun e => (e.1, Json.string e.2))).Same
      s.raw := by
    apply Table.same_of_perm
    rw [Table.entries_ofList]
    · exact (perm_sortBy Prod.fst s.entries).map fun e => (e.1, Json.string e.2)
    · rw [List.map_map]
      exact nodup_sortBy s
  rw [ofText, read_text hnonempty]
  exact (normalize_congr hsame).trans normal.normalize_raw

theorem isNormal_initial : initial.IsNormal :=
  isNormal_normalize Table.empty

/-- Whatever a text holds, the settings in it are normal. -/
theorem isNormal_ofText (text : String) : (ofText text).IsNormal := by
  rw [ofText]
  split
  · exact isNormal_normalize _
  · exact isNormal_initial

theorem isPlain_writeEntry (e : String × String) : ∀ c ∈ writeEntry e, Json.IsPlain c :=
  Json.isPlain_cons (by decide) (Json.isPlain_cons (by decide)
    (Json.isPlain_writeMember (Json.isPlain_writeString e.2)))

theorem mem_separated {c : Char} {separator : String} {parts : List (List Char)}
    (h : c ∈ Json.separated separator parts) : c ∈ separator.toList ∨ ∃ part ∈ parts, c ∈ part := by
  induction parts with
  | nil => cases h
  | cons part rest ih =>
    cases rest with
    | nil => exact .inr ⟨part, List.mem_cons_self, h⟩
    | cons next rest =>
      rw [Json.separated_cons_of_ne_nil separator part (List.cons_ne_nil next rest),
        List.mem_append, List.mem_append] at h
      obtain h | h | h := h
      · exact .inr ⟨part, List.mem_cons_self, h⟩
      · exact .inl h
      · obtain h | ⟨other, hother, hc⟩ := ih h
        · exact .inl h
        · exact .inr ⟨other, List.mem_cons_of_mem part hother, hc⟩

/-- The lines of the file end in newlines alone. -/
theorem return_not_mem_text (s : Settings) : '\r' ∉ s.text.toList := by
  rw [text, String.toList_ofList]
  intro h
  rw [List.mem_append, List.mem_cons, List.mem_cons] at h
  obtain (h | h | h) | h := h
  · cases h
  · cases h
  · obtain h | ⟨part, hpart, hc⟩ := mem_separated h
    · exact absurd h (by decide)
    · obtain ⟨e, -, rfl⟩ := List.mem_map.1 hpart
      exact absurd (isPlain_writeEntry e '\r' hc) (by decide)
  · exact absurd h (by decide)

/-! ## The file -/

/-- What is loaded is a matter of the bytes of the file. -/
theorem load_congr {d other : Disk} {file : Path} (h : d.readBytes file = other.readBytes file) :
    load d file = load other file := by
  rw [load, load, Disk.readText, Disk.readText, h]

/-- Where a setting is loaded there is a file. -/
theorem exists_bytes_of_load {d : Disk} {file : Path} (h : load d file ≠ initial) :
    ∃ bytes, d.readBytes file = .ok bytes := by
  cases hread : d.readBytes file with
  | ok bytes => exact ⟨bytes, rfl⟩
  | error fault =>
    rw [load, Disk.readText_of_refused hread] at h
    exact absurd rfl h

theorem isNormal_load (d : Disk) (file : Path) : (load d file).IsNormal := by
  rw [load]
  split
  · exact isNormal_ofText _
  · exact isNormal_initial

/-- What saving does if it succeeds: the directory is made, and the text is written. -/
theorem save_ok_iff {raw : RawSettings} {file : Path} {d after : Disk} :
    save raw file d = (.ok (), after) ↔ ∃ mid, Disk.ensureDirectory file.parent d = (.ok (), mid) ∧
      mid.writeText file (normalize raw).text = .ok after := by
  rw [save]
  constructor
  · intro h
    split at h
    · cases h
    · next mid made =>
      split at h
      · next written =>
        cases h
        exact ⟨mid, made, written⟩
      · cases h
  · rintro ⟨mid, made, written⟩
    simp only [made, written]

/-- Whether settings are saved is a matter of the disk, whatever they are. -/
theorem fst_save (raw other : RawSettings) (file : Path) (d : Disk) :
    (save raw file d).1 = (save other file d).1 := by
  rw [save, save]
  cases Disk.ensureDirectory file.parent d with
  | mk answer mid =>
    cases answer with
    | error fault => rfl
    | ok _ =>
      simp only [Disk.writeText, Disk.writeBytes]
      cases mid.locate file with
      | error fault => rfl
      | ok came =>
        obtain ⟨place, found⟩ := came
        cases found with
        | none => rfl
        | some entry => cases entry <;> rfl

/-- What is saved is loaded. -/
theorem load_of_save {raw : RawSettings} {file : Path} {d after : Disk}
    (h : save raw file d = (.ok (), after)) : load after file = normalize raw := by
  obtain ⟨mid, -, written⟩ := save_ok_iff.1 h
  have hread := Disk.readText_writeText written (return_not_mem_text (normalize raw))
  rw [load, hread]
  exact (isNormal_normalize raw).ofText_text

/-- What is saved once more is written in the same bytes. -/
theorem save_again {raw other : RawSettings} {file : Path} {d after : Disk}
    (h : save raw file d = (.ok (), after)) (same : normalize other = normalize raw) :
    ∃ again, save other file after = (.ok (), again) ∧
      again.readBytes file = after.readBytes file := by
  obtain ⟨mid, -, written⟩ := save_ok_iff.1 h
  obtain ⟨made, again, hagain⟩ := Disk.writeBytes_again written (Text.encode (normalize raw).text)
  refine ⟨again, save_ok_iff.2 ⟨after, made, same ▸ hagain⟩, ?_⟩
  rw [Disk.readBytes_writeBytes hagain, Disk.readBytes_writeBytes written]

/-- Settings survive their file, and nothing in the file breaks them: what is made normal is so
for good; what is saved is loaded in normal form, in the order of that form, and saved again, as
it was given or as it was loaded, it is written in the same bytes; what is loaded is normal
whatever the file holds; and no settings are refused where others are saved. -/
theorem settings_survive_file (file : Path) :
    (∀ raw : RawSettings, normalize (normalize raw).raw = normalize raw) ∧
      (∀ (raw : RawSettings) (d after : Disk), save raw file d = (.ok (), after) →
        load after file = normalize raw ∧
          ∀ other ∈ [raw, (load after file).raw], ∃ again, save other file after = (.ok (), again) ∧
            again.readBytes file = after.readBytes file) ∧
      (∀ d : Disk, normalize (load d file).raw = load d file) ∧
      ∀ (raw other : RawSettings) (d : Disk), (save raw file d).1 = (save other file d).1 := by
  have hnormal : ∀ raw, normalize (normalize raw).raw = normalize raw := fun raw =>
    (isNormal_normalize raw).normalize_raw
  refine ⟨hnormal, fun raw d after h => ?_, fun d => (isNormal_load d file).normalize_raw,
    fun raw other d => fst_save raw other file d⟩
  have hload := load_of_save h
  refine ⟨hload, fun other hother => save_again h ?_⟩
  obtain rfl | hother := List.mem_cons.1 hother
  · rfl
  · rw [List.mem_singleton.1 hother, hload, hnormal]

/-- Settings of many kinds: a name nobody knows, a blank text, and one with blanks around it. -/
def untidy : RawSettings :=
  Table.ofList [("last_episode", .string " intro\n"), ("colour", .bool true),
    ("content_dir", .string "\t"), ("text_display_mode", .string "step")]

/-- Settings that are far from normal are saved on an empty disk, loaded in normal form, and
saved again. -/
theorem untidy_settings_survive :
    ∃ after again : Disk, save untidy (Path.ofText "/data/config.json") ⟨[], []⟩ = (.ok (), after) ∧
      load after (Path.ofText "/data/config.json") = Table.ofList [("text_display_mode", "step"),
        ("last_episode", "intro")] ∧
      save untidy (Path.ofText "/data/config.json") after = (.ok (), again) ∧
      again.readBytes (Path.ofText "/data/config.json") =
        after.readBytes (Path.ofText "/data/config.json") := by
  have hsaved : (save untidy (Path.ofText "/data/config.json") ⟨[], []⟩).1 = .ok () := by
    decide +kernel
  obtain ⟨-, survives, -⟩ := settings_survive_file (Path.ofText "/data/config.json")
  obtain ⟨hload, hagain⟩ := survives untidy ⟨[], []⟩ _ (Prod.ext hsaved rfl)
  obtain ⟨again, hsave, hbytes⟩ := hagain untidy List.mem_cons_self
  exact ⟨_, again, Prod.ext hsaved rfl, hload.trans (by decide +kernel), hsave, hbytes⟩

end Settings

end Storyline
