import Storyline.Disk.Path

/-!
# Storyline.Proofs.Disk.Path

What the text of a path is made of.  Parts that are taken from a text, or joined, bring no
characters in but slashes and dots.  A name that is joined to a path becomes its last part.
-/

namespace Storyline.Path

theorem mem_of_mem_pieces {c : Char} {piece cs : List Char} (h : piece ∈ pieces cs)
    (hc : c ∈ piece) : c ∈ cs := by
  induction cs generalizing piece with
  | nil =>
    rw [pieces, List.mem_singleton] at h
    rw [h] at hc
    cases hc
  | cons d rest ih =>
    rw [pieces] at h
    split at h
    · obtain rfl | h := List.mem_cons.1 h
      · cases hc
      · exact List.mem_cons_of_mem d (ih h hc)
    · split at h
      · rw [List.mem_singleton.1 h] at hc
        exact List.mem_singleton.1 hc ▸ List.mem_cons_self
      · next first more hpieces =>
        obtain rfl | h := List.mem_cons.1 h
        · obtain rfl | hc := List.mem_cons.1 hc
          · exact List.mem_cons_self
          · exact List.mem_cons_of_mem d (ih (hpieces ▸ List.mem_cons_self) hc)
        · exact List.mem_cons_of_mem d (ih (hpieces ▸ List.mem_cons_of_mem first h) hc)

/-- The parts of a path are made of the characters of its text. -/
theorem mem_of_mem_parts {c : Char} {text part : String} (h : part ∈ (ofText text).parts)
    (hc : c ∈ part.toList) : c ∈ text.toList := by
  obtain ⟨piece, hpiece, rfl⟩ := List.mem_map.1 h
  rw [String.toList_ofList] at hc
  exact mem_of_mem_pieces (List.mem_filter.1 hpiece).1 hc

theorem mem_of_mem_intersperse {α : Type} {a separator : α} {l : List α}
    (h : a ∈ l.intersperse separator) : a = separator ∨ a ∈ l := by
  induction l with
  | nil => cases h
  | cons b rest ih =>
    cases rest with
    | nil => exact .inr h
    | cons c rest =>
      rw [List.intersperse_cons_cons, List.mem_cons, List.mem_cons] at h
      obtain rfl | rfl | h := h
      · exact .inr List.mem_cons_self
      · exact .inl rfl
      · exact (ih h).imp_right (List.mem_cons_of_mem b)

/-- The text of a path is made of slashes, of dots and of the characters of its parts. -/
theorem mem_text {p : Path} {c : Char} (h : c ∈ p.text.toList) :
    c = '/' ∨ c = '.' ∨ ∃ part ∈ p.parts, c ∈ part.toList := by
  rw [text] at h
  split at h
  · exact .inr (.inl (List.mem_singleton.1 h))
  · rw [String.toList_append, List.mem_append, String.toList_intercalate, List.intercalate,
      List.mem_flatten] at h
    obtain hroot | ⟨piece, hpiece, hc⟩ := h
    · have hslash : ∀ root, ∀ d ∈ (rootText root).toList, d = '/' := by
        intro root
        cases root <;> simp [rootText]
      exact .inl (hslash p.root c hroot)
    · obtain rfl | hpiece := mem_of_mem_intersperse hpiece
      · exact .inl (List.mem_singleton.1 hc)
      · obtain ⟨part, hpart, rfl⟩ := List.mem_map.1 hpiece
        exact .inr (.inr ⟨part, hpart, hc⟩)

/-- What is joined of parts without the NUL character is without it. -/
theorem nul_not_mem_join {p : Path} {name : String}
    (hp : ∀ part ∈ p.parts, '\x00' ∉ part.toList) (hname : '\x00' ∉ name.toList) :
    '\x00' ∉ (p.join name).text.toList := by
  intro h
  have hparts : ∀ part ∈ (p.join name).parts, '\x00' ∉ part.toList := by
    intro part hpart hnul
    have hjoined : part ∈ p.parts ∨ part ∈ (ofText name).parts := by
      rw [join] at hpart
      split at hpart
      · exact List.mem_append.1 hpart
      · exact .inr hpart
    obtain hold | hnew := hjoined
    · exact hp part hold hnul
    · exact hname (mem_of_mem_parts hnew hnul)
  obtain h | h | ⟨part, hpart, hnul⟩ := mem_text h
  · cases h
  · cases h
  · exact hparts part hpart hnul

/-! ## Going up -/

/-- The text of a path goes on where that of the path without its last part ends. -/
theorem exists_text_parent (p : Path) :
    ∃ more, rootText p.root ++ "/".intercalate p.parts =
      rootText p.parent.root ++ "/".intercalate p.parent.parts ++ more := by
  have hparts : ∀ parts : List String,
      ∃ more, "/".intercalate parts = "/".intercalate parts.dropLast ++ more := by
    intro parts
    induction parts with
    | nil => exact ⟨"", by simp⟩
    | cons part rest ih =>
      obtain ⟨more, ih⟩ := ih
      cases rest with
      | nil => exact ⟨part, by simp⟩
      | cons next rest =>
        rw [String.intercalate_cons_of_ne_nil (List.cons_ne_nil next rest), ih,
          List.dropLast_cons_cons]
        cases hrest : (next :: rest).dropLast with
        | nil => exact ⟨"/" ++ more, by simp [String.append_assoc]⟩
        | cons first others =>
          rw [String.intercalate_cons_of_ne_nil (List.cons_ne_nil first others)]
          exact ⟨more, by simp [String.append_assoc]⟩
  obtain ⟨more, hmore⟩ := hparts p.parts
  exact ⟨more, by rw [hmore, parent, String.append_assoc]⟩

/-- The text of a path goes on from that of the path without its last part, if that is not the
working directory. -/
theorem text_parent (p : Path) :
    p.parent.text = "." ∨ ∃ more, p.text = p.parent.text ++ more := by
  obtain ⟨more, hmore⟩ := exists_text_parent p
  rw [text, text, hmore]
  by_cases h : rootText p.parent.root ++ "/".intercalate p.parent.parts = ""
  · exact .inl (if_pos h)
  · have hwhole : rootText p.parent.root ++ "/".intercalate p.parent.parts ++ more ≠ "" :=
      fun hempty => h (String.append_eq_empty_iff.1 hempty).1
    exact .inr ⟨more, by rw [if_neg h, if_neg hwhole]⟩

/-- A path is not longer than it is with one more part. -/
theorem size_text_parent_le (p : Path) : p.parent.text.utf8ByteSize ≤ p.text.utf8ByteSize := by
  obtain hdot | ⟨more, hmore⟩ := text_parent p
  · have hne : p.text ≠ "" := by
      rw [text]
      split
      · decide
      · assumption
    rw [hdot]
    exact Nat.one_le_iff_ne_zero.2 fun hzero => hne (String.utf8ByteSize_eq_zero_iff.1 hzero)
  · rw [hmore, String.utf8ByteSize_append]
    exact Nat.le_add_right _ _

theorem nul_not_mem_text_parent {p : Path} (h : '\x00' ∉ p.text.toList) :
    '\x00' ∉ p.parent.text.toList := by
  obtain hdot | ⟨more, hmore⟩ := text_parent p
  · rw [hdot]
    decide
  · rw [hmore, String.toList_append, List.mem_append, not_or] at h
    exact h.1

/-! ## Names -/

/-- Whether a text can name what lies in a directory: it is a part of its own and leads down. -/
structure IsName (name : String) : Prop where
  ne_empty : name ≠ ""
  ne_dot : name ≠ "."
  ne_dots : name ≠ ".."
  no_slash : '/' ∉ name.toList

instance decideIsName (name : String) : Decidable (IsName name) :=
  decidable_of_iff (name ≠ "" ∧ name ≠ "." ∧ name ≠ ".." ∧ '/' ∉ name.toList)
    ⟨fun h => ⟨h.1, h.2.1, h.2.2.1, h.2.2.2⟩,
      fun h => ⟨h.ne_empty, h.ne_dot, h.ne_dots, h.no_slash⟩⟩

/-- A text without slashes is the name of a document once the suffix is put to it. -/
theorem isName_json {base : String} (h : '/' ∉ base.toList) : IsName (base ++ ".json") := by
  have hlength : 5 ≤ (base ++ ".json").toList.length := by
    rw [String.toList_append, List.length_append]
    exact Nat.le_add_left 5 _
  have hshort : ∀ text : String, text.toList.length < 5 → base ++ ".json" ≠ text := by
    rintro text hlt rfl
    exact absurd hlength (Nat.not_le.2 hlt)
  refine ⟨hshort _ (by decide), hshort _ (by decide), hshort _ (by decide), fun hslash => ?_⟩
  rw [String.toList_append, List.mem_append] at hslash
  exact absurd (hslash.resolve_left h) (by decide)

theorem pieces_of_not_mem {cs : List Char} (h : '/' ∉ cs) : pieces cs = [cs] := by
  induction cs with
  | nil => rfl
  | cons c rest ih =>
    obtain ⟨hc, hrest⟩ := not_or.1 (mt List.mem_cons.2 h)
    rw [pieces, if_neg (Ne.symm hc), ih hrest]

theorem rootOf_of_not_mem {cs : List Char} (h : '/' ∉ cs) : rootOf cs = .here := by
  rw [rootOf.eq_def]
  split
  · exact absurd List.mem_cons_self h
  · exact absurd List.mem_cons_self h
  · exact absurd List.mem_cons_self h
  · rfl

/-- A name that is joined to a path is its last part. -/
theorem IsName.join {name : String} (h : IsName name) (p : Path) :
    p.join name = ⟨p.root, p.parts ++ [name]⟩ := by
  have hpart : isPart name.toList = true := by
    have hnil : name.toList ≠ [] := fun heq => h.ne_empty (String.toList_inj.1 heq)
    have hsingle : name.toList ≠ ['.'] := fun heq => h.ne_dot (String.toList_inj.1 heq)
    exact decide_eq_true ⟨hnil, hsingle⟩
  have htext : ofText name = ⟨.here, [name]⟩ := by
    rw [ofText, rootOf_of_not_mem h.no_slash, pieces_of_not_mem h.no_slash,
      List.filter_cons_of_pos hpart, List.filter_nil, List.map_singleton, String.ofList_toList]
  rw [Path.join, htext]

/-- The text of a path goes on with a name that is joined to it. -/
theorem text_join {name : String} (h : IsName name) (p : Path) :
    (p.join name).text =
      (if p.parts = [] then rootText p.root else rootText p.root ++ "/".intercalate p.parts ++ "/") ++
        name := by
  have hjoined : ∀ parts : List String, "/".intercalate (parts ++ [name]) =
      (if parts = [] then "" else "/".intercalate parts ++ "/") ++ name := by
    intro parts
    induction parts with
    | nil => simp
    | cons part rest ih =>
      rw [List.cons_append, String.intercalate_cons_of_ne_nil (List.concat_ne_nil name rest), ih]
      cases rest with
      | nil => simp
      | cons next rest => simp [String.append_assoc]
  have hne : rootText p.root ++ "/".intercalate (p.parts ++ [name]) ≠ "" := by
    rw [hjoined]
    intro hempty
    simp only [String.append_eq_empty_iff] at hempty
    exact h.ne_empty hempty.2.2
  rw [h.join, text, if_neg hne, hjoined]
  split <;> simp [String.append_assoc]

/-- What is joined to a path holds the NUL character if the path or the name does. -/
theorem nul_mem_text_join {name : String} (h : IsName name) (p : Path) :
    '\x00' ∈ (p.join name).text.toList ↔ '\x00' ∈ p.text.toList ∨ '\x00' ∈ name.toList := by
  rw [text_join h, text]
  by_cases hparts : p.parts = []
  · rw [if_pos hparts, hparts]
    cases p.root <;> simp [rootText]
  · rw [if_neg hparts]
    by_cases hbody : rootText p.root ++ "/".intercalate p.parts = ""
    · simp [hbody]
    · simp [hbody, or_assoc]

/-- A path is not longer than what is joined to it. -/
theorem size_text_le_join {name : String} (h : IsName name) (p : Path) :
    p.text.utf8ByteSize ≤ (p.join name).text.utf8ByteSize := by
  have hparent : (p.join name).parent = p := by rw [h.join, parent, List.dropLast_concat]
  have hle := size_text_parent_le (p.join name)
  rwa [hparent] at hle

end Storyline.Path
