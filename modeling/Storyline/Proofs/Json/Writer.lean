import Storyline.Proofs.Act
import Storyline.Proofs.Json.Text
import Storyline.Proofs.Numeral

/-!
# Storyline.Proofs.Json.Writer

Laws of writing.  Only one thing keeps a value from being written, a whole number
that is too long, and where the names of an object all differ their order does
not show in its text.  Whatever the value is, its text is plain.
-/

namespace Storyline.Json

variable {τ : Type} [Textual τ]

theorem write_fault {n : Int} {fault : NumberFault} (h : Numeral.write n = .error fault) :
    fault = .unwritable := by
  rw [Numeral.write] at h
  split at h <;> cases h
  rfl

theorem writeAmount_fault {a : Amount} {fault : NumberFault} (h : writeAmount a = .error fault) :
    fault = .unwritable := by
  cases a with
  | int n => exact write_fault h
  | real x => cases h

mutual

/-- Nothing but a number that is too long keeps a value from being written. -/
theorem writeChars_fault {fault : NumberFault} :
    ∀ {j : Json τ}, writeChars j = .error fault → fault = .unwritable
  | .null, h => by cases h
  | .bool true, h => by cases h
  | .bool false, h => by cases h
  | .string _, h => by cases h
  | .number a, h => by
    rw [writeChars] at h
    cases ha : writeAmount a with
    | ok text => simp only [ha] at h; contradiction
    | error e => rw [ha] at h; cases h; exact writeAmount_fault ha
  | .array items, h => by
    rw [writeChars] at h
    cases hi : writeItems items with
    | ok parts => simp only [hi] at h; contradiction
    | error e => rw [hi] at h; cases h; exact writeItems_fault hi
  | .object members, h => by
    rw [writeChars] at h
    cases hm : writeMembers members with
    | ok parts => simp only [hm] at h; contradiction
    | error e => rw [hm] at h; cases h; exact writeMembers_fault hm

theorem writeItems_fault {fault : NumberFault} :
    ∀ {items : List (Json τ)}, writeItems items = .error fault → fault = .unwritable
  | [], h => by cases h
  | item :: rest, h => by
    rw [writeItems] at h
    cases hi : writeChars item with
    | error e => rw [hi] at h; cases h; exact writeChars_fault hi
    | ok part =>
      cases hr : writeItems rest with
      | ok parts => simp only [hi, hr] at h; contradiction
      | error e => rw [hi, hr] at h; cases h; exact writeItems_fault hr

theorem writeMembers_fault {fault : NumberFault} :
    ∀ {members : List (τ × Json τ)}, writeMembers members = .error fault → fault = .unwritable
  | [], h => by cases h
  | (name, value) :: rest, h => by
    rw [writeMembers] at h
    cases hv : writeChars value with
    | error e => rw [hv] at h; cases h; exact writeChars_fault hv
    | ok part =>
      cases hr : writeMembers rest with
      | ok parts => simp only [hv, hr] at h; contradiction
      | error e => rw [hv, hr] at h; cases h; exact writeMembers_fault hr

end

theorem writeItems_cons_ok {item : Json τ} {rest : List (Json τ)} {parts : List (List Char)}
    (h : writeItems (item :: rest) = .ok parts) :
    ∃ part others, writeChars item = .ok part ∧ writeItems rest = .ok others ∧
      parts = part :: others := by
  rw [writeItems] at h
  cases hi : writeChars item with
  | error e => simp only [hi] at h; contradiction
  | ok part =>
    cases hr : writeItems rest with
    | error e => simp only [hi, hr] at h; contradiction
    | ok others => rw [hi, hr] at h; cases h; exact ⟨part, others, rfl, rfl, rfl⟩

theorem writeMembers_cons_ok {name : τ} {value : Json τ} {rest : List (τ × Json τ)}
    {parts : List (τ × List Char)} (h : writeMembers ((name, value) :: rest) = .ok parts) :
    ∃ part others, writeChars value = .ok part ∧ writeMembers rest = .ok others ∧
      parts = (name, part) :: others := by
  rw [writeMembers] at h
  cases hv : writeChars value with
  | error e => simp only [hv] at h; contradiction
  | ok part =>
    cases hr : writeMembers rest with
    | error e => simp only [hv, hr] at h; contradiction
    | ok others => rw [hv, hr] at h; cases h; exact ⟨part, others, rfl, rfl, rfl⟩

theorem names_of_writeMembers {members : List (τ × Json τ)} {parts : List (τ × List Char)}
    (h : writeMembers members = .ok parts) : parts.map Prod.fst = members.map Prod.fst := by
  induction members generalizing parts with
  | nil => cases h; rfl
  | cons e rest ih =>
    obtain ⟨part, others, -, hr, rfl⟩ := writeMembers_cons_ok h
    rw [List.map_cons, List.map_cons, ih hr]

/-- Members in another order have the same texts in another order. -/
theorem writeMembers_of_perm {members others : List (τ × Json τ)} (h : members.Perm others) :
    Agree List.Perm (writeMembers members) (writeMembers others) := by
  induction h with
  | nil => exact .ok .nil
  | cons e _ ih =>
    rw [writeMembers, writeMembers]
    cases writeChars e.2 with
    | error fault => exact .error fault
    | ok part => exact ih.map fun _ _ hp => hp.cons (e.1, part)
  | swap d e rest =>
    simp only [writeMembers]
    -- If both are too long the first one met is blamed, but the blame is the same.
    cases hd : writeChars d.2 with
    | error fault =>
      cases he : writeChars e.2 with
      | error other =>
        rw [writeChars_fault hd, writeChars_fault he]
        exact .error _
      | ok part => exact .error fault
    | ok part =>
      cases writeChars e.2 with
      | error other => exact .error other
      | ok part' =>
        cases writeMembers rest with
        | error fault => exact .error fault
        | ok parts => exact .ok (.swap _ _ parts)
  | trans _ _ ih ih' => exact ih.trans ih' fun _ _ _ => List.Perm.trans

theorem nodup_wide {α : Type} {l : List (τ × α)} (h : (l.map Prod.fst).Nodup) :
    (l.map fun e => wide e.1).Nodup := by
  rw [List.Nodup, List.pairwise_map] at h ⊢
  exact h.imp fun hne heq => hne (wide_injective heq)

/-- Where all names differ, their order does not show. -/
theorem writeChars_object_of_perm {members others : List (τ × Json τ)}
    (h : members.Perm others) (distinct : (members.map Prod.fst).Nodup) :
    writeChars (.object members) = writeChars (.object others) := by
  have hp := writeMembers_of_perm h
  rw [writeChars, writeChars]
  cases hm : writeMembers members with
  | error fault => rw [hp.eq_error hm]
  | ok parts =>
    obtain ⟨parts', hm', hperm⟩ := hp.eq_ok hm
    have hn : (parts.map Prod.fst).Nodup := by rw [names_of_writeMembers hm]; exact distinct
    rw [hm']
    simp only [bind, Except.bind, sortBy_eq_of_perm _ hperm (nodup_wide hn)]

/-! ## Plain text -/

theorem isPlain_of_all {cs : List Char} (h : (cs.all fun c => decide (IsPlain c)) = true) :
    ∀ c ∈ cs, IsPlain c :=
  fun c hc => of_decide_eq_true (List.all_eq_true.1 h c hc)

theorem isPlain_digits {digits : List Char} (h : ∀ c ∈ digits, c.isDigit = true) :
    ∀ c ∈ digits, IsPlain c := by
  intro c hc
  have hdigit : 48 ≤ c.toNat ∧ c.toNat ≤ 57 := Char.isDigit_iff_toNat.1 (h c hc)
  exact ⟨by omega, by omega⟩

theorem isPlain_toDigits (n : Nat) : ∀ c ∈ Nat.toDigits 10 n, IsPlain c :=
  isPlain_digits fun _ => Numeral.isDigit_of_mem

theorem isPlain_zeros (k : Nat) : ∀ c ∈ List.replicate k '0', IsPlain c := by
  intro c hc
  rw [List.eq_of_mem_replicate hc]
  decide

theorem isPlain_append {cs ds : List Char} (hc : ∀ c ∈ cs, IsPlain c) (hd : ∀ c ∈ ds, IsPlain c) :
    ∀ c ∈ cs ++ ds, IsPlain c :=
  List.forall_mem_append.2 ⟨hc, hd⟩

theorem isPlain_cons {c : Char} {cs : List Char} (hc : IsPlain c) (h : ∀ d ∈ cs, IsPlain d) :
    ∀ d ∈ c :: cs, IsPlain d :=
  List.forall_mem_cons.2 ⟨hc, h⟩

theorem isPlain_positional {digits : List Char} (h : ∀ c ∈ digits, IsPlain c) (leading : Int) :
    ∀ c ∈ Binary64.positional digits leading, IsPlain c := by
  rw [Binary64.positional]
  split
  · exact isPlain_append (isPlain_cons (by decide) (isPlain_cons (by decide) (isPlain_zeros _))) h
  · dsimp only
    split
    · exact isPlain_append (isPlain_append h (isPlain_zeros _)) (isPlain_of_all rfl)
    · exact isPlain_append (fun c hc => h c (List.mem_of_mem_take hc))
        (isPlain_cons (by decide) fun c hc => h c (List.mem_of_mem_drop hc))

theorem isPlain_scientific {digits : List Char} (h : ∀ c ∈ digits, IsPlain c) (leading : Int) :
    ∀ c ∈ Binary64.scientific digits leading, IsPlain c := by
  have hsign : IsPlain (if leading < 0 then '-' else '+') := by split <;> decide
  have hfigures : ∀ c ∈ 'e' :: (if leading < 0 then '-' else '+') ::
      List.replicate (2 - (Nat.toDigits 10 leading.natAbs).length) '0', IsPlain c :=
    isPlain_cons (by decide) (isPlain_cons hsign (isPlain_zeros _))
  have hfirst : ∀ c ∈ digits.take 1, IsPlain c := fun c hc => h c (List.mem_of_mem_take hc)
  have hrest : ∀ c ∈ digits.drop 1, IsPlain c := fun c hc => h c (List.mem_of_mem_drop hc)
  rw [Binary64.scientific]
  apply isPlain_append _ (isPlain_toDigits _)
  apply isPlain_append _ hfigures
  apply isPlain_append hfirst
  cases hd : digits.drop 1 with
  | nil => exact isPlain_of_all rfl
  | cons c rest => exact isPlain_cons (by decide) (hd ▸ hrest)

theorem isPlain_writeRank (rank : Nat) : ∀ c ∈ Binary64.writeRank rank, IsPlain c := by
  rw [Binary64.writeRank, Binary64.writeDecimal]
  split
  · exact isPlain_of_all rfl
  · split
    · exact isPlain_positional (isPlain_toDigits _) _
    · exact isPlain_scientific (isPlain_toDigits _) _

theorem isPlain_chars (n : Int) : ∀ c ∈ Numeral.chars n, IsPlain c := by
  rw [Numeral.chars]
  split
  · exact isPlain_cons (by decide) (isPlain_toDigits _)
  · exact isPlain_toDigits _

theorem isPlain_writeReal (x : Binary64) : ∀ c ∈ (x.text numberSpelling).toList, IsPlain c := by
  cases x with
  | nan => simp [Binary64.text, numberSpelling, IsPlain]
  | infinity negative => cases negative <;> simp [Binary64.text, numberSpelling, IsPlain]
  | finite negative rank =>
    cases negative with
    | false =>
      rw [Binary64.text, String.toList_ofList]
      exact isPlain_writeRank _
    | true =>
      rw [Binary64.text, String.toList_ofList]
      exact isPlain_cons (by decide) (isPlain_writeRank _)

theorem isPlain_writeAmount {a : Amount} {text : String} (h : writeAmount a = .ok text) :
    ∀ c ∈ text.toList, IsPlain c := by
  cases a with
  | int n =>
    rw [writeAmount] at h
    obtain ⟨rfl, -⟩ := Numeral.write_ok h
    rw [String.toList_ofList]
    exact isPlain_chars n
  | real x =>
    rw [writeAmount] at h
    rw [← Except.ok.inj h]
    exact isPlain_writeReal x

theorem isPlain_separated {parts : List (List Char)} (h : ∀ part ∈ parts, ∀ c ∈ part, IsPlain c) :
    ∀ c ∈ separated ", " parts, IsPlain c := by
  induction parts with
  | nil => exact nofun
  | cons part rest ih =>
    obtain ⟨hpart, hrest⟩ := List.forall_mem_cons.1 h
    cases rest with
    | nil => exact hpart
    | cons next rest =>
      rw [separated]
      · exact isPlain_append (isPlain_append hpart (isPlain_of_all rfl)) (ih hrest)
      · nofun

theorem isPlain_writeMember {name : τ} {part : List Char} (h : ∀ c ∈ part, IsPlain c) :
    ∀ c ∈ writeMember (name, part), IsPlain c :=
  isPlain_append (isPlain_writeString name) (isPlain_cons (by decide) (isPlain_cons (by decide) h))

mutual

/-- Whatever is written, it is written in plain characters. -/
theorem isPlain_writeChars : ∀ {j : Json τ} {cs : List Char}, writeChars j = .ok cs →
    ∀ c ∈ cs, IsPlain c
  | .null, _, h => by cases h; exact isPlain_of_all rfl
  | .bool true, _, h => by cases h; exact isPlain_of_all rfl
  | .bool false, _, h => by cases h; exact isPlain_of_all rfl
  | .string s, _, h => by cases h; exact isPlain_writeString s
  | .number a, _, h => by
    rw [writeChars] at h
    cases ha : writeAmount a with
    | error e => simp only [ha] at h; contradiction
    | ok text => rw [ha] at h; cases h; exact isPlain_writeAmount ha
  | .array items, _, h => by
    rw [writeChars] at h
    cases hi : writeItems items with
    | error e => simp only [hi] at h; contradiction
    | ok parts =>
      rw [hi] at h
      cases h
      have hinner := isPlain_separated (isPlain_writeItems hi)
      exact isPlain_append (isPlain_cons (by decide) hinner) (isPlain_of_all rfl)
  | .object members, _, h => by
    rw [writeChars] at h
    cases hm : writeMembers members with
    | error e => simp only [hm] at h; contradiction
    | ok parts =>
      rw [hm] at h
      cases h
      have hinner : ∀ part ∈ (sortBy (fun part => wide part.1) parts).map writeMember,
          ∀ c ∈ part, IsPlain c := by
        intro part hpart
        obtain ⟨e, he, rfl⟩ := List.mem_map.1 hpart
        exact isPlain_writeMember (isPlain_writeMembers hm e ((perm_sortBy _ _).mem_iff.1 he))
      have hopen := isPlain_cons (c := '\x7b') (by decide) (isPlain_separated hinner)
      exact isPlain_append hopen (isPlain_of_all rfl)

theorem isPlain_writeItems : ∀ {items : List (Json τ)} {parts : List (List Char)},
    writeItems items = .ok parts → ∀ part ∈ parts, ∀ c ∈ part, IsPlain c
  | [], _, h => by cases h; exact nofun
  | item :: rest, _, h => by
    obtain ⟨part, others, hpart, hothers, rfl⟩ := writeItems_cons_ok h
    exact List.forall_mem_cons.2 ⟨isPlain_writeChars hpart, isPlain_writeItems hothers⟩

theorem isPlain_writeMembers :
    ∀ {members : List (τ × Json τ)} {parts : List (τ × List Char)},
    writeMembers members = .ok parts → ∀ e ∈ parts, ∀ c ∈ e.2, IsPlain c
  | [], _, h => by cases h; exact nofun
  | (name, value) :: rest, _, h => by
    obtain ⟨part, others, hpart, hothers, rfl⟩ := writeMembers_cons_ok h
    exact List.forall_mem_cons.2 ⟨isPlain_writeChars hpart, isPlain_writeMembers hothers⟩

end

/-- Whether a text is plain. -/
def PlainText (text : String) : Prop := ∀ c ∈ text.toList, IsPlain c

theorem plainText_write {j : Json τ} {text : String} (h : j.write = .ok text) : PlainText text := by
  rw [write] at h
  cases hj : writeChars j with
  | error fault => simp only [hj] at h; contradiction
  | ok cs =>
    rw [hj] at h
    rw [← Except.ok.inj h, PlainText, String.toList_ofList]
    exact isPlain_writeChars hj

end Storyline.Json
