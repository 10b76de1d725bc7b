import Storyline.Json.Reader
import Storyline.Json.Writer
import Storyline.Proofs.Act
import Storyline.Proofs.Text.Wide

/-!
# Storyline.Proofs.Json.Text

Strings are read as they were written, if they are joined.  Every code point is one
piece of the text, whatever follows it, as long as something does: the closing mark always
comes last.  Only a first half of a pair is not, if the second half is what follows.
-/

namespace Storyline

namespace Text

theorem toDigits_hex {n : Nat} (h : 16 ≤ n) :
    Nat.toDigits 16 n = Nat.toDigits 16 (n / 16) ++ [(n % 16).digitChar] := by
  rw [Nat.toDigits_eq_if (by decide), if_neg (by omega)]

theorem toDigits_hex_small {n : Nat} (h : n < 16) : Nat.toDigits 16 n = [n.digitChar] :=
  Nat.toDigits_of_lt_base h

/-- The four digits of a unit. -/
theorem hex_four {n : Nat} (h : n < 0x10000) :
    hex 4 n = [(n / 16 / 16 / 16).digitChar, (n / 16 / 16 % 16).digitChar,
      (n / 16 % 16).digitChar, (n % 16).digitChar] := by
  have zero : (0 : Nat).digitChar = '0' := rfl
  rw [hex]
  by_cases h₁ : n < 16
  · rw [toDigits_hex_small h₁, Nat.div_eq_of_lt h₁, Nat.mod_eq_of_lt h₁]
    rfl
  rw [toDigits_hex (by omega)]
  by_cases h₂ : n / 16 < 16
  · rw [toDigits_hex_small h₂, Nat.div_eq_of_lt h₂, Nat.mod_eq_of_lt h₂]
    rfl
  rw [toDigits_hex (by omega)]
  by_cases h₃ : n / 16 / 16 < 16
  · rw [toDigits_hex_small h₃, Nat.div_eq_of_lt h₃, Nat.mod_eq_of_lt h₃]
    rfl
  · have h₄ : n / 16 / 16 / 16 < 16 := by omega
    rw [toDigits_hex (by omega), toDigits_hex_small h₄]
    rfl

end Text

namespace Json

/-! ## Units -/

theorem hexValue?_digitChar : ∀ {n : Nat}, n < 16 → hexValue? n.digitChar = some n := by decide

theorem readUnit?_hex {n : Nat} (h : n < 0x10000) {rest : List Char} (hr : rest ≠ []) :
    readUnit? (Text.hex 4 n ++ rest) = some (n, rest) := by
  have hempty : rest.isEmpty = false := by cases rest <;> simp_all
  rw [Text.hex_four h]
  simp only [List.cons_append, List.nil_append, readUnit?, hempty, Bool.false_eq_true, if_false,
    hexValue?_digitChar (show n / 16 / 16 / 16 < 16 by omega),
    hexValue?_digitChar (Nat.mod_lt _ (show 16 > 0 by decide))]
  have hn : ((n / 16 / 16 / 16 * 16 + n / 16 / 16 % 16) * 16 + n / 16 % 16) * 16 + n % 16 = n := by
    omega
  rw [hn]

theorem writeUnit_append_ne_nil (n : Nat) (rest : List Char) : writeUnit n ++ rest ≠ [] :=
  List.cons_ne_nil _ _

theorem nextPiece_writeUnit (text : WideString) {n : Nat} (h : n < 0x10000) {rest : List Char}
    (hr : rest ≠ []) :
    nextPiece text (writeUnit n ++ rest) = .point (joinUnits n rest).1 (joinUnits n rest).2 := by
  rw [writeUnit, List.cons_append, List.cons_append, nextPiece, if_neg (by decide),
    if_pos rfl, if_pos rfl, readUnit?_hex h hr]

theorem readLow?_writeUnit {n : Nat} (hlow : 0xDC00 ≤ n) (h : n < 0xE000) {rest : List Char}
    (hr : rest ≠ []) : readLow? (writeUnit n ++ rest) = some (n, rest) := by
  rw [writeUnit, List.cons_append, List.cons_append, readLow?, readUnit?_hex (by omega) hr]
  exact if_pos ⟨hlow, h⟩

theorem readLow?_writeUnit_of_not {n : Nat} (hlow : n < 0xDC00 ∨ 0xE000 ≤ n) (h : n < 0x10000)
    {rest : List Char} (hr : rest ≠ []) : readLow? (writeUnit n ++ rest) = none := by
  rw [writeUnit, List.cons_append, List.cons_append, readLow?, readUnit?_hex h hr]
  exact if_neg (by omega)

/-- A character of the basic plane is no half of a pair. -/
theorem joinUnits_char {c : Char} (h : c.toNat < 0x10000) (rest : List Char) :
    joinUnits c.toNat rest = (.char c, rest) := by
  have hvalid := toNat_valid c
  rw [joinUnits, dif_neg (by omega), Char.ofNat_toNat]

/-- Half of a pair stays alone, unless it is the first one and the second one follows. -/
theorem joinUnits_half {h : Half} {rest : List Char} (alone : h.IsFirst → readLow? rest = none) :
    joinUnits h.unit rest = (.half h, rest) := by
  have hnone : (if h.unit < 0xDC00 then readLow? rest else none) = none := by
    split
    · next hfirst => exact alone hfirst
    · rfl
  rw [joinUnits, dif_pos ⟨h.first_le, h.lt_end⟩, hnone]

/-- The two halves of a pair make up the character they were made of. -/
theorem joinUnits_pair {c : Char} (h : 0x10000 ≤ c.toNat) {rest : List Char} (hr : rest ≠ []) :
    joinUnits (0xD800 + (c.toNat - 0x10000) / 0x400)
      (writeUnit (0xDC00 + (c.toNat - 0x10000) % 0x400) ++ rest) = (.char c, rest) := by
  have hvalid := toNat_valid c
  have hmod : (c.toNat - 0x10000) % 0x400 < 0x400 := Nat.mod_lt _ (by decide)
  rw [joinUnits, dif_pos (by omega), if_pos (by omega),
    readLow?_writeUnit (by omega) (by omega) hr]
  have hc : 0x10000 + (0xD800 + (c.toNat - 0x10000) / 0x400 - 0xD800) * 0x400 +
      (0xDC00 + (c.toNat - 0x10000) % 0x400 - 0xDC00) = c.toNat := by omega
  simp only [hc, Char.ofNat_toNat]

/-! ## Characters and strings -/

/-- Whether a character can be printed and is ASCII. -/
def IsPlain (c : Char) : Prop := 32 ≤ c.toNat ∧ c.toNat < 127

instance (c : Char) : Decidable (IsPlain c) := inferInstanceAs (Decidable (_ ∧ _))

/-- The forms in which a character is written. -/
inductive WrittenAs (c : Char) : List Char → Prop
  | escape {e : Char} (plain : IsPlain e) (stands : escaped? e = some c) : WrittenAs c ['\\', e]
  | itself (plain : IsPlain c) (quote : c ≠ '"') (backslash : c ≠ '\\') : WrittenAs c [c]
  | unit (small : c.toNat < 0x10000) : WrittenAs c (writeUnit c.toNat)
  | pair (large : 0x10000 ≤ c.toNat) :
    WrittenAs c (writeUnit (0xD800 + (c.toNat - 0x10000) / 0x400) ++
      writeUnit (0xDC00 + (c.toNat - 0x10000) % 0x400))

theorem writtenAs (c : Char) : WrittenAs c (writeChar c) := by
  by_cases h₁ : c = '"'
  · subst h₁; exact .escape (e := '"') (by decide) rfl
  by_cases h₂ : c = '\\'
  · subst h₂; exact .escape (e := '\\') (by decide) rfl
  by_cases h₃ : c = '\n'
  · subst h₃; exact .escape (e := 'n') (by decide) rfl
  by_cases h₄ : c = '\r'
  · subst h₄; exact .escape (e := 'r') (by decide) rfl
  by_cases h₅ : c = '\t'
  · subst h₅; exact .escape (e := 't') (by decide) rfl
  by_cases h₆ : c = '\x08'
  · subst h₆; exact .escape (e := 'b') (by decide) rfl
  by_cases h₇ : c = '\x0c'
  · subst h₇; exact .escape (e := 'f') (by decide) rfl
  rw [writeChar, if_neg h₁, if_neg h₂, if_neg h₃, if_neg h₄, if_neg h₅, if_neg h₆, if_neg h₇]
  by_cases hp : 32 ≤ c.toNat ∧ c.toNat < 127
  · rw [if_pos hp]
    exact .itself hp h₁ h₂
  rw [if_neg hp]
  by_cases hs : c.toNat < 0x10000
  · rw [if_pos hs]
    exact .unit hs
  · rw [if_neg hs]
    exact .pair (Nat.not_lt.1 hs)

theorem ne_standIn_of_isPlain {c : Char} (h : IsPlain c) : c ≠ Point.standIn := by
  rintro rfl
  exact absurd h (by decide)

/-- A character that is written is the next piece of the text. -/
theorem nextPiece_writeChar (text : WideString) (c : Char) {rest : List Char} (hr : rest ≠ []) :
    nextPiece text (writeChar c ++ rest) = .point (.char c) rest := by
  have h := writtenAs c
  generalize writeChar c = cs at h ⊢
  cases h with
  | @escape e _ stands =>
    have hu : e ≠ 'u' := by rintro rfl; cases stands
    rw [List.cons_append, List.singleton_append, nextPiece, if_neg (by decide), if_pos rfl]
    simp only [if_neg hu, stands]
  | itself plain quote backslash =>
    show nextPiece text (c :: rest) = _
    simp only [nextPiece, if_neg quote, if_neg backslash, if_neg (Nat.not_lt.2 plain.1),
      text.pointAt_of_ne (ne_standIn_of_isPlain plain)]
  | unit small => rw [nextPiece_writeUnit text small hr, joinUnits_char small]
  | pair large =>
    have hvalid := toNat_valid c
    rw [List.append_assoc, nextPiece_writeUnit text (by omega) (writeUnit_append_ne_nil _ _),
      joinUnits_pair large hr]

/-- A code point that is written is the next piece of the text, unless it is a first half that
meets its second half there. -/
theorem nextPiece_writePoint (text : WideString) {p : Point} {rest : List Char} (hr : rest ≠ [])
    (alone : ∀ h, p = .half h → h.IsFirst → readLow? rest = none) :
    nextPiece text (writePoint p ++ rest) = .point p rest := by
  cases p with
  | char c => exact nextPiece_writeChar text c hr
  | half h =>
    have hunit := h.lt_end
    rw [writePoint, nextPiece_writeUnit text (by omega) hr, joinUnits_half (alone h rfl)]

/-- No character is written so that it could be taken for a second half. -/
theorem readLow?_writeChar (c : Char) {rest : List Char} (hr : rest ≠ []) :
    readLow? (writeChar c ++ rest) = none := by
  have hvalid := toNat_valid c
  have h := writtenAs c
  generalize writeChar c = cs at h ⊢
  cases h with
  | @escape e _ stands =>
    have hu : e ≠ 'u' := by rintro rfl; cases stands
    rw [readLow?.eq_def]
    split
    · next heq => exact absurd (List.cons.inj (List.cons.inj heq).2).1 hu
    · rfl
  | itself _ _ backslash =>
    rw [readLow?.eq_def]
    split
    · next heq => exact absurd (List.cons.inj heq).1 backslash
    · rfl
  | unit small => exact readLow?_writeUnit_of_not (by omega) small hr
  | pair large =>
    rw [List.append_assoc]
    exact readLow?_writeUnit_of_not (by omega) (by omega) (writeUnit_append_ne_nil _ _)

/-- What does not make up a pair with a first half is not taken for its second half. -/
theorem readLow?_writePoint {h : Half} (first : h.IsFirst) {p : Point}
    (apart : ¬(Point.half h).IsSplit p) {rest : List Char} (hr : rest ≠ []) :
    readLow? (writePoint p ++ rest) = none := by
  cases p with
  | char c => exact readLow?_writeChar c hr
  | half k =>
    have hfirst : k.unit < 0xDC00 := by
      by_contra hsecond
      exact apart ⟨first, hsecond⟩
    exact readLow?_writeUnit_of_not (.inl hfirst) (by omega) hr

theorem writeChar_ne_nil (c : Char) : writeChar c ≠ [] := by
  have h := writtenAs c
  generalize writeChar c = cs at h ⊢
  cases h <;> exact List.cons_ne_nil _ _

theorem writePoint_ne_nil (p : Point) : writePoint p ≠ [] := by
  cases p with
  | char c => exact writeChar_ne_nil c
  | half h => exact List.cons_ne_nil _ _

theorem length_le_flatMap_writePoint (ps : List Point) :
    ps.length ≤ (ps.flatMap writePoint).length := by
  induction ps with
  | nil => exact Nat.le_refl 0
  | cons p rest ih =>
    have hp : 0 < (writePoint p).length := List.length_pos_iff.2 (writePoint_ne_nil p)
    rw [List.flatMap_cons, List.length_append, List.length_cons]
    omega

theorem readPoints_written (text : WideString) (opening rest : List Char) {fuel : Nat}
    {ps : List Point} (joined : ps.IsChain fun p q => ¬p.IsSplit q) (h : ps.length < fuel) :
    readPoints text opening fuel (ps.flatMap writePoint ++ '"' :: rest) = .ok (ps, rest) := by
  induction ps generalizing fuel with
  | nil =>
    cases fuel with
    | zero => cases h
    | succ fuel => rfl
  | cons p ps ih =>
    cases fuel with
    | zero => cases h
    | succ fuel =>
      have hrest : ps.flatMap writePoint ++ '"' :: rest ≠ [] := by simp
      have halone : ∀ h, p = .half h → h.IsFirst →
          readLow? (ps.flatMap writePoint ++ '"' :: rest) = none := by
        rintro h rfl first
        cases ps with
        | nil => rfl
        | cons q ps =>
          rw [List.flatMap_cons, List.append_assoc]
          exact readLow?_writePoint first (List.isChain_cons_cons.1 joined).1 (by simp)
      rw [List.flatMap_cons, List.append_assoc, readPoints,
        nextPiece_writePoint text hrest halone]
      simp only [ih joined.tail (Nat.lt_of_succ_lt_succ h), Except.map]

variable {τ : Type} [Textual τ]

/-- A joined string that is written is read. -/
theorem readString_written (text : WideString) (opening : List Char) {s : τ}
    (joined : (wide s).Joined) (rest : List Char) :
    readString text opening ((wide s).points.flatMap writePoint ++ '"' :: rest) =
      .ok (s, rest) := by
  have hlength : (wide s).points.length <
      ((wide s).points.flatMap writePoint ++ '"' :: rest).length + 1 := by
    have h := length_le_flatMap_writePoint (wide s).points
    rw [List.length_append]
    omega
  rw [readString, readPoints_written text opening rest joined hlength]
  exact congrArg (fun t => Except.ok (t, rest)) (Textual.ofWide_wide s)

/-! ## Pieces -/

/-- How the code points of a string are spelled at the front of a text: `rest` comes after. -/
inductive Spelled (text : WideString) (rest : List Char) : Point → List Char → Prop
  | unit {n : Nat} {after more : List Char} {p : Point} (digits : readUnit? after = some (n, more))
    (joins : joinUnits n more = (p, rest)) : Spelled text rest p ('\\' :: 'u' :: after)
  | escape {e c : Char} (stands : escaped? e = some c) :
    Spelled text rest (.char c) ('\\' :: e :: rest)
  | itself {c : Char} {p : Point} (met : text.pointAt c rest = p) : Spelled text rest p (c :: rest)

/-- A code point that is read stands there in one of its spellings. -/
theorem spelled_of_nextPiece {text : WideString} {cs rest : List Char} {p : Point}
    (h : nextPiece text cs = .point p rest) : Spelled text rest p cs := by
  rw [nextPiece.eq_def] at h
  split at h
  · cases h
  · next c rest' =>
    split at h
    · cases h
    · split at h
      · next hbackslash =>
        subst hbackslash
        split at h
        · cases h
        · next e after =>
          split at h
          · next hu =>
            subst hu
            split at h
            · next digits =>
              cases h
              exact .unit digits rfl
            · cases h
          · split at h
            · next stands =>
              cases h
              exact .escape stands
            · cases h
      · split at h
        · cases h
        · cases h
          exact .itself rfl

/-- The end of a string is its closing mark. -/
theorem closed_of_nextPiece {text : WideString} {cs rest : List Char}
    (h : nextPiece text cs = .close rest) : cs = '"' :: rest := by
  rw [nextPiece.eq_def] at h
  split at h
  · cases h
  · split at h
    · next hquote =>
      cases h
      rw [hquote]
    · split at h
      · split at h
        · cases h
        · split at h
          · split at h <;> cases h
          · split at h <;> cases h
      · split at h <;> cases h

/-! ## Texts without halves -/

/-- Half of a pair comes from its own unit, and no second half follows a first one. -/
theorem half_of_joinUnits {n : Nat} {rest more : List Char} {h : Half}
    (joins : joinUnits n rest = (.half h, more)) :
    n = h.unit ∧ rest = more ∧ (h.IsFirst → readLow? more = none) := by
  rw [joinUnits] at joins
  split at joins
  · split at joins
    · cases joins
    · next hlow =>
      cases joins
      exact ⟨rfl, rfl, fun first => (if_pos first).symm.trans hlow⟩
  · cases joins

/-- In a text without halves a half is spelled by its unit. -/
theorem unit_of_spelled {s : String} {cs rest : List Char} {h : Half}
    (spelled : Spelled (.ofString s) rest (.half h) cs) :
    ∃ after, cs = '\\' :: 'u' :: after ∧ readUnit? after = some (h.unit, rest) ∧
      (h.IsFirst → readLow? rest = none) := by
  cases spelled with
  | unit digits joins =>
    obtain ⟨rfl, rfl, alone⟩ := half_of_joinUnits joins
    exact ⟨_, rfl, digits, alone⟩
  | itself met =>
    rw [WideString.pointAt_ofString] at met
    cases met

theorem exists_nextPiece {text : WideString} {opening cs rest : List Char} {fuel : Nat} {p : Point}
    {ps : List Point} (h : readPoints text opening fuel cs = .ok (p :: ps, rest)) :
    ∃ after, nextPiece text cs = .point p after := by
  cases fuel with
  | zero => cases h
  | succ fuel =>
    rw [readPoints] at h
    split at h
    · cases h
    · next q after hq =>
      obtain ⟨found, -, hfound⟩ := map_ok_iff.1 h
      cases hfound
      exact ⟨after, hq⟩
    · cases h
    · cases h

/-- The strings in a text without halves are joined. -/
theorem isChain_readPoints {s : String} {opening rest : List Char} :
    ∀ {fuel : Nat} {cs : List Char} {ps : List Point},
    readPoints (.ofString s) opening fuel cs = .ok (ps, rest) →
      ps.IsChain fun p q => ¬p.IsSplit q
  | 0, _, _, h => by cases h
  | fuel + 1, cs, ps, h => by
    rw [readPoints] at h
    split at h
    · cases h
      exact .nil
    · next p after hp =>
      obtain ⟨⟨others, more⟩, hothers, hps⟩ := map_ok_iff.1 h
      cases hps
      have ih := isChain_readPoints hothers
      cases others with
      | nil => exact .singleton p
      | cons q others =>
        refine .cons_cons (fun split => ?_) ih
        obtain ⟨next, hq⟩ := exists_nextPiece hothers
        cases p with
        | char c => exact split
        | half h =>
          cases q with
          | char c => exact split
          | half k =>
            -- The second half would be spelled right after the first one, which would take it.
            obtain ⟨-, -, -, hnone⟩ := unit_of_spelled (spelled_of_nextPiece hp)
            obtain ⟨low, rfl, hunit, -⟩ := unit_of_spelled (spelled_of_nextPiece hq)
            have hlow := hnone split.1
            rw [readLow?, hunit] at hlow
            exact absurd hlow (by simp [Nat.not_lt.1 split.2, k.lt_end])
    · cases h
    · cases h

/-! ## Plain text -/

theorem isPlain_digitChar : ∀ {n : Nat}, n < 16 → IsPlain n.digitChar := by decide

theorem isPlain_writeUnit {n : Nat} (h : n < 0x10000) : ∀ c ∈ writeUnit n, IsPlain c := by
  have hdigit : ∀ k, IsPlain (k % 16).digitChar := fun k =>
    isPlain_digitChar (Nat.mod_lt k (by decide))
  rw [writeUnit, Text.hex_four h]
  simp only [List.forall_mem_cons]
  exact ⟨by decide, by decide, isPlain_digitChar (by omega), hdigit _, hdigit _, hdigit _, nofun⟩

/-- Whatever a character is, it is written in plain ones. -/
theorem isPlain_writeChar (c : Char) : ∀ d ∈ writeChar c, IsPlain d := by
  have h := writtenAs c
  generalize writeChar c = cs at h ⊢
  cases h with
  | escape plain _ => exact List.forall_mem_cons.2 ⟨by decide, List.forall_mem_singleton.2 plain⟩
  | itself plain _ _ => exact List.forall_mem_singleton.2 plain
  | unit small => exact isPlain_writeUnit small
  | pair large =>
    have hvalid := toNat_valid c
    exact List.forall_mem_append.2 ⟨isPlain_writeUnit (by omega), isPlain_writeUnit (by omega)⟩

theorem isPlain_writePoint : ∀ p : Point, ∀ d ∈ writePoint p, IsPlain d
  | .char c => isPlain_writeChar c
  | .half h => isPlain_writeUnit (Nat.lt_trans h.lt_end (by decide))

theorem isPlain_writeString (s : τ) : ∀ c ∈ writeString s, IsPlain c := by
  have hinner : ∀ c ∈ (wide s).points.flatMap writePoint, IsPlain c := by
    intro c hc
    obtain ⟨p, -, hp⟩ := List.mem_flatMap.1 hc
    exact isPlain_writePoint p c hp
  intro c hc
  rw [writeString, List.cons_append, List.mem_cons, List.mem_append, List.mem_singleton] at hc
  rcases hc with rfl | hc | rfl
  · decide
  · exact hinner c hc
  · decide

end Json

end Storyline
