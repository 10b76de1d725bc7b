import Mathlib.Data.List.Infix
import Storyline.Proofs.Json.RoundTrip
import Storyline.Proofs.Json.Writable
import Storyline.Proofs.Text.Utf8
import Storyline.Text.LineEnd

/-!
# Storyline.Proofs.Json.Overlong

Where the reader meets a whole number of too many digits.  What it leaves to be read is always
a part of the text, so that the digits of such a number stand in the text, in one row.  A text
without so many digits in a row is therefore read or else refused at a place, and bytes that
spell one are *legible*.
-/

namespace Storyline.Json

/-- Whether the reader meets a whole number of too many digits. -/
def Overlong (text : String) : Prop := ∃ fault, read text = .error (.number fault)

/-- Whether more digits stand in a row than a whole number may have. -/
def LongRun (cs : List Char) : Prop :=
  ∃ digits, digits <:+: cs ∧ (∀ c ∈ digits, c.isDigit = true) ∧
    Numeral.digitLimit < digits.length

theorem LongRun.of_infix {cs part : List Char} (h : LongRun part) (hpart : part <:+: cs) :
    LongRun cs := by
  obtain ⟨digits, hdigits, hall, hlong⟩ := h
  exact ⟨digits, hdigits.trans hpart, hall, hlong⟩

/-- Reading a part of a text leaves a part of it, and a whole number that is too long has its
digits in it. -/
def Within {α : Type} (cs : List Char) : Except Refusal (α × List Char) → Prop
  | .ok (_, rest) => rest <:+ cs
  | .error (.number _) => LongRun cs
  | .error (.malformed _ _) => True

section Within

variable {α β : Type} {cs part : List Char}

theorem Within.of_suffix {result : Except Refusal (α × List Char)} (h : Within part result)
    (hpart : part <:+ cs) : Within cs result := by
  cases result with
  | ok found => exact List.IsSuffix.trans h hpart
  | error refusal =>
    cases refusal with
    | malformed problem place => trivial
    | number fault => exact LongRun.of_infix h hpart.isInfix

theorem Within.map {result : Except Refusal (α × List Char)} (h : Within cs result)
    (f : α × List Char → β × List Char) (hf : ∀ a rest, (f (a, rest)).2 = rest) :
    Within cs (result.map f) := by
  cases result with
  | ok found =>
    show (f (found.1, found.2)).2 <:+ cs
    rw [hf]
    exact h
  | error refusal => cases refusal <;> exact h

theorem Within.bind {result : Except Refusal (α × List Char)}
    {next : α × List Char → Except Refusal (β × List Char)} (h : Within cs result)
    (hnext : ∀ a rest, Within rest (next (a, rest))) : Within cs (result >>= next) := by
  cases result with
  | ok found => exact (hnext found.1 found.2).of_suffix h
  | error refusal => cases refusal <;> exact h

end Within

/-! ## Strings -/

theorem skipGap_suffix (cs : List Char) : skipGap cs <:+ cs := List.dropWhile_suffix _

theorem suffix_of_skipGap {c : Char} {cs rest : List Char} (h : skipGap cs = c :: rest) :
    rest <:+ cs :=
  (h ▸ List.suffix_cons c rest : rest <:+ skipGap cs).trans (skipGap_suffix cs)

theorem readUnit?_suffix {cs rest : List Char} {unit : Nat} (h : readUnit? cs = some (unit, rest)) :
    rest <:+ cs := by
  rw [readUnit?.eq_def] at h
  split at h
  · next a b c d after =>
    split at h
    · cases h
    · split at h
      · cases h
        exact List.suffix_append [a, b, c, d] rest
      · cases h
  · cases h

theorem readLow?_suffix {cs rest : List Char} {low : Nat} (h : readLow? cs = some (low, rest)) :
    rest <:+ cs := by
  rw [readLow?.eq_def] at h
  split at h
  · next after =>
    split at h
    · next hunit =>
      split at h
      · cases h
        exact (readUnit?_suffix hunit).trans (List.suffix_append ['\\', 'u'] after)
      · cases h
    · cases h
  · cases h

theorem joinUnits_suffix (unit : Nat) (rest : List Char) : (joinUnits unit rest).2 <:+ rest := by
  rw [joinUnits]
  split
  · split
    · next hlow =>
      split at hlow
      · exact readLow?_suffix hlow
      · cases hlow
    · exact List.suffix_rfl
  · exact List.suffix_rfl

variable (text : WideString)

variable {text} in
/-- What comes after a code point is a part of the text. -/
theorem Spelled.suffix {cs rest : List Char} {p : Point} (spelled : Spelled text rest p cs) :
    rest <:+ cs := by
  cases spelled with
  | @unit n after more _ digits joins =>
    have hrest : rest <:+ more := by
      have h := joinUnits_suffix n more
      rwa [joins] at h
    exact (hrest.trans (readUnit?_suffix digits)).trans (List.suffix_append ['\\', 'u'] after)
  | @escape e _ _ => exact List.suffix_append ['\\', e] rest
  | @itself c _ _ => exact List.suffix_cons c rest

theorem within_readPoints (opening : List Char) : ∀ (fuel : Nat) (cs : List Char),
    Within cs (readPoints text opening fuel cs)
  | 0, _ => trivial
  | fuel + 1, cs => by
    rw [readPoints]
    split
    · next rest hpiece =>
      rw [closed_of_nextPiece hpiece]
      exact List.suffix_cons _ rest
    · next p rest hpiece =>
      have hrest := (spelled_of_nextPiece hpiece).suffix
      exact ((within_readPoints opening fuel rest).map _ fun _ _ => rfl).of_suffix hrest
    · trivial
    · trivial

variable {τ : Type}

theorem within_readString [Textual τ] (opening cs : List Char) :
    Within cs (readString text opening cs : Except Refusal (τ × List Char)) :=
  (within_readPoints text opening _ cs).map _ fun _ _ => rfl

/-! ## Numbers and words -/

theorem readWhole?_append {cs whole rest : List Char} (h : readWhole? cs = some (whole, rest)) :
    whole ++ rest = cs := by
  rw [readWhole?.eq_def] at h
  split at h
  · cases h
    rfl
  · split at h
    · cases h
      rw [List.cons_append, List.takeWhile_append_dropWhile]
    · cases h
  · cases h

theorem readFraction_suffix (cs : List Char) : (readFraction cs).2 <:+ cs := by
  rw [readFraction.eq_def]
  split
  · next rest =>
    split
    · exact List.suffix_rfl
    · exact (List.dropWhile_suffix _).trans (List.suffix_cons '.' rest)
  · exact List.suffix_rfl

theorem splitSign_suffix (cs : List Char) : (Numeral.splitSign cs).2 <:+ cs := by
  rw [Numeral.splitSign.eq_def]
  split
  · next rest => exact List.suffix_cons '-' rest
  · next rest => exact List.suffix_cons '+' rest
  · exact List.suffix_rfl

theorem readExponent_suffix (cs : List Char) : (readExponent cs).2 <:+ cs := by
  rw [readExponent.eq_def]
  split
  · next e rest =>
    dsimp only
    split
    · have hdigits := (List.dropWhile_suffix Char.isDigit).trans (splitSign_suffix rest)
      exact hdigits.trans (List.suffix_cons e rest)
    · exact List.suffix_rfl
  · exact List.suffix_rfl

theorem splitMinus_suffix (cs : List Char) : (splitMinus cs).2 <:+ cs := by
  rw [splitMinus.eq_def]
  split
  · next rest => exact List.suffix_cons '-' rest
  · exact List.suffix_rfl

/-- The digits before the point of a number stand in the text, and after the number comes a
part of the text. -/
theorem readNumber?_parts {cs rest : List Char} {written : WrittenNumber}
    (h : readNumber? cs = some (written, rest)) : written.whole <:+: cs ∧ rest <:+ cs := by
  rw [readNumber?] at h
  dsimp only at h
  split at h
  · cases h
  · next whole after hwhole =>
    cases h
    have hunsigned : whole ++ after <:+ cs := readWhole?_append hwhole ▸ splitMinus_suffix cs
    have hafter : after <:+ cs := (List.suffix_append whole after).trans hunsigned
    constructor
    · exact (List.prefix_append whole after).isInfix.trans hunsigned.isInfix
    · exact (readExponent_suffix _).trans ((readFraction_suffix _).trans hafter)

/-- Only the digits before the point can be too many. -/
theorem amount_fault {written : WrittenNumber} {fault : NumberFault}
    (h : written.amount = .error fault) : Numeral.digitLimit < written.whole.length := by
  rw [WrittenNumber.amount] at h
  split at h
  · rw [map_error_iff, Numeral.readDigits] at h
    split at h
    · cases h
    · omega
  · cases h

theorem readWord?_suffix {cs rest : List Char} {word : Json τ}
    (h : readWord? cs = some (word, rest)) : rest <:+ cs := by
  obtain ⟨named, -, hfront⟩ := List.exists_of_findSome?_eq_some h
  obtain ⟨after, hafter, hfound⟩ := Option.map_eq_some_iff.1 hfront
  cases hfound
  exact List.isPrefixOf?_eq_some_iff_append_eq.1 hafter ▸ List.suffix_append _ _

theorem within_readScalar (cs : List Char) :
    Within cs (readScalar cs : Except Refusal (Json τ × List Char)) := by
  rw [readScalar]
  split
  · next word rest hword => exact readWord?_suffix hword
  · split
    · next written rest hwritten =>
      obtain ⟨hwhole, hrest⟩ := readNumber?_parts hwritten
      cases ha : written.amount with
      | ok a => exact hrest
      | error fault => exact ⟨_, hwhole, isDigit_readNumber? hwritten, amount_fault ha⟩
    · trivial

/-! ## Values -/

section Values

variable [Textual τ] [DecidableEq τ]

mutual

theorem within_readValue : ∀ (fuel : Nat) (cs : List Char),
    Within cs (readValue text fuel cs : Except Refusal (Json τ × List Char))
  | 0, _ => trivial
  | fuel + 1, cs => by
    rw [readValue.eq_def]
    dsimp only
    split
    · next rest =>
      have hstring := within_readString text (τ := τ) ('"' :: rest) rest
      exact (hstring.map _ fun _ _ => rfl).of_suffix (List.suffix_cons _ _)
    · next rest =>
      split
      · next hclosed => exact (suffix_of_skipGap hclosed).trans (List.suffix_cons _ _)
      · have hitems := (within_readItems fuel (skipGap rest)).of_suffix (skipGap_suffix rest)
        exact (hitems.map _ fun _ _ => rfl).of_suffix (List.suffix_cons _ _)
    · next rest =>
      split
      · next hclosed => exact (suffix_of_skipGap hclosed).trans (List.suffix_cons _ _)
      · have hmembers := (within_readMembers fuel (skipGap rest)).of_suffix (skipGap_suffix rest)
        exact (hmembers.map _ fun _ _ => rfl).of_suffix (List.suffix_cons _ _)
    · exact within_readScalar cs

theorem within_readItems : ∀ (fuel : Nat) (cs : List Char),
    Within cs (readItems text fuel cs : Except Refusal (List (Json τ) × List Char))
  | 0, _ => trivial
  | fuel + 1, cs => by
    rw [readItems]
    refine (within_readValue fuel cs).bind fun item rest => ?_
    dsimp only
    split
    · next hclosed => exact suffix_of_skipGap hclosed
    · next after hcomma =>
      have hafter := (skipGap_suffix after).trans (suffix_of_skipGap hcomma)
      have hothers := (within_readItems fuel (skipGap after)).of_suffix hafter
      refine hothers.bind fun items rest => ?_
      exact List.suffix_rfl
    · trivial

theorem within_readMembers : ∀ (fuel : Nat) (cs : List Char),
    Within cs (readMembers text fuel cs : Except Refusal (List (τ × Json τ) × List Char))
  | 0, _ => trivial
  | fuel + 1, cs => by
    rw [readMembers.eq_def]
    dsimp only
    split
    · next rest =>
      have hname := (within_readString text (τ := τ) ('"' :: rest) rest).of_suffix
        (List.suffix_cons '"' rest)
      refine hname.bind fun name rest => ?_
      dsimp only
      split
      · next after hcolon =>
        have hafter := (skipGap_suffix after).trans (suffix_of_skipGap hcolon)
        have hvalue := (within_readValue fuel (skipGap after)).of_suffix hafter
        refine hvalue.bind fun value rest => ?_
        dsimp only
        split
        · next hclosed => exact suffix_of_skipGap hclosed
        · next more hcomma =>
          have hmore := (skipGap_suffix more).trans (suffix_of_skipGap hcomma)
          have hothers := (within_readMembers fuel (skipGap more)).of_suffix hmore
          refine hothers.bind fun members rest => ?_
          exact List.suffix_rfl
        · trivial
      · trivial
    · trivial

end

end Values

/-- The digits of a whole number that is too long stand in the text in one row. -/
theorem Overlong.longRun {text : String} (h : Overlong text) : LongRun text.toList := by
  obtain ⟨fault, h⟩ := h
  rw [read] at h
  cases hread : readText (τ := String) (wide text) with
  | ok value => rw [hread] at h; cases h
  | error refusal =>
    rw [hread] at h
    cases refusal with
    | malformed problem place => cases h
    | number fault =>
      rw [readText] at hread
      split at hread
      · cases hread
      · obtain hvalue | ⟨found, -, hrest⟩ := bind_error_iff.1 hread
        · have hwithin := within_readValue (wide text) (τ := String)
            (2 * (skipGap (wide text).faces).length + 2) (skipGap (wide text).faces)
          rw [hvalue] at hwithin
          rw [← WideString.faces_ofString text]
          exact LongRun.of_infix hwithin (skipGap_suffix _).isInfix
        · dsimp only at hrest
          split at hrest <;> cases hrest

theorem Whole.isDigit {whole : List Char} (hw : Whole whole) : ∀ c ∈ whole, c.isDigit = true := by
  cases hw with
  | zero => exact isDigit_of_mem_zero
  | digits _ hd => exact hd

theorem whole_ones (n : Nat) : Whole (List.replicate (n + 1) '1') := by
  have hone : ∀ d ∈ List.replicate (n + 1) '1', d.isDigit = true := by
    intro d hd
    rw [List.eq_of_mem_replicate hd]
    rfl
  rw [List.replicate_succ] at hone ⊢
  exact .digits (by decide) hone

/-- A whole number of too many digits, all by itself, is overlong. -/
theorem overlong_of_whole {whole : List Char} (hw : Whole whole)
    (hlong : Numeral.digitLimit < whole.length) : Overlong (String.ofList whole) := by
  have hstart := hw.startsWithDigit
  have hword : readWord? (τ := String) whole = none := readWord?_withMinus false hstart
  have hend : EndsNumber [] := fun c hc => by cases hc
  have hwhole : readWhole? whole = some (whole, []) := by
    have h := readWhole?_whole hw hend.endsDigits
    rwa [List.append_nil] at h
  have hnumber : readNumber? whole = some (⟨false, whole, [], none⟩, []) :=
    readNumber?_of_parts (splitMinus_withMinus false hstart) hwhole (readFraction_none hend)
      (readExponent_none hend)
  have hamount : WrittenNumber.amount ⟨false, whole, [], none⟩ =
      .error (.unreadable whole.length) := by
    rw [WrittenNumber.amount, if_pos ⟨rfl, rfl⟩, Numeral.readDigits, if_neg (Nat.not_le.2 hlong)]
    rfl
  have hscalar : readScalar (τ := String) whole =
      .error (.number (.unreadable whole.length)) := by
    rw [readScalar, hword]
    simp only [hnumber, hamount]
  obtain ⟨c, rest, rfl, hc⟩ := hstart
  have hmark : (c :: rest).head? ≠ some '\ufeff' := by
    intro h
    cases h
    exact absurd hc (by decide)
  have hhead : IsScalarHead c := .inl hc
  refine ⟨.unreadable (c :: rest).length, ?_⟩
  have hfaces : (wide (String.ofList (c :: rest))).faces = c :: rest :=
    (WideString.faces_ofString _).trans String.toList_ofList
  rw [read, readText, hfaces, if_neg hmark, (hhead.startsValue rest).skipGap_eq]
  simp only [readValue_scalar hhead, hscalar]
  rfl

/-- What is not overlong is read or refused at a place. -/
theorem not_overlong_iff {text : String} : ¬Overlong text ↔
    (∃ j, read text = .ok j) ∨ ∃ problem place, read text = .error (.malformed problem place) := by
  cases h : read text with
  | ok j => simp [Overlong, h]
  | error refusal => cases refusal <;> simp [Overlong, h]

/-! ## Bytes -/

/-- Whether bytes spell a text that is not overlong. -/
def Legible (bytes : List UInt8) : Prop :=
  ∃ text, Text.decode bytes = .ok text ∧
    ¬Overlong (String.ofList (Text.unifyLineEnds text.toList))

theorem legible_iff {bytes : List UInt8} {text : String} (decoded : Text.decode bytes = .ok text) :
    Legible bytes ↔ ¬Overlong (String.ofList (Text.unifyLineEnds text.toList)) := by
  constructor
  · rintro ⟨other, hother, short⟩
    rw [decoded] at hother
    cases hother
    exact short
  · exact fun short => ⟨text, decoded, short⟩

theorem not_legible_of_error {bytes : List UInt8} {fault : Text.EncodingFault}
    (undecoded : Text.decode bytes = .error fault) : ¬Legible bytes := by
  rintro ⟨text, decoded, -⟩
  rw [undecoded] at decoded
  cases decoded

/-- The bytes of a whole number of too many digits are not legible. -/
theorem not_legible_of_whole {whole : List Char} (hw : Whole whole)
    (hlong : Numeral.digitLimit < whole.length) :
    ¬Legible (Text.encode (String.ofList whole)) := by
  have hreturn : '\r' ∉ whole := fun h => absurd (hw.isDigit _ h) (by decide)
  rw [legible_iff (Text.decode_encode _), String.toList_ofList,
    Text.unifyLineEnds_of_not_mem hreturn, not_not]
  exact overlong_of_whole hw hlong

theorem prefix_of_unifyLineEnds {digits : List Char} (hdigits : ∀ c ∈ digits, c.isDigit = true)
    (cs : List Char) (h : digits <+: Text.unifyLineEnds cs) : digits <+: cs := by
  induction digits generalizing cs with
  | nil => exact List.nil_prefix
  | cons d digits ih =>
    obtain ⟨hd, hrest⟩ := List.forall_mem_cons.1 hdigits
    rw [Text.unifyLineEnds.eq_def] at h
    split at h
    · exact absurd (List.prefix_nil.1 h) (List.cons_ne_nil d digits)
    · rw [List.cons_prefix_cons] at h
      exact absurd hd (by rw [h.1]; decide)
    · rw [List.cons_prefix_cons] at h
      exact absurd hd (by rw [h.1]; decide)
    · rw [List.cons_prefix_cons] at h
      exact List.cons_prefix_cons.2 ⟨h.1, ih hrest _ h.2⟩

theorem infix_of_unifyLineEnds {digits : List Char} (hdigits : ∀ c ∈ digits, c.isDigit = true)
    (cs : List Char) (h : digits <:+: Text.unifyLineEnds cs) : digits <:+: cs := by
  -- A front of the unified text is a front of the text, by the lemma before.
  fun_induction Text.unifyLineEnds cs with
  | case1 => exact h
  | case2 rest ih =>
    obtain hfront | hrest := List.infix_cons_iff.1 h
    · exact (prefix_of_unifyLineEnds hdigits ('\r' :: '\n' :: rest) hfront).isInfix
    · exact (ih hrest).trans (List.suffix_append ['\r', '\n'] rest).isInfix
  | case3 rest hrest ih =>
    obtain hfront | hlater := List.infix_cons_iff.1 h
    · have hunified : Text.unifyLineEnds ('\r' :: rest) = '\n' :: Text.unifyLineEnds rest := by
        rw [Text.unifyLineEnds]
        exact hrest
      exact (prefix_of_unifyLineEnds hdigits _ (hunified ▸ hfront)).isInfix
    · exact (ih hlater).trans (List.suffix_cons '\r' rest).isInfix
  | case4 c rest hpair hreturn ih =>
    obtain hfront | hlater := List.infix_cons_iff.1 h
    · have hunified : Text.unifyLineEnds (c :: rest) = c :: Text.unifyLineEnds rest := by
        rw [Text.unifyLineEnds]
        · exact hpair
        · exact hreturn
      exact (prefix_of_unifyLineEnds hdigits _ (hunified ▸ hfront)).isInfix
    · exact (ih hlater).trans (List.suffix_cons c rest).isInfix

/-- Bytes are legible if they spell a text without so many digits in a row. -/
theorem legible_of_not_longRun {bytes : List UInt8} {text : String}
    (decoded : Text.decode bytes = .ok text) (h : ¬LongRun text.toList) : Legible bytes := by
  refine (legible_iff decoded).2 fun overlong => h ?_
  obtain ⟨digits, hinfix, hdigits, hlong⟩ := overlong.longRun
  rw [String.toList_ofList] at hinfix
  exact ⟨digits, infix_of_unifyLineEnds hdigits _ hinfix, hdigits, hlong⟩

end Storyline.Json
