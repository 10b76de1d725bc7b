import Storyline.Json.Reader
import Storyline.Json.Writer
import Storyline.Proofs.Binary64.Shortest

/-!
# Storyline.Proofs.Json.Number

Numbers read back.  A number ends where what follows cannot belong to it, so what is
read is exactly what was written, in whichever of the forms it was written.
-/

namespace Storyline.Json

/-- What follows a number and cannot belong to it. -/
def EndsNumber (rest : List Char) : Prop :=
  ∀ c ∈ rest.head?, c.isDigit = false ∧ c ≠ '.' ∧ c ≠ 'e' ∧ c ≠ 'E'

/-- What follows a run of digits and cannot belong to it. -/
def EndsDigits (rest : List Char) : Prop := ∀ c ∈ rest.head?, c.isDigit = false

theorem EndsNumber.endsDigits {rest : List Char} (h : EndsNumber rest) : EndsDigits rest :=
  fun c hc => (h c hc).1

theorem endsDigits_cons {c : Char} {rest : List Char} (h : c.isDigit = false) :
    EndsDigits (c :: rest) := by
  intro d hd
  cases hd
  exact h

/-! ## The parts of a number -/

section Parts

variable {digits rest : List Char} (hd : ∀ c ∈ digits, c.isDigit = true) (hr : EndsDigits rest)

include hd hr

theorem takeWhile_digits : (digits ++ rest).takeWhile Char.isDigit = digits := by
  rw [List.takeWhile_append_of_pos hd]
  cases rest with
  | nil => exact List.append_nil digits
  | cons c rest => rw [List.takeWhile_cons_of_neg (by simp [hr c rfl]), List.append_nil]

theorem dropWhile_digits : (digits ++ rest).dropWhile Char.isDigit = rest := by
  rw [List.dropWhile_append_of_pos hd]
  cases rest with
  | nil => rfl
  | cons c rest => rw [List.dropWhile_cons_of_neg (by simp [hr c rfl])]

theorem readFraction_digits (hne : digits ≠ []) :
    readFraction ('.' :: (digits ++ rest)) = (digits, rest) := by
  rw [readFraction, takeWhile_digits hd hr, dropWhile_digits hd hr, if_neg (by simpa using hne)]

theorem readExponent_digits (hne : digits ≠ []) (negative : Bool) :
    readExponent ('e' :: (if negative then '-' else '+') :: (digits ++ rest)) =
      (some (Numeral.withSign negative (Nat.ofDigitChars 10 digits 0)), rest) := by
  have hsign : Numeral.splitSign ((if negative then '-' else '+') :: (digits ++ rest)) =
      (negative, digits ++ rest) := by cases negative <;> rfl
  simp only [readExponent, hsign, takeWhile_digits hd hr, dropWhile_digits hd hr]
  rw [if_pos (by simpa using hne)]

end Parts

/-- The digits that may stand before the point. -/
inductive Whole : List Char → Prop
  | zero : Whole ['0']
  | digits {c : Char} {rest : List Char} (hc : c ≠ '0') (hd : ∀ d ∈ c :: rest, d.isDigit = true) :
    Whole (c :: rest)

theorem readWhole?_whole {whole rest : List Char} (hw : Whole whole) (hr : EndsDigits rest) :
    readWhole? (whole ++ rest) = some (whole, rest) := by
  cases hw with
  | zero => rfl
  | @digits c digits hc hd =>
    obtain ⟨hdigit, hdigits⟩ := List.forall_mem_cons.1 hd
    rw [List.cons_append, readWhole?.eq_2 _ _ hc, if_pos hdigit,
      takeWhile_digits hdigits hr, dropWhile_digits hdigits hr]

/-- The digits of a whole number may stand before the point. -/
theorem whole_toDigits (n : Nat) : Whole (Nat.toDigits 10 n) := by
  rcases Nat.eq_zero_or_pos n with rfl | hn
  · exact .zero
  · obtain ⟨c, rest, hdigits, hc⟩ := Numeral.head_toDigits n hn
    rw [hdigits]
    exact .digits hc fun d hd => Numeral.isDigit_of_mem (hdigits ▸ hd)

theorem readFraction_none {rest : List Char} (h : EndsNumber rest) :
    readFraction rest = ([], rest) := by
  cases rest with
  | nil => rfl
  | cons c rest => exact readFraction.eq_2 _ fun _ e => (h c rfl).2.1 (by injection e)

theorem readExponent_none {rest : List Char} (h : EndsNumber rest) :
    readExponent rest = (none, rest) := by
  cases rest with
  | nil => rfl
  | cons c rest =>
    obtain ⟨-, -, he, hE⟩ := h c rfl
    simp only [readExponent]
    rw [if_neg fun hc => hc.1.elim he hE]

theorem readNumber?_of_parts {cs unsigned afterWhole afterFraction rest whole fraction : List Char}
    {negative : Bool} {exponent : Option Int} (hsign : splitMinus cs = (negative, unsigned))
    (hwhole : readWhole? unsigned = some (whole, afterWhole))
    (hfraction : readFraction afterWhole = (fraction, afterFraction))
    (hexponent : readExponent afterFraction = (exponent, rest)) :
    readNumber? cs = some (⟨negative, whole, fraction, exponent⟩, rest) := by
  simp only [readNumber?, hsign, hwhole, hfraction, hexponent]

/-! ## The forms of a number -/

/-- A text with a minus sign before it, if it is to be negative. -/
def withMinus (negative : Bool) (cs : List Char) : List Char := if negative then '-' :: cs else cs

/-- A text whose first character is a digit. -/
def StartsWithDigit (cs : List Char) : Prop := ∃ c rest, cs = c :: rest ∧ c.isDigit = true

theorem StartsWithDigit.append {cs : List Char} (h : StartsWithDigit cs) (rest : List Char) :
    StartsWithDigit (cs ++ rest) := by
  obtain ⟨c, cs, rfl, hc⟩ := h
  exact ⟨c, cs ++ rest, rfl, hc⟩

theorem Whole.startsWithDigit {whole : List Char} (h : Whole whole) : StartsWithDigit whole := by
  cases h with
  | zero => exact ⟨'0', [], rfl, rfl⟩
  | digits hc hd => exact ⟨_, _, rfl, hd _ List.mem_cons_self⟩

theorem splitMinus_withMinus (negative : Bool) {cs : List Char} (h : StartsWithDigit cs) :
    splitMinus (withMinus negative cs) = (negative, cs) := by
  cases negative with
  | true => rfl
  | false =>
    obtain ⟨c, rest, rfl, hc⟩ := h
    have hminus : c ≠ '-' := by
      rintro rfl
      cases hc
    exact splitMinus.eq_2 _ fun _ e => hminus (by injection e)

/-- A text that starts with a digit and, with a minus sign before it or without one, is read
as an amount. -/
def ReadsAmount (negative : Bool) (a : Amount) (cs rest : List Char) : Prop :=
  StartsWithDigit cs ∧ ∃ written, readNumber? (withMinus negative cs) = some (written, rest) ∧
    written.amount = .ok a

/-- A text that is read as the double of a decimal. -/
def ReadsAs (negative : Bool) (coefficient : Nat) (exponent : Int) (cs rest : List Char) : Prop :=
  ReadsAmount negative (.real (Binary64.ofDecimal negative coefficient exponent)) cs rest

/-- Digits, a point and digits. -/
theorem readsAs_positional {whole fraction rest : List Char} (negative : Bool) (hw : Whole whole)
    (hf : ∀ c ∈ fraction, c.isDigit = true) (hne : fraction ≠ []) (hr : EndsNumber rest) :
    ReadsAs negative (Nat.ofDigitChars 10 (whole ++ fraction) 0) (-(fraction.length : Int))
      (whole ++ '.' :: (fraction ++ rest)) rest := by
  have hstart := hw.startsWithDigit.append ('.' :: (fraction ++ rest))
  have hpoint : EndsDigits ('.' :: (fraction ++ rest)) := endsDigits_cons rfl
  have hwhole := readWhole?_whole hw hpoint
  have hfraction := readFraction_digits hf hr.endsDigits hne
  have hread := readNumber?_of_parts (splitMinus_withMinus negative hstart) hwhole hfraction
    (readExponent_none hr)
  have hamount : WrittenNumber.amount ⟨negative, whole, fraction, none⟩ =
      .ok (.real (Binary64.ofDecimal negative (Nat.ofDigitChars 10 (whole ++ fraction) 0)
        (-(fraction.length : Int)))) := by
    rw [WrittenNumber.amount, if_neg fun h => hne h.1]
    simp
  exact ⟨hstart, _, hread, hamount⟩

theorem isDigit_of_mem_zero : ∀ c ∈ ['0'], c.isDigit = true := List.forall_mem_singleton.2 rfl

/-- Digits with a point before them, if there are any. -/
def pointed : List Char → List Char
  | [] => []
  | digits => '.' :: digits

/-- Digits, perhaps a point and digits, and an exponent. -/
theorem readsAs_scientific {whole fraction figures rest : List Char} (negative below : Bool)
    (hw : Whole whole) (hf : ∀ c ∈ fraction, c.isDigit = true)
    (hfigures : ∀ c ∈ figures, c.isDigit = true) (hne : figures ≠ []) (hr : EndsDigits rest) :
    ReadsAs negative (Nat.ofDigitChars 10 (whole ++ fraction) 0)
      (Numeral.withSign below (Nat.ofDigitChars 10 figures 0) - fraction.length)
      (whole ++ (pointed fraction ++
        'e' :: (if below then '-' else '+') :: (figures ++ rest))) rest := by
  have hexponent := readExponent_digits hfigures hr hne below
  have hstart := hw.startsWithDigit.append (pointed fraction ++
    'e' :: (if below then '-' else '+') :: (figures ++ rest))
  have hsign := splitMinus_withMinus negative hstart
  have hread : readNumber? (withMinus negative (whole ++ (pointed fraction ++
      'e' :: (if below then '-' else '+') :: (figures ++ rest)))) =
      some (⟨negative, whole, fraction,
        some (Numeral.withSign below (Nat.ofDigitChars 10 figures 0))⟩, rest) := by
    have hmark : EndsDigits ('e' :: (if below then '-' else '+') :: (figures ++ rest)) :=
      endsDigits_cons rfl
    cases fraction with
    | nil => exact readNumber?_of_parts hsign (readWhole?_whole hw hmark) rfl hexponent
    | cons c fraction =>
      have hpoint : EndsDigits ('.' :: (c :: fraction ++
          'e' :: (if below then '-' else '+') :: (figures ++ rest))) := endsDigits_cons rfl
      have hfraction := readFraction_digits hf hmark (List.cons_ne_nil c fraction)
      exact readNumber?_of_parts hsign (readWhole?_whole hw hpoint) hfraction hexponent
  have hamount : WrittenNumber.amount ⟨negative, whole, fraction,
      some (Numeral.withSign below (Nat.ofDigitChars 10 figures 0))⟩ =
      .ok (.real (Binary64.ofDecimal negative (Nat.ofDigitChars 10 (whole ++ fraction) 0)
        (Numeral.withSign below (Nat.ofDigitChars 10 figures 0) - fraction.length))) := by
    rw [WrittenNumber.amount, if_neg fun h => by cases h.2]
    simp
  exact ⟨hstart, _, hread, hamount⟩

/-! ## The written form of a double -/

theorem ReadsAs.unscale {negative : Bool} {coefficient k : Nat} {exponent : Int}
    {cs rest : List Char} (h : ReadsAs negative (coefficient * tenTo k) (exponent - k) cs rest) :
    ReadsAs negative coefficient exponent cs rest := by
  rwa [ReadsAs, Binary64.ofDecimal_mul_tenTo] at h

/-- The first digits of a number above zero may stand before the point. -/
theorem whole_take {n k : Nat} (hn : 0 < n) (hk : 0 < k) : Whole ((Nat.toDigits 10 n).take k) := by
  obtain ⟨c, rest, hdigits, hc⟩ := Numeral.head_toDigits n hn
  obtain ⟨j, rfl⟩ : ∃ j, k = j + 1 := ⟨k - 1, by omega⟩
  have hall : ∀ d ∈ (Nat.toDigits 10 n).take (j + 1), d.isDigit = true := fun d hd =>
    Numeral.isDigit_of_mem (List.mem_of_mem_take hd)
  rw [hdigits, List.take_succ_cons] at hall ⊢
  exact .digits hc hall

theorem isDigit_of_mem_zeros {k : Nat} {c : Char} (h : c ∈ List.replicate k '0') :
    c.isDigit = true := by
  rw [List.eq_of_mem_replicate h]
  rfl

/-- Zeros before the digits of a number are digits too. -/
theorem isDigit_of_mem_padded {k n : Nat} :
    ∀ c ∈ List.replicate k '0' ++ Nat.toDigits 10 n, c.isDigit = true := by
  intro c hc
  rcases List.mem_append.1 hc with hc | hc
  · exact isDigit_of_mem_zeros hc
  · exact Numeral.isDigit_of_mem hc

theorem scientific_eq (digits : List Char) (leading : Int) :
    Binary64.scientific digits leading =
      digits.take 1 ++ pointed (digits.drop 1) ++ 'e' :: (if leading < 0 then '-' else '+') ::
        List.replicate (2 - (Nat.toDigits 10 leading.natAbs).length) '0' ++
          Nat.toDigits 10 leading.natAbs := by
  rw [Binary64.scientific]
  cases digits.drop 1 <;> rfl

theorem ofDigitChars_digits (d : Decimal) : Nat.ofDigitChars 10 d.digits 0 = d.coefficient :=
  Nat.ofDigitChars_ten_toDigits

section WriteDecimal

variable {d : Decimal} (hd : 0 < d.coefficient) {rest : List Char} (negative : Bool)

theorem readsAs_small (hr : EndsNumber rest) (hleading : d.exponent + d.digits.length - 1 < 0) :
    ReadsAs negative d.coefficient d.exponent
      (Binary64.positional d.digits (d.exponent + d.digits.length - 1) ++ rest) rest := by
  generalize hlead : d.exponent + d.digits.length - 1 = leading at *
  generalize hk : (-leading - 1).toNat = k
  have hfraction : ∀ c ∈ List.replicate k '0' ++ d.digits, c.isDigit = true :=
    isDigit_of_mem_padded
  have hne : List.replicate k '0' ++ d.digits ≠ [] :=
    List.append_ne_nil_of_right_ne_nil _ Nat.toDigits_ne_nil
  have hvalue : Nat.ofDigitChars 10 (['0'] ++ (List.replicate k '0' ++ d.digits)) 0 =
      d.coefficient := by
    show Nat.ofDigitChars 10 (List.replicate (k + 1) '0' ++ d.digits) 0 = d.coefficient
    rw [Numeral.ofDigitChars_zeros, ofDigitChars_digits]
  have hexponent : -((List.replicate k '0' ++ d.digits).length : Int) = d.exponent := by
    rw [List.length_append, List.length_replicate]
    omega
  have h := readsAs_positional negative .zero hfraction hne hr
  rw [hvalue, hexponent] at h
  simp only [Binary64.positional, if_pos hleading, hk]
  exact h

include hd

theorem readsAs_whole (hr : EndsNumber rest) (hleading : 0 ≤ d.exponent + d.digits.length - 1)
    (hlong : d.digits.length ≤ (d.exponent + d.digits.length - 1).toNat + 1) :
    ReadsAs negative d.coefficient d.exponent
      (Binary64.positional d.digits (d.exponent + d.digits.length - 1) ++ rest) rest := by
  generalize hlead : d.exponent + d.digits.length - 1 = leading at *
  generalize hk : leading.toNat + 1 - d.digits.length = k
  have hwhole : Whole (d.digits ++ List.replicate k '0') := by
    obtain ⟨c, digits, hdigits, hc⟩ := Numeral.head_toDigits d.coefficient hd
    have hall : ∀ c ∈ d.digits ++ List.replicate k '0', c.isDigit = true := by
      intro c hc
      rcases List.mem_append.1 hc with hc | hc
      · exact Numeral.isDigit_of_mem hc
      · exact isDigit_of_mem_zeros hc
    rw [Decimal.digits, hdigits] at hall ⊢
    exact .digits hc hall
  have hvalue : Nat.ofDigitChars 10 (d.digits ++ List.replicate k '0' ++ ['0']) 0 =
      d.coefficient * tenTo (k + 1) := by
    rw [List.append_assoc, ← List.replicate_succ', Numeral.ofDigitChars_append_zeros,
      ofDigitChars_digits]
  have hexponent : -((['0'].length : Nat) : Int) = d.exponent - ((k + 1 : Nat) : Int) := by
    rw [List.length_singleton]
    omega
  have h := readsAs_positional negative hwhole isDigit_of_mem_zero (List.cons_ne_nil _ _) hr
  rw [hvalue, hexponent] at h
  simp only [Binary64.positional, if_neg (Int.not_lt.2 hleading), if_pos hlong, hk]
  simpa only [List.append_assoc, List.cons_append, List.nil_append] using h.unscale

theorem readsAs_split (hr : EndsNumber rest) (hleading : 0 ≤ d.exponent + d.digits.length - 1)
    (hshort : ¬d.digits.length ≤ (d.exponent + d.digits.length - 1).toNat + 1) :
    ReadsAs negative d.coefficient d.exponent
      (Binary64.positional d.digits (d.exponent + d.digits.length - 1) ++ rest) rest := by
  generalize hlead : d.exponent + d.digits.length - 1 = leading at *
  have hfraction : ∀ c ∈ d.digits.drop (leading.toNat + 1), c.isDigit = true := fun c hc =>
    Numeral.isDigit_of_mem (List.mem_of_mem_drop hc)
  have hne : d.digits.drop (leading.toNat + 1) ≠ [] := by
    intro hnil
    rw [List.drop_eq_nil_iff] at hnil
    exact hshort hnil
  have hexponent : -((d.digits.drop (leading.toNat + 1)).length : Int) = d.exponent := by
    rw [List.length_drop]
    omega
  have hwhole := whole_take hd (Nat.succ_pos leading.toNat)
  have h := readsAs_positional negative hwhole hfraction hne hr
  rw [← Decimal.digits, List.take_append_drop, ofDigitChars_digits, hexponent] at h
  simp only [Binary64.positional, if_neg (Int.not_lt.2 hleading), if_neg hshort]
  simpa only [List.append_assoc, List.cons_append] using h

theorem readsAs_exponent (hr : EndsNumber rest) :
    ReadsAs negative d.coefficient d.exponent
      (Binary64.scientific d.digits (d.exponent + d.digits.length - 1) ++ rest) rest := by
  generalize hlead : d.exponent + d.digits.length - 1 = leading at *
  generalize hk : List.replicate (2 - (Nat.toDigits 10 leading.natAbs).length) '0' = zeros
  have hfigures : ∀ c ∈ zeros ++ Nat.toDigits 10 leading.natAbs, c.isDigit = true := by
    rw [← hk]
    exact isDigit_of_mem_padded
  have hne : zeros ++ Nat.toDigits 10 leading.natAbs ≠ [] :=
    List.append_ne_nil_of_right_ne_nil _ Nat.toDigits_ne_nil
  have hfraction : ∀ c ∈ d.digits.drop 1, c.isDigit = true := fun c hc =>
    Numeral.isDigit_of_mem (List.mem_of_mem_drop hc)
  have hvalue :
      Nat.ofDigitChars 10 (zeros ++ Nat.toDigits 10 leading.natAbs) 0 = leading.natAbs := by
    rw [← hk, Numeral.ofDigitChars_zeros, Nat.ofDigitChars_ten_toDigits]
  have hlength : 0 < d.digits.length := Nat.length_toDigits_pos
  have hexponent : leading - ((d.digits.drop 1).length : Int) = d.exponent := by
    rw [List.length_drop]
    omega
  have h := readsAs_scientific negative (decide (leading < 0)) (whole_take hd Nat.one_pos) hfraction
    hfigures hne hr.endsDigits
  rw [← Decimal.digits, List.take_append_drop, ofDigitChars_digits, hvalue, Numeral.withSign_natAbs,
    hexponent] at h
  simp only [scientific_eq, hk]
  simpa only [List.append_assoc, List.cons_append, decide_eq_true_eq] using h

/-- A decimal above zero is read for what it is, in whichever form it is written. -/
theorem readsAs_writeDecimal (hr : EndsNumber rest) :
    ReadsAs negative d.coefficient d.exponent (Binary64.writeDecimal d ++ rest) rest := by
  simp only [Binary64.writeDecimal]
  split
  · by_cases hleading : d.exponent + d.digits.length - 1 < 0
    · exact readsAs_small negative hr hleading
    · by_cases hlong : d.digits.length ≤ (d.exponent + d.digits.length - 1).toNat + 1
      · exact readsAs_whole hd negative hr (Int.not_lt.1 hleading) hlong
      · exact readsAs_split hd negative hr (Int.not_lt.1 hleading) hlong
  · exact readsAs_exponent hd negative hr

end WriteDecimal

theorem readsAmount_rank (negative : Bool) (rank : Fin Binary64.infinityRank) {rest : List Char}
    (hr : EndsNumber rest) :
    ReadsAmount negative (.real (.finite negative rank)) (Binary64.writeRank rank ++ rest)
      rest := by
  by_cases hz : rank.val = 0
  · have hzero : Binary64.ofDecimal negative 0 (-1) = .finite negative rank := by
      have hrank : rank = ⟨0, by decide⟩ := Fin.ext hz
      rw [hrank, Binary64.ofDecimal, if_pos (Or.inl rfl)]
      rfl
    have h := readsAs_positional negative .zero isDigit_of_mem_zero (List.cons_ne_nil _ _) hr
    rw [← hzero, Binary64.writeRank, if_pos hz]
    exact h
  · have hpos : 0 < rank.val := Nat.pos_of_ne_zero hz
    obtain ⟨hcoefficient, hback⟩ := Binary64.ofDecimal_shortest rank hpos
    have h := readsAs_writeDecimal hcoefficient negative hr
    rw [ReadsAs, Binary64.ofDecimal_sign hback] at h
    rw [Binary64.writeRank, if_neg hz]
    exact h

theorem chars_eq (n : Int) :
    Numeral.chars n = withMinus (decide (n < 0)) (Nat.toDigits 10 n.natAbs) := by
  rw [Numeral.chars, withMinus]
  by_cases h : n < 0
  · rw [if_pos h, if_pos (decide_eq_true h)]
  · rw [if_neg h, if_neg (by simpa using h)]

theorem withMinus_append (negative : Bool) (cs rest : List Char) :
    withMinus negative cs ++ rest = withMinus negative (cs ++ rest) := by
  cases negative <;> rfl

theorem readsAmount_int {n : Int} (h : n.natAbs < Numeral.firstUnwritable) {rest : List Char}
    (hr : EndsNumber rest) :
    ReadsAmount (decide (n < 0)) (.int n) (Nat.toDigits 10 n.natAbs ++ rest) rest := by
  have hw := whole_toDigits n.natAbs
  have hstart := hw.startsWithDigit.append rest
  have hwhole := readWhole?_whole hw hr.endsDigits
  have hread := readNumber?_of_parts (splitMinus_withMinus (decide (n < 0)) hstart) hwhole
    (readFraction_none hr) (readExponent_none hr)
  have hamount : WrittenNumber.amount ⟨decide (n < 0), Nat.toDigits 10 n.natAbs, [], none⟩ =
      .ok (.int n) := by
    rw [WrittenNumber.amount, if_pos ⟨rfl, rfl⟩, Numeral.readDigits_toDigits h]
    simp only [Except.map, Numeral.withSign_natAbs]
  exact ⟨hstart, _, hread, hamount⟩

/-! ## Scalars -/

variable {τ : Type}

theorem isPrefixOf?_nil (cs : List Char) : [].isPrefixOf? cs = some cs := by cases cs <;> rfl

theorem isPrefixOf?_cons (c d : Char) (cs ds : List Char) :
    (c :: cs).isPrefixOf? (d :: ds) = if c == d then cs.isPrefixOf? ds else none := rfl

/-- No word starts with a digit, whether a minus sign stands before it or not. -/
theorem readWord?_withMinus (negative : Bool) {cs : List Char} (h : StartsWithDigit cs) :
    (readWord? (withMinus negative cs) : Option (Json τ × List Char)) = none := by
  obtain ⟨c, rest, rfl, hc⟩ := h
  have hne : ∀ d : Char, d.isDigit = false → (d == c) = false := by
    intro d hd
    simp only [beq_eq_false_iff_ne, ne_eq]
    rintro rfl
    rw [hd] at hc
    cases hc
  cases negative with
  | false =>
    simp [readWord?, words, withMinus, isPrefixOf?_cons, hne 'n' rfl, hne 't' rfl, hne 'f' rfl,
      hne 'N' rfl, hne 'I' rfl, hne '-' rfl]
  | true => simp [readWord?, words, withMinus, isPrefixOf?_cons, hne 'I' rfl]

theorem readScalar_of_readsAmount {negative : Bool} {a : Amount} {cs rest : List Char}
    (h : ReadsAmount negative a cs rest) :
    readScalar (withMinus negative cs) = .ok ((.number a : Json τ), rest) := by
  obtain ⟨hstart, written, hread, hamount⟩ := h
  rw [readScalar, readWord?_withMinus negative hstart]
  simp only [hread, hamount]

theorem text_finite (spelling : Binary64.Spelling) (negative : Bool)
    (rank : Fin Binary64.infinityRank) :
    (Binary64.text spelling (.finite negative rank)).toList =
      withMinus negative (Binary64.writeRank rank) := by
  cases negative <;> simp [Binary64.text, withMinus]

theorem readScalar_writeReal (x : Binary64) {rest : List Char} (hr : EndsNumber rest) :
    readScalar ((x.text numberSpelling).toList ++ rest) =
      .ok ((.number (.real x) : Json τ), rest) := by
  cases x with
  | nan => simp [readScalar, readWord?, words, Binary64.text, numberSpelling, isPrefixOf?_cons,
      isPrefixOf?_nil]
  | infinity negative =>
    cases negative <;>
      simp [readScalar, readWord?, words, Binary64.text, numberSpelling, isPrefixOf?_cons,
      isPrefixOf?_nil]
  | finite negative rank =>
    rw [text_finite, withMinus_append]
    exact readScalar_of_readsAmount (readsAmount_rank negative rank hr)

/-- A number that is written is read. -/
theorem readScalar_writeAmount {a : Amount} {text : String} (h : writeAmount a = .ok text)
    {rest : List Char} (hr : EndsNumber rest) :
    readScalar (text.toList ++ rest) = .ok ((.number a : Json τ), rest) := by
  cases a with
  | int n =>
    rw [writeAmount] at h
    obtain ⟨rfl, hn⟩ := Numeral.write_ok h
    rw [String.toList_ofList, chars_eq, withMinus_append]
    exact readScalar_of_readsAmount (readsAmount_int hn hr)
  | real x =>
    rw [writeAmount] at h
    rw [← Except.ok.inj h]
    exact readScalar_writeReal x hr

theorem withMinus_head (negative : Bool) {cs : List Char} (h : StartsWithDigit cs) :
    ∃ c rest, withMinus negative cs = c :: rest ∧ (c.isDigit = true ∨ c ∈ ['-', 'N', 'I']) := by
  obtain ⟨c, rest, rfl, hc⟩ := h
  cases negative with
  | false => exact ⟨c, rest, rfl, .inl hc⟩
  | true => exact ⟨'-', c :: rest, rfl, .inr List.mem_cons_self⟩

/-- A number starts with a digit, a minus sign or the first letter of a word. -/
theorem writeAmount_head {a : Amount} {text : String} (h : writeAmount a = .ok text) :
    ∃ c rest, text.toList = c :: rest ∧ (c.isDigit = true ∨ c ∈ ['-', 'N', 'I']) := by
  have hend : EndsNumber [] := nofun
  cases a with
  | int n =>
    rw [writeAmount] at h
    obtain ⟨rfl, -⟩ := Numeral.write_ok h
    rw [String.toList_ofList, chars_eq]
    exact withMinus_head _ (whole_toDigits _).startsWithDigit
  | real x =>
    rw [writeAmount] at h
    rw [← Except.ok.inj h]
    cases x with
    | nan => exact ⟨'N', ['a', 'N'], by simp [Binary64.text, numberSpelling], by simp⟩
    | infinity negative =>
      cases negative with
      | false =>
        exact ⟨'I', "nfinity".toList, by simp [Binary64.text, numberSpelling], by simp⟩
      | true =>
        exact ⟨'-', "Infinity".toList, by simp [Binary64.text, numberSpelling], by simp⟩
    | finite negative rank =>
      obtain ⟨hstart, -⟩ := readsAmount_rank negative rank hend
      rw [text_finite]
      exact withMinus_head _ (by rwa [List.append_nil] at hstart)

end Storyline.Json
