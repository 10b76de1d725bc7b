import Storyline.Numeral

/-!
# Storyline.Proofs.Numeral

Decimal digits read back.  The digits of a number above zero do not start with a zero;
zeros before the digits do not count, and each zero after them is a factor of ten.
-/

namespace Storyline

theorem twoTo_le {j k : Nat} (h : j ≤ k) : twoTo j ≤ twoTo k := Nat.pow_le_pow_right (by decide) h

theorem tenTo_le {j k : Nat} (h : j ≤ k) : tenTo j ≤ tenTo k := Nat.pow_le_pow_right (by decide) h

theorem twoTo_le_tenTo (k : Nat) : twoTo k ≤ tenTo k := Nat.pow_le_pow_left (by decide) k

theorem twoTo_add (j k : Nat) : twoTo (j + k) = twoTo j * twoTo k := Nat.pow_add 2 j k

theorem log2_eq_iff {n k : Nat} (h : n ≠ 0) : n.log2 = k ↔ twoTo k ≤ n ∧ n < twoTo (k + 1) :=
  Nat.log2_eq_iff h

/-- The number of digits tells the powers of ten apart. -/
theorem length_toDigits_le_iff {n k : Nat} (hk : 0 < k) :
    (Nat.toDigits 10 n).length ≤ k ↔ n < tenTo k :=
  Nat.length_toDigits_le_iff (by decide) hk

namespace Numeral

theorem isDigit_of_mem {n : Nat} {c : Char} (h : c ∈ Nat.toDigits 10 n) : c.isDigit = true :=
  Nat.isDigit_of_mem_toDigits (by decide) (by decide) h

theorem head_toDigits (n : Nat) (h : 0 < n) :
    ∃ c rest, Nat.toDigits 10 n = c :: rest ∧ c ≠ '0' := by
  induction n using Nat.strongRecOn with
  | ind n ih =>
    rw [Nat.toDigits_eq_if (by decide)]
    split
    · next hlt =>
      have hc : n.digitChar ≠ '0' := by
        rw [ne_eq, Nat.digitChar_eq_zero]
        omega
      exact ⟨n.digitChar, [], rfl, hc⟩
    · next hge =>
      obtain ⟨c, rest, hdigits, hc⟩ := ih (n / 10) (by omega) (by omega)
      exact ⟨c, rest ++ [(n % 10).digitChar], by rw [hdigits, List.cons_append], hc⟩

theorem ofDigitChars_zeros (k : Nat) (digits : List Char) :
    Nat.ofDigitChars 10 (List.replicate k '0' ++ digits) 0 = Nat.ofDigitChars 10 digits 0 := by
  rw [Nat.ofDigitChars_append, Nat.ofDigitChars_replicate_zero, Nat.mul_zero]

theorem ofDigitChars_append_zeros (digits : List Char) (k : Nat) :
    Nat.ofDigitChars 10 (digits ++ List.replicate k '0') 0 =
      Nat.ofDigitChars 10 digits 0 * tenTo k := by
  rw [Nat.ofDigitChars_append, Nat.ofDigitChars_replicate_zero]
  exact Nat.mul_comm _ _

theorem length_toDigits_le {n : Nat} (h : n < firstUnwritable) :
    (Nat.toDigits 10 n).length ≤ digitLimit := by
  rw [firstUnwritable] at h
  exact (length_toDigits_le_iff (by decide)).2 h

theorem readDigits_toDigits {n : Nat} (h : n < firstUnwritable) :
    readDigits (Nat.toDigits 10 n) = .ok n := by
  rw [readDigits, if_pos (length_toDigits_le h), Nat.ofDigitChars_ten_toDigits]

/-- A whole number is what its sign and its magnitude make. -/
theorem withSign_natAbs (n : Int) : withSign (decide (n < 0)) n.natAbs = n := by
  rw [withSign]
  by_cases h : n < 0
  · rw [if_pos (decide_eq_true h)]
    omega
  · rw [if_neg (by simpa using h)]
    omega

theorem write_ok {n : Int} {text : String} (h : write n = .ok text) :
    text = String.ofList (chars n) ∧ n.natAbs < firstUnwritable := by
  rw [write] at h
  split at h
  · next hn => cases h; exact ⟨rfl, hn⟩
  · cases h

theorem write_of_lt {n : Int} (h : n.natAbs < firstUnwritable) :
    write n = .ok (String.ofList (chars n)) := by
  rw [write, if_pos h]

theorem ofDigitChars_lt {digits : List Char} (h : ∀ c ∈ digits, c.isDigit = true) :
    Nat.ofDigitChars 10 digits 0 < tenTo digits.length := by
  induction digits with
  | nil => exact Nat.one_pos
  | cons c rest ih =>
    obtain ⟨hc, hrest⟩ := List.forall_mem_cons.1 h
    have hdigit : 48 ≤ c.toNat ∧ c.toNat ≤ 57 := Char.isDigit_iff_toNat.1 hc
    have hvalue : Nat.ofDigitChars 10 (c :: rest) 0 =
        tenTo rest.length * (c.toNat - 48) + Nat.ofDigitChars 10 rest 0 := by
      rw [Nat.ofDigitChars_cons, Nat.ofDigitChars_eq_ofDigitChars_zero, Nat.mul_zero, Nat.zero_add]
      rfl
    have hfirst : tenTo rest.length * (c.toNat - 48) ≤ tenTo rest.length * 9 :=
      Nat.mul_le_mul_left _ (by omega)
    have := ih hrest
    rw [hvalue, List.length_cons, tenTo_succ]
    omega

/-- A run of digits that is short enough to be read is short enough to be written. -/
theorem lt_of_readDigits {digits : List Char} {n : Nat} (hdigits : ∀ c ∈ digits, c.isDigit = true)
    (h : readDigits digits = .ok n) : n < firstUnwritable := by
  rw [readDigits] at h
  split at h
  · next hlength =>
    cases h
    exact Nat.lt_of_lt_of_le (ofDigitChars_lt hdigits) (tenTo_le hlength)
  · cases h

/-! ## Deltas -/

/-- The ways to write a sign. -/
def signs (negative : Bool) : List (List Char) := if negative then [['-']] else [[], ['+']]

/-- A text spells a whole number: a sign and at least one digit, and nothing else. -/
def Spells (text : String) (negative : Bool) (digits : List Char) : Prop :=
  (∃ sign ∈ signs negative, text.toList = sign ++ digits) ∧ digits ≠ [] ∧
    ∀ c ∈ digits, c.isDigit = true

theorem splitSign_of_digits {digits : List Char} (h : ∀ c ∈ digits, c.isDigit = true) :
    splitSign digits = (false, digits) := by
  rw [splitSign.eq_def]
  split
  · exact absurd (h '-' List.mem_cons_self) (by decide)
  · exact absurd (h '+' List.mem_cons_self) (by decide)
  · rfl

theorem splitSign_append {negative : Bool} {sign digits : List Char} (hsign : sign ∈ signs negative)
    (h : ∀ c ∈ digits, c.isDigit = true) : splitSign (sign ++ digits) = (negative, digits) := by
  cases negative with
  | true =>
    obtain rfl : sign = ['-'] := List.mem_singleton.1 hsign
    rfl
  | false =>
    obtain rfl | hsign := List.mem_cons.1 hsign
    · exact splitSign_of_digits h
    · obtain rfl : sign = ['+'] := List.mem_singleton.1 hsign
      rfl

theorem exists_sign (cs : List Char) :
    ∃ sign ∈ signs (splitSign cs).1, cs = sign ++ (splitSign cs).2 := by
  rw [splitSign.eq_def]
  split
  · exact ⟨['-'], List.mem_singleton_self _, rfl⟩
  · exact ⟨['+'], by simp [signs], rfl⟩
  · exact ⟨[], by simp [signs], rfl⟩

/-- The deltas are the texts that spell whole numbers. -/
theorem spells_iff {text : String} {negative : Bool} {digits : List Char} :
    Spells text negative digits ↔
      isDelta text = true ∧ splitSign text.toList = (negative, digits) := by
  have hdelta : isDelta text = true ↔ (splitSign text.toList).2 ≠ [] ∧
      ∀ c ∈ (splitSign text.toList).2, c.isDigit = true := by
    simp [isDelta]
  rw [hdelta]
  constructor
  · rintro ⟨⟨sign, hsign, htext⟩, hne, hdigits⟩
    rw [htext, splitSign_append hsign hdigits]
    exact ⟨⟨hne, hdigits⟩, rfl⟩
  · rintro ⟨⟨hne, hdigits⟩, hsplit⟩
    obtain ⟨sign, hsign, htext⟩ := exists_sign text.toList
    rw [hsplit] at hne hdigits hsign htext
    exact ⟨⟨sign, hsign, htext⟩, hne, hdigits⟩

theorem exists_spells {text : String} (h : isDelta text = true) :
    ∃ negative digits, Spells text negative digits :=
  ⟨_, _, spells_iff.2 ⟨h, rfl⟩⟩

/-- A delta is read unless it has too many digits. -/
theorem readDelta_of_spells {text : String} {negative : Bool} {digits : List Char}
    (h : Spells text negative digits) :
    readDelta text =
      if digits.length ≤ digitLimit then .ok (withSign negative (Nat.ofDigitChars 10 digits 0))
      else .error (.unreadable digits.length) := by
  rw [readDelta, (spells_iff.1 h).2]
  simp only [readDigits]
  split <;> rfl

end Numeral

end Storyline
