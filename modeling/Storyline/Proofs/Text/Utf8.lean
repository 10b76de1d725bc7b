import Storyline.Text.Utf8

/-!
# Storyline.Proofs.Text.Utf8

The bytes of a text spell that text.  The ranges that narrow a second byte are just
those in which the bytes of a character lie.
-/

namespace Storyline.Text

theorem toNat_toUInt8 {n : Nat} (h : n < 256) : n.toUInt8.toNat = n := by
  rw [Nat.toUInt8, UInt8.toNat_ofNat']
  exact Nat.mod_eq_of_lt h

theorem continueChar_cons {low high n : Nat} (hlow : low ≤ n) (hhigh : n ≤ high) (hn : n < 256)
    (missing value seen : Nat) (bytes : List UInt8) :
    continueChar (missing + 1) low high value seen (n.toUInt8 :: bytes) =
      continueChar missing 0x80 0xBF (value * 0x40 + n % 0x40) (seen + 1) bytes := by
  rw [continueChar, toNat_toUInt8 hn, if_pos ⟨hlow, hhigh⟩]

/-- Two more bytes complete the character that they and the value before them make up. -/
theorem continueChar_two {low high value second last n : Nat} (hsecond : second < 0x40)
    (hlast : last < 0x40) (hlow : low ≤ 0x80 + second) (hhigh : 0x80 + second ≤ high)
    (hvalue : (value * 0x40 + second) * 0x40 + last = n) (seen : Nat) (rest : List UInt8) :
    continueChar 2 low high value seen
        ((0x80 + second).toUInt8 :: (0x80 + last).toUInt8 :: rest) =
      .char (Char.ofNat n) (seen + 2) rest := by
  have hmod : ∀ k, k < 0x40 → (0x80 + k) % 0x40 = k := by
    intro k hk
    omega
  rw [continueChar_cons hlow hhigh (by omega),
    continueChar_cons (by omega) (by omega) (by omega), hmod second hsecond, hmod last hlast,
    hvalue, continueChar]

theorem continueChar_three {low high value second third last n : Nat} (hsecond : second < 0x40)
    (hthird : third < 0x40) (hlast : last < 0x40) (hlow : low ≤ 0x80 + second)
    (hhigh : 0x80 + second ≤ high)
    (hvalue : ((value * 0x40 + second) * 0x40 + third) * 0x40 + last = n) (seen : Nat)
    (rest : List UInt8) :
    continueChar 3 low high value seen ((0x80 + second).toUInt8 :: (0x80 + third).toUInt8 ::
        (0x80 + last).toUInt8 :: rest) =
      .char (Char.ofNat n) (seen + 3) rest := by
  have hmod : (0x80 + second) % 0x40 = second := by omega
  rw [continueChar_cons hlow hhigh (by omega), hmod]
  exact continueChar_two hthird hlast (by omega) (by omega) hvalue (seen + 1) rest

section Bytes

variable {n : Nat} (rest : List UInt8)

theorem takeChar_one (h : n < 0x80) : takeChar n.toUInt8 rest = .char (Char.ofNat n) 1 rest := by
  rw [takeChar, toNat_toUInt8 (by omega), if_pos h]

theorem takeChar_two (hlow : 0x80 ≤ n) (h : n < 0x800) :
    takeChar (0xC0 + n / 0x40).toUInt8 ((0x80 + n % 0x40).toUInt8 :: rest) =
      .char (Char.ofNat n) 2 rest := by
  have hn : (0xC0 + n / 0x40 - 0xC0) * 0x40 + (0x80 + n % 0x40) % 0x40 = n := by omega
  rw [takeChar, toNat_toUInt8 (by omega), if_neg (by omega), if_neg (by omega), if_pos (by omega),
    continueChar_cons (by omega) (by omega) (by omega), hn, continueChar]

/-- The second byte of three is bound from below where two would do and from above where
halves of surrogate pairs would come. -/
theorem takeChar_three (hlow : 0x800 ≤ n) (h : n < 0x10000) (hpair : n < 0xD800 ∨ 0xDFFF < n) :
    takeChar (0xE0 + n / 0x1000).toUInt8
        ((0x80 + n / 0x40 % 0x40).toUInt8 :: (0x80 + n % 0x40).toUInt8 :: rest) =
      .char (Char.ofNat n) 3 rest := by
  rw [takeChar, toNat_toUInt8 (by omega), if_neg (by omega), if_neg (by omega), if_neg (by omega)]
  have hsecond : n / 0x40 % 0x40 < 0x40 := by omega
  have hlast : n % 0x40 < 0x40 := by omega
  by_cases hfirst : 0xE0 + n / 0x1000 = 0xE0
  · rw [if_pos hfirst]
    exact continueChar_two hsecond hlast (by omega) (by omega) (by omega) 1 rest
  rw [if_neg hfirst]
  by_cases hpaired : 0xE0 + n / 0x1000 = 0xED
  · rw [if_pos hpaired]
    exact continueChar_two hsecond hlast (by omega) (by omega) (by omega) 1 rest
  · rw [if_neg hpaired, if_pos (by omega)]
    exact continueChar_two hsecond hlast (by omega) (by omega) (by omega) 1 rest

/-- The second byte of four is bound from below where three would do and from above where
characters end. -/
theorem takeChar_four (hlow : 0x10000 ≤ n) (h : n < 0x110000) :
    takeChar (0xF0 + n / 0x40000).toUInt8
        ((0x80 + n / 0x1000 % 0x40).toUInt8 :: (0x80 + n / 0x40 % 0x40).toUInt8 ::
          (0x80 + n % 0x40).toUInt8 :: rest) =
      .char (Char.ofNat n) 4 rest := by
  rw [takeChar, toNat_toUInt8 (by omega), if_neg (by omega), if_neg (by omega), if_neg (by omega),
    if_neg (by omega), if_neg (by omega), if_neg (by omega)]
  have hsecond : n / 0x1000 % 0x40 < 0x40 := by omega
  have hthird : n / 0x40 % 0x40 < 0x40 := by omega
  have hlast : n % 0x40 < 0x40 := by omega
  by_cases hfirst : 0xF0 + n / 0x40000 = 0xF0
  · rw [if_pos hfirst]
    exact continueChar_three hsecond hthird hlast (by omega) (by omega) (by omega) 1 rest
  rw [if_neg hfirst]
  by_cases hmiddle : 0xF0 + n / 0x40000 < 0xF4
  · rw [if_pos hmiddle]
    exact continueChar_three hsecond hthird hlast (by omega) (by omega) (by omega) 1 rest
  · rw [if_neg hmiddle, if_pos (by omega)]
    exact continueChar_three hsecond hthird hlast (by omega) (by omega) (by omega) 1 rest

end Bytes

/-- The bytes of a character are taken for that character. -/
theorem takeChar_encodeChar (c : Char) (rest : List UInt8) :
    ∃ first after, encodeChar c ++ rest = first :: after ∧
      takeChar first after = .char c (encodeChar c).length rest := by
  have hvalid : c.toNat < 0xD800 ∨ 0xDFFF < c.toNat ∧ c.toNat < 0x110000 := c.valid
  rw [encodeChar]
  by_cases h₁ : c.toNat < 0x80
  · have h := takeChar_one rest h₁
    rw [Char.ofNat_toNat] at h
    rw [if_pos h₁]
    exact ⟨_, _, rfl, h⟩
  rw [if_neg h₁]
  by_cases h₂ : c.toNat < 0x800
  · have h := takeChar_two rest (Nat.not_lt.1 h₁) h₂
    rw [Char.ofNat_toNat] at h
    rw [if_pos h₂]
    exact ⟨_, _, rfl, h⟩
  rw [if_neg h₂]
  by_cases h₃ : c.toNat < 0x10000
  · have h := takeChar_three rest (Nat.not_lt.1 h₂) h₃ (hvalid.imp_right And.left)
    rw [Char.ofNat_toNat] at h
    rw [if_pos h₃]
    exact ⟨_, _, rfl, h⟩
  · have h := takeChar_four rest (Nat.not_lt.1 h₃) (by omega)
    rw [Char.ofNat_toNat] at h
    rw [if_neg h₃]
    exact ⟨_, _, rfl, h⟩

theorem encodeChar_ne_nil (c : Char) : encodeChar c ≠ [] := by
  rw [encodeChar]
  repeat' split
  all_goals exact List.cons_ne_nil _ _

theorem decodeFrom_encode (cs : List Char) {steps : Nat} (position : Nat)
    (h : (cs.flatMap encodeChar).length ≤ steps) :
    decodeFrom steps position (cs.flatMap encodeChar) = .ok cs := by
  induction cs generalizing steps position with
  | nil => cases steps <;> rfl
  | cons c cs ih =>
    obtain ⟨first, after, hbytes, htake⟩ := takeChar_encodeChar c (cs.flatMap encodeChar)
    rw [List.flatMap_cons, List.length_append] at h
    have hpos : 0 < (encodeChar c).length := List.length_pos_iff.2 (encodeChar_ne_nil c)
    cases steps with
    | zero => omega
    | succ steps =>
      rw [List.flatMap_cons, hbytes, decodeFrom]
      simp only [htake, ih _ (show (cs.flatMap encodeChar).length ≤ steps by omega), Except.map]

/-- The bytes of a text spell that text. -/
theorem decode_encode (text : String) : decode (encode text) = .ok text := by
  rw [decode, encode, decodeFrom_encode text.toList 0 (Nat.le_refl _)]
  exact congrArg Except.ok String.ofList_toList

end Storyline.Text
