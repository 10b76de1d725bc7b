import Storyline.Binary64.Shortest
import Storyline.Proofs.Binary64.Nearest

/-!
# Storyline.Proofs.Binary64.Shortest

The shortest decimal reads back.  A candidate that is taken reads back because it was
tried; the exact expansion reads back because its magnitude is that of the rank.
-/

namespace Storyline

namespace Decimal

/-- Zeros taken off the end of a coefficient leave the double as it is. -/
theorem ofDecimal_trimUpTo (negative : Bool) (most coefficient : Nat) (exponent : Int) :
    Binary64.ofDecimal negative (trimUpTo most coefficient exponent).coefficient
        (trimUpTo most coefficient exponent).exponent =
      Binary64.ofDecimal negative coefficient exponent := by
  induction most generalizing coefficient exponent with
  | zero => rfl
  | succ most ih =>
    rw [trimUpTo]
    split
    · next h =>
      have hten : coefficient / 10 * 10 = coefficient := by omega
      have hexponent : exponent + 1 - 1 = exponent := by omega
      have hstep := Binary64.ofDecimal_mul_ten negative (coefficient / 10) (exponent + 1)
      rw [hten, hexponent] at hstep
      rw [ih, hstep]
    · rfl

theorem trimUpTo_pos (most : Nat) {coefficient : Nat} (exponent : Int) (h : 0 < coefficient) :
    0 < (trimUpTo most coefficient exponent).coefficient := by
  induction most generalizing coefficient exponent with
  | zero => exact h
  | succ most ih =>
    rw [trimUpTo]
    split
    · exact ih (exponent + 1) (by omega)
    · exact h

end Decimal

namespace Binary64

theorem readsBack_iff {rank : Fin infinityRank} {d : Decimal} :
    readsBack rank d = true ↔ ofDecimal false d.coefficient d.exponent = .finite false rank := by
  rw [readsBack]
  constructor
  · intro h
    split at h
    · next r heq =>
      have hr : r = rank := Fin.ext (by simpa using h)
      rw [heq, hr]
    · cases h
  · intro h
    rw [h]
    simp

/-! ## The exact expansion -/

theorem units_pos {rank : Nat} (h : 0 < rank) : 0 < units rank := by
  by_cases hlt : rank < 2 * binade
  · rw [units_of_lt hlt]
    exact h
  · obtain ⟨hlow, -, -⟩ := significand_bounds (Nat.not_lt.1 hlt)
    exact Nat.mul_pos (Nat.lt_of_lt_of_le (twoTo_pos 52) hlow) (twoTo_pos _)

theorem units_lt (rank : Fin infinityRank) : units rank < twoTo 2098 := by
  have hlt : rank.val < 2047 * binade := rank.isLt
  by_cases h : rank.val < 2 * binade
  · rw [units_of_lt h]
    calc rank.val < 2 * binade := h
      _ = twoTo 53 := rfl
      _ ≤ twoTo 2098 := twoTo_le (by decide)
  · obtain ⟨-, hhigh, -⟩ := significand_bounds (Nat.not_lt.1 h)
    have hscale : scale rank ≤ 2045 := by
      have hdiv : rank.val / binade < 2047 := Nat.div_lt_of_lt_mul (by rwa [Nat.mul_comm])
      rw [scale]
      omega
    calc units rank < 2 * binade * twoTo (scale rank) :=
          (Nat.mul_lt_mul_right (twoTo_pos _)).2 hhigh
      _ ≤ 2 * binade * twoTo 2045 :=
          Nat.mul_le_mul_left _ (twoTo_le hscale)
      _ = twoTo 2098 := by decide +kernel

theorem digitCount_le {n k : Nat} (hk : 0 < k) (h : n < tenTo k) : digitCount n ≤ k := by
  rw [digitCount]
  split
  · exact Nat.zero_le k
  · exact (length_toDigits_le_iff hk).2 h

theorem lt_digitCount {n k : Nat} (hk : 0 < k) (hn : 0 < n) (h : tenTo k ≤ n) :
    k < digitCount n := by
  rw [digitCount_of_pos hn]
  exact Nat.lt_of_not_le fun hle => Nat.not_lt.2 h ((length_toDigits_le_iff hk).1 hle)

/-- A magnitude reads back from a decimal of as many places as one is doubled, if it is
exact and no longer than the decimals that are looked at. -/
theorem ofDecimal_exact {rank : Fin infinityRank} (h : 0 < rank.val) {five : Nat}
    (hone : tenTo 1074 = five * one) (hlow : tenTo 673 ≤ five)
    (hhigh : twoTo 2098 * five ≤ tenTo 1474) :
    ofDecimal false (units rank * five) (-1074) = .finite false rank := by
  have hfive : 0 < five := Nat.lt_of_lt_of_le (tenTo_pos 673) hlow
  have hpos : 0 < units rank * five := Nat.mul_pos (units_pos h) hfive
  have hge : tenTo 673 ≤ units rank * five :=
    Nat.le_trans hlow (Nat.le_mul_of_pos_left five (units_pos h))
  have hlt : units rank * five < tenTo 1474 :=
    Nat.lt_of_lt_of_le ((Nat.mul_lt_mul_right hfive).2 (units_lt rank)) hhigh
  have hmin := lt_digitCount (by decide) hpos hge
  have hmax := digitCount_le (by decide) hlt
  have hnone : (-1074 : Int).toNat = 0 := rfl
  have hplaces : (-(-1074) : Int).toNat = 1074 := rfl
  simp only [ofDecimal]
  rw [if_neg (by omega), if_neg (by omega), hnone, hplaces, tenTo_zero, Nat.mul_one,
    Nat.mul_assoc, ← hone]
  exact nearest_units false rank (tenTo_pos 1074)

/-- The expansion of a magnitude above zero reads back. -/
theorem ofDecimal_expansion (rank : Fin infinityRank) (h : 0 < rank.val) :
    ofDecimal false (expansion rank).coefficient (expansion rank).exponent =
      .finite false rank := by
  have hone : tenTo 1074 = Nat.pow 5 1074 * one := by decide +kernel
  have hlow : tenTo 673 ≤ Nat.pow 5 1074 := by decide +kernel
  have hhigh : twoTo 2098 * Nat.pow 5 1074 ≤ tenTo 1474 := by decide +kernel
  rw [expansion]
  exact ofDecimal_exact h hone hlow hhigh

/-! ## The shortest decimal -/

theorem shortest_eq (rank : Nat) :
    ∃ d, shortest rank = d.trim ∧ (readsBack rank d = true ∨ d = expansion rank) := by
  rw [shortest]
  generalize (List.range 17).flatMap (fun i => neighbours rank (i + 1)) = candidates
  cases hf : candidates.find? (readsBack rank) with
  | none => exact ⟨expansion rank, rfl, .inr rfl⟩
  | some d => exact ⟨d, rfl, .inl (List.find?_some hf)⟩

/-- The shortest decimal of a magnitude above zero is above zero and reads back. -/
theorem ofDecimal_shortest (rank : Fin infinityRank) (h : 0 < rank.val) :
    0 < (shortest rank).coefficient ∧
      ofDecimal false (shortest rank).coefficient (shortest rank).exponent =
        .finite false rank := by
  obtain ⟨d, hd, htaken⟩ := shortest_eq rank
  have hback : ofDecimal false d.coefficient d.exponent = .finite false rank := by
    rcases htaken with hr | rfl
    · exact readsBack_iff.1 hr
    · exact ofDecimal_expansion rank h
  have hpos : 0 < d.coefficient := by
    apply Nat.pos_of_ne_zero
    intro hz
    have hzero : nearest false 0 1 = zero := rfl
    rw [hz, ofDecimal, if_pos (Or.inl rfl), hzero, zero] at hback
    injection hback with _ hrank
    rw [← hrank] at h
    exact absurd h (Nat.lt_irrefl 0)
  rw [hd, Decimal.trim]
  exact ⟨Decimal.trimUpTo_pos _ _ hpos, (Decimal.ofDecimal_trimUpTo false _ _ _).trans hback⟩

end Binary64

end Storyline
