import Storyline.Binary64.Basic
import Storyline.Proofs.Numeral

/-!
# Storyline.Proofs.Binary64.Nearest

Rounding to the nearest rank.  A quotient rounds the same however it is written, and
the magnitude of a rank rounds to that rank.  So a decimal denotes the same double
whether zeros are written at its end or not.  A double is a whole number just if it stands
at one.
-/

namespace Storyline.Binary64

/-! ## Whole numbers -/

theorem signed_mul (negative : Bool) (m n : Nat) :
    signed negative (m * n) = signed negative m * n := by
  cases negative with
  | false => exact Int.natCast_mul m n
  | true =>
    show -((m * n : Nat) : Int) = -(m : Int) * n
    rw [Int.natCast_mul, Int.neg_mul]

theorem natAbs_signed (negative : Bool) (n : Nat) : (signed negative n).natAbs = n := by
  cases negative with
  | false => exact Int.natAbs_natCast n
  | true => exact (Int.natAbs_neg n).trans (Int.natAbs_natCast n)

/-- A double that stands at a whole number has its magnitude and its sign. -/
theorem units_of_standing {negative : Bool} {rank : Fin infinityRank} {n : Int}
    (h : (finite negative rank).standing = .at (n * one)) :
    units rank = n.natAbs * one ∧ signed negative n.natAbs = n := by
  rw [standing, Standing.at.injEq] at h
  have hone : (one : Int) ≠ 0 := Int.ne_of_gt (Int.natCast_pos.2 one_pos)
  have hunits : units rank = n.natAbs * one := by
    rw [← natAbs_signed negative (units rank), h, Int.natAbs_mul, Int.natAbs_natCast]
  rw [hunits, signed_mul] at h
  exact ⟨hunits, Int.eq_of_mul_eq_mul_right hone h⟩

/-- A double is a whole number just if it stands at that number. -/
theorem toInt?_eq_some_iff {x : Binary64} {n : Int} :
    x.toInt? = some n ↔ x.standing = .at (n * one) := by
  cases x with
  | nan => exact iff_of_false (fun h => by cases h) (fun h => by cases h)
  | infinity negative =>
    refine iff_of_false (fun h => by cases h) (fun h => ?_)
    cases negative <;> cases h
  | finite negative rank =>
    constructor
    · intro h
      rw [toInt?] at h
      split at h
      · next hmod =>
        cases h
        have hunits : units rank / one * one = units rank :=
          Nat.div_mul_cancel (Nat.dvd_of_mod_eq_zero hmod)
        rw [standing, ← signed_mul, hunits]
      · cases h
    · intro h
      obtain ⟨hunits, hsign⟩ := units_of_standing h
      rw [toInt?, hunits, if_pos (Nat.mul_mod_left _ _), Nat.mul_div_cancel _ one_pos, hsign]

/-! ## Quotients -/

theorem nearestQuotient_exact (n : Nat) {d : Nat} (hd : 0 < d) : nearestQuotient (n * d) d = n := by
  rw [nearestQuotient, Nat.mul_mod_left, Nat.mul_div_cancel n hd, if_pos (Or.inl hd)]

theorem nearestQuotient_scale (n d : Nat) {k : Nat} (hk : 0 < k) :
    nearestQuotient (n * k) (d * k) = nearestQuotient n d := by
  have hless : 2 * (n % d * k) < d * k ↔ 2 * (n % d) < d := by
    rw [← Nat.mul_assoc]
    exact Nat.mul_lt_mul_right hk
  have heq : 2 * (n % d * k) = d * k ↔ 2 * (n % d) = d := by
    rw [← Nat.mul_assoc]
    exact Nat.mul_left_inj (Nat.ne_of_gt hk)
  simp only [nearestQuotient, Nat.mul_mod_mul_right, Nat.mul_div_mul_right n d hk, hless, heq]

/-- A quotient with a common factor rounds like the one without. -/
theorem nearestRank_scale (n d : Nat) {k : Nat} (hk : 0 < k) :
    nearestRank (n * k) (d * k) = nearestRank n d := by
  have hd : d * k * twoTo ((n / d).log2 - 52) = d * twoTo ((n / d).log2 - 52) * k := by
    rw [Nat.mul_right_comm]
  simp only [nearestRank, Nat.mul_div_mul_right n d hk, hd, nearestQuotient_scale n _ hk]

theorem nearest_scale (negative : Bool) (n d : Nat) {k : Nat} (hk : 0 < k) :
    nearest negative (n * k) (d * k) = nearest negative n d := by
  simp only [nearest, nearestRank_scale n d hk]

/-! ## Ranks -/

/-- The ranks of the first two binades are their own magnitudes. -/
theorem units_of_lt {rank : Nat} (h : rank < 2 * binade) : units rank = rank := by
  have hscale : scale rank = 0 := by
    have hdiv : rank / binade < 2 := Nat.div_lt_of_lt_mul (by rwa [Nat.mul_comm])
    rw [scale]
    omega
  rw [units, significand, hscale, Nat.zero_mul, Nat.sub_zero, twoTo_zero, Nat.mul_one]

/-- In the later binades the significand fills its bits. -/
theorem significand_bounds {rank : Nat} (h : 2 * binade ≤ rank) :
    binade ≤ significand rank ∧ significand rank < 2 * binade ∧
      scale rank * binade + significand rank = rank := by
  have hpos : 0 < binade := twoTo_pos 52
  have hdiv : 2 ≤ rank / binade := (Nat.le_div_iff_mul_le hpos).2 h
  have hsplit := Nat.div_add_mod rank binade
  have hmod := Nat.mod_lt rank hpos
  have hscale : binade * (rank / binade) = scale rank * binade + binade := by
    rw [scale, Nat.mul_comm, ← Nat.succ_mul]
    congr 1
    omega
  rw [significand]
  omega

theorem log2_units {rank : Nat} (h : 2 * binade ≤ rank) : (units rank).log2 = scale rank + 52 := by
  obtain ⟨hlow, hhigh, -⟩ := significand_bounds h
  have hpos : 0 < twoTo (scale rank) := twoTo_pos _
  have hne : units rank ≠ 0 :=
    Nat.ne_of_gt (Nat.mul_pos (Nat.lt_of_lt_of_le (twoTo_pos 52) hlow) hpos)
  rw [log2_eq_iff hne, units]
  constructor
  · rw [Nat.add_comm, twoTo_add]
    exact Nat.mul_le_mul_right _ hlow
  · have hdouble : twoTo 53 = 2 * binade := by rw [twoTo_succ, Nat.mul_comm]; rfl
    have hcomm : scale rank + 52 + 1 = 53 + scale rank := by omega
    rw [hcomm, twoTo_add, hdouble]
    exact (Nat.mul_lt_mul_right hpos).2 hhigh

/-- The magnitude of a rank rounds to that rank. -/
theorem nearestRank_units (rank : Nat) {k : Nat} (hk : 0 < k) :
    nearestRank (units rank * k) k = rank := by
  rw [nearestRank, Nat.mul_div_cancel _ hk]
  by_cases h : rank < 2 * binade
  · have hlog : rank.log2 - 52 = 0 := by
      by_cases hz : rank = 0
      · rw [hz, Nat.log2_zero]
      · have hlt : rank < twoTo 53 := by
          rw [twoTo_succ, Nat.mul_comm]
          exact h
        have hlog : rank.log2 < 53 := (Nat.log2_lt hz).2 hlt
        omega
    simp only [units_of_lt h, hlog, Nat.zero_mul, Nat.zero_add, twoTo_zero, Nat.mul_one,
      nearestQuotient_exact rank hk]
  · have hge : 2 * binade ≤ rank := by omega
    obtain ⟨-, -, hsum⟩ := significand_bounds hge
    have hsplit : units rank * k = significand rank * (k * twoTo (scale rank)) := by
      rw [units, Nat.mul_assoc, Nat.mul_comm (twoTo (scale rank))]
    simp only [log2_units hge, Nat.add_sub_cancel, hsplit]
    rw [nearestQuotient_exact _ (Nat.mul_pos hk (twoTo_pos _))]
    exact hsum

theorem nearest_units (negative : Bool) (rank : Fin infinityRank) {k : Nat} (hk : 0 < k) :
    nearest negative (units rank * k) k = .finite negative rank := by
  have h := nearestRank_units rank hk
  have hlt : nearestRank (units rank * k) k < infinityRank := by
    rw [h]
    exact rank.isLt
  rw [nearest, dif_pos hlt]
  simp only [h]

/-- A double that is a whole number, but not zero, is the one nearest to that number. -/
theorem nearest_of_toInt? {x : Binary64} {n : Int} (h : x.toInt? = some n) (hn : n ≠ 0) :
    nearest (decide (n < 0)) (n.natAbs * one) 1 = x := by
  cases x with
  | finite negative rank =>
    obtain ⟨hunits, hsign⟩ := units_of_standing (toInt?_eq_some_iff.1 h)
    have hnegative : decide (n < 0) = negative := by
      cases negative with
      | false =>
        have hle : (n.natAbs : Int) = n := hsign
        exact decide_eq_false (by omega)
      | true =>
        have hge : -(n.natAbs : Int) = n := hsign
        exact decide_eq_true (by omega)
    have hexact := nearest_units negative rank (show 0 < 1 by decide)
    rw [Nat.mul_one, hunits] at hexact
    rw [hnegative, hexact]
  | _ => cases h

/-! ## Decimals -/

theorem digitCount_of_pos {n : Nat} (h : 0 < n) : digitCount n = (Nat.toDigits 10 n).length := by
  rw [digitCount, if_neg (Nat.ne_of_gt h)]

theorem digitCount_mul_ten {n : Nat} (h : 0 < n) : digitCount (n * 10) = digitCount n + 1 := by
  rw [digitCount_of_pos h, digitCount_of_pos (Nat.mul_pos h (by decide)),
    Nat.toDigits_of_base_le (by decide) (by omega), Nat.mul_div_cancel n (by decide),
    List.length_append, List.length_singleton]

/-- A zero at the end of the coefficient can be written or counted. -/
theorem ofDecimal_mul_ten (negative : Bool) (coefficient : Nat) (exponent : Int) :
    ofDecimal negative (coefficient * 10) (exponent - 1) =
      ofDecimal negative coefficient exponent := by
  by_cases hc : coefficient = 0
  · rw [hc, ofDecimal, ofDecimal, if_pos (Or.inl (Nat.zero_mul 10)), if_pos (Or.inl rfl)]
  · have hpos : 0 < coefficient := Nat.pos_of_ne_zero hc
    have hmagnitude : ((digitCount (coefficient * 10) : Nat) : Int) + (exponent - 1) =
        digitCount coefficient + exponent := by
      rw [digitCount_mul_ten hpos]
      omega
    have hzero : coefficient * 10 = 0 ↔ coefficient = 0 := by omega
    simp only [ofDecimal, hmagnitude, hzero]
    split
    · rfl
    split
    · rfl
    by_cases he : 1 ≤ exponent
    · have hsucc : exponent.toNat = (exponent - 1).toNat + 1 := by omega
      have hneg : (-(exponent - 1)).toNat = (-exponent).toNat := by omega
      rw [hneg, hsucc, tenTo_succ, Nat.mul_right_comm coefficient 10, Nat.mul_assoc coefficient]
    · have hzero' : (exponent - 1).toNat = exponent.toNat := by omega
      have hneg : (-(exponent - 1)).toNat = (-exponent).toNat + 1 := by omega
      have hten : coefficient * 10 * tenTo exponent.toNat * one =
          coefficient * tenTo exponent.toNat * one * 10 := by
        rw [Nat.mul_right_comm coefficient 10, Nat.mul_right_comm _ 10]
      rw [hneg, hzero', tenTo_succ, hten]
      exact nearest_scale negative _ _ (by decide)

theorem ofDecimal_mul_tenTo (negative : Bool) (coefficient : Nat) (exponent : Int) (k : Nat) :
    ofDecimal negative (coefficient * tenTo k) (exponent - k) =
      ofDecimal negative coefficient exponent := by
  induction k with
  | zero => rw [tenTo_zero, Nat.mul_one, Int.natCast_zero, Int.sub_zero]
  | succ k ih =>
    rw [tenTo_succ, ← Nat.mul_assoc, Int.natCast_succ, ← Int.sub_sub, ofDecimal_mul_ten, ih]

/-- The sign does not take part in rounding. -/
theorem ofDecimal_sign {coefficient : Nat} {exponent : Int} {rank : Fin infinityRank}
    (h : ofDecimal false coefficient exponent = .finite false rank) (negative : Bool) :
    ofDecimal negative coefficient exponent = .finite negative rank := by
  have hnearest : ∀ n d, nearest false n d = .finite false rank →
      nearest negative n d = .finite negative rank := by
    intro n d hn
    rw [nearest] at hn ⊢
    split at hn
    · next hlt =>
      cases hn
      rw [dif_pos hlt]
    · cases hn
  rw [ofDecimal] at h ⊢
  split at h
  · next hc =>
    rw [if_pos hc]
    exact hnearest _ _ h
  · next hc =>
    rw [if_neg hc]
    split at h
    · cases h
    · next hm =>
      rw [if_neg hm]
      exact hnearest _ _ h

end Storyline.Binary64
