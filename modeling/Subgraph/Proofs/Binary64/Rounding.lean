import Mathlib.Data.Rat.Cast.Order
import Mathlib.Algebra.Order.Field.Rat
import Mathlib.Algebra.Order.Field.Power
import Mathlib.Tactic.FieldSimp
import Mathlib.Tactic.Linarith
import Mathlib.Tactic.NormNum
import Mathlib.Tactic.Positivity
import Subgraph.Binary64.Basic

/-!
# `Binary64.Rounding` — a fraction is rounded by its value

A fraction is rounded by integer arithmetic on its two parts: its binary exponent is estimated and
corrected, and a quotient is rounded. This module says that only the value of the fraction counts
(`ofRatio_congr`), that the values of the type are left as they are (`ofRatio_exact`), and that a
decimal is rounded as the fraction that it is (`ofDecimal_eq_ofRatio`), although nothing is computed
for those beyond all values and below them (`ofRatio_of_large`, `ofRatio_of_small`).
-/

namespace Subgraph
namespace Binary64

/-! ## Scaling -/

theorem scaled_pos {d : Nat} (hd : 0 < d) (n : Nat) (e : Int) : 0 < (scaled n d e).2 := by
  unfold scaled
  split
  · exact Nat.mul_pos hd (Nat.pow_pos (by decide))
  · exact hd

/-- Scaling by `e` divides by `2^e`. -/
theorem scaled_div (n d : Nat) (e : Int) :
    ((scaled n d e).1 : ℚ) / (scaled n d e).2 = (n : ℚ) / d / 2 ^ e := by
  unfold scaled
  split
  · next he =>
    have hpow : (2 : ℚ) ^ e = 2 ^ e.toNat := by
      rw [← zpow_natCast, Int.toNat_of_nonneg he]
    simp only [Nat.pow_eq, Nat.cast_mul, Nat.cast_pow, Nat.cast_ofNat, hpow]
    rw [div_div]
  · next he =>
    have hneg : ((-e).toNat : Int) = -e := Int.toNat_of_nonneg (by omega)
    have hpow : (2 : ℚ) ^ e = (2 ^ (-e).toNat)⁻¹ := by
      rw [← zpow_natCast, hneg, zpow_neg, inv_inv]
    simp only [Nat.pow_eq, Nat.cast_mul, Nat.cast_pow, Nat.cast_ofNat, hpow]
    rw [div_inv_eq_mul, div_mul_eq_mul_div]

/-- A fraction is below `2^k` iff its numerator, scaled by `k`, is below its denominator. -/
theorem scaled_lt_iff {d : Nat} (hd : 0 < d) (n : Nat) (k : Int) :
    (scaled n d k).1 < (scaled n d k).2 ↔ (n : ℚ) / d < 2 ^ k := by
  have hpos : (0 : ℚ) < (scaled n d k).2 := by exact_mod_cast scaled_pos hd n k
  have htwo : (0 : ℚ) < 2 ^ k := by positivity
  rw [← div_lt_one htwo, ← scaled_div, div_lt_one hpos, Nat.cast_lt]

/-! ## Binary exponents -/

/-- Between which powers of two a number lies is said by one exponent only. -/
theorem zpow_unique {q : ℚ} {j k : Int} (hj : (2 : ℚ) ^ j ≤ q) (hj' : q < 2 ^ (j + 1))
    (hk : (2 : ℚ) ^ k ≤ q) (hk' : q < 2 ^ (k + 1)) : j = k := by
  have hjk : j < k + 1 := (zpow_lt_zpow_iff_right₀ (by norm_num : (1 : ℚ) < 2)).mp (hj.trans_lt hk')
  have hkj : k < j + 1 := (zpow_lt_zpow_iff_right₀ (by norm_num : (1 : ℚ) < 2)).mp (hk.trans_lt hj')
  omega

/-- The estimate from the lengths of the two parts is right or one too large. -/
theorem log2_sub_log2 {n d : Nat} (hn : 0 < n) (hd : 0 < d) :
    (2 : ℚ) ^ ((n.log2 : Int) - d.log2 - 1) ≤ (n : ℚ) / d ∧
      (n : ℚ) / d < 2 ^ ((n.log2 : Int) - d.log2 + 1) := by
  have hd' : (0 : ℚ) < d := by exact_mod_cast hd
  have hnlow : (2 : ℚ) ^ (n.log2 : Int) ≤ n := by
    rw [zpow_natCast]
    exact_mod_cast Nat.log2_self_le hn.ne'
  have hnhigh : (n : ℚ) < 2 ^ ((n.log2 : Int) + 1) := by
    have h : n < 2 ^ (n.log2 + 1) := Nat.lt_log2_self
    exact_mod_cast h
  have hdlow : (2 : ℚ) ^ (d.log2 : Int) ≤ d := by
    rw [zpow_natCast]
    exact_mod_cast Nat.log2_self_le hd.ne'
  have hdhigh : (d : ℚ) < 2 ^ ((d.log2 : Int) + 1) := by
    have h : d < 2 ^ (d.log2 + 1) := Nat.lt_log2_self
    exact_mod_cast h
  constructor
  · rw [le_div_iff₀ hd']
    calc (2 : ℚ) ^ ((n.log2 : Int) - d.log2 - 1) * d
        ≤ 2 ^ ((n.log2 : Int) - d.log2 - 1) * 2 ^ ((d.log2 : Int) + 1) := by gcongr
      _ = 2 ^ (n.log2 : Int) := by rw [← zpow_add₀ two_ne_zero]; congr 1; omega
      _ ≤ n := hnlow
  · rw [div_lt_iff₀ hd']
    calc (n : ℚ) < 2 ^ ((n.log2 : Int) + 1) := hnhigh
      _ = 2 ^ ((n.log2 : Int) - d.log2 + 1) * 2 ^ (d.log2 : Int) := by
        rw [← zpow_add₀ two_ne_zero]; congr 1; omega
      _ ≤ 2 ^ ((n.log2 : Int) - d.log2 + 1) * d := by gcongr

/-- **The binary exponent is right.** -/
theorem floorLog2_spec {n d : Nat} (hn : 0 < n) (hd : 0 < d) :
    (2 : ℚ) ^ floorLog2 n d ≤ (n : ℚ) / d ∧ (n : ℚ) / d < 2 ^ (floorLog2 n d + 1) := by
  obtain ⟨hlow, hhigh⟩ := log2_sub_log2 hn hd
  unfold floorLog2
  dsimp only
  split
  · next h =>
    rw [scaled_lt_iff hd] at h
    rw [sub_add_cancel]
    exact ⟨hlow, h⟩
  · next h =>
    rw [scaled_lt_iff hd, not_lt] at h
    exact ⟨h, hhigh⟩

theorem floorLog2_eq {n d : Nat} (hn : 0 < n) (hd : 0 < d) {k : Int}
    (hlow : (2 : ℚ) ^ k ≤ (n : ℚ) / d) (hhigh : (n : ℚ) / d < 2 ^ (k + 1)) : floorLog2 n d = k := by
  obtain ⟨hlow', hhigh'⟩ := floorLog2_spec hn hd
  exact zpow_unique hlow' hhigh' hlow hhigh

/-! ## Rounding a quotient -/

/-- A quotient does not change if both of its parts are multiplied. -/
theorem roundDiv_mul {k : Nat} (hk : 0 < k) (n d : Nat) :
    roundDiv (k * n) (k * d) = roundDiv n d := by
  have hless : 2 * (k * (n % d)) < k * d ↔ 2 * (n % d) < d := by
    rw [Nat.mul_left_comm, Nat.mul_lt_mul_left hk]
  have hmore : k * d < 2 * (k * (n % d)) ↔ d < 2 * (n % d) := by
    rw [Nat.mul_left_comm, Nat.mul_lt_mul_left hk]
  unfold roundDiv
  rw [Nat.mul_mod_mul_left, Nat.mul_div_mul_left _ _ hk]
  simp only [hless, hmore]

theorem roundDiv_congr {n d n' d' : Nat} (hd : 0 < d) (hd' : 0 < d')
    (h : (n : ℚ) / d = (n' : ℚ) / d') : roundDiv n d = roundDiv n' d' := by
  have hcross : n * d' = n' * d := by
    rw [div_eq_div_iff (by exact_mod_cast hd.ne') (by exact_mod_cast hd'.ne')] at h
    exact_mod_cast h
  calc roundDiv n d = roundDiv (d' * n) (d' * d) := (roundDiv_mul hd' n d).symm
    _ = roundDiv (d * n') (d * d') := by rw [Nat.mul_comm d' n, hcross, Nat.mul_comm n', Nat.mul_comm d']
    _ = roundDiv n' d' := roundDiv_mul hd n' d'

/-- A natural number is a rounded quotient of itself. -/
theorem roundDiv_one (m : Nat) : roundDiv m 1 = m := by
  have hmod : m % 1 = 0 := Nat.mod_one m
  simp [roundDiv, hmod]

/-- Less than a half is rounded to zero. -/
theorem roundDiv_eq_zero {n d : Nat} (h : 2 * n < d) : roundDiv n d = 0 := by
  have hlt : n < d := by omega
  rw [roundDiv, Nat.mod_eq_of_lt hlt, if_pos h, Nat.div_eq_of_lt hlt]

/-! ## Rounding a fraction -/

/-- The exponent at which a fraction is rounded. -/
def gridExponent (n d : Nat) : Int := max (-1074) (floorLog2 n d - 52)

theorem ofRatio_eq {n : Nat} (hn : 0 < n) (negative : Bool) (d : Nat) :
    ofRatio negative n d =
      ofScaled negative
        (roundDiv (scaled n d (gridExponent n d)).1 (scaled n d (gridExponent n d)).2)
        (gridExponent n d) := by
  rw [ofRatio, if_neg hn.ne']
  rfl

/-- **A fraction is rounded by its value.** -/
theorem ofRatio_congr {n d n' d' : Nat} (hd : 0 < d) (hd' : 0 < d')
    (h : (n : ℚ) / d = (n' : ℚ) / d') (negative : Bool) :
    ofRatio negative n d = ofRatio negative n' d' := by
  have hdq : (0 : ℚ) < d := by exact_mod_cast hd
  have hdq' : (0 : ℚ) < d' := by exact_mod_cast hd'
  rcases Nat.eq_zero_or_pos n with rfl | hn
  · have hn' : n' = 0 := by
      rw [Nat.cast_zero, zero_div, eq_comm, div_eq_zero_iff] at h
      exact_mod_cast h.resolve_right hdq'.ne'
    rw [hn', ofRatio, ofRatio, if_pos rfl, if_pos rfl]
  · have hn' : 0 < n' := by
      have hpos : (0 : ℚ) < (n' : ℚ) / d' := by
        rw [← h]
        positivity
      rcases Nat.eq_zero_or_pos n' with rfl | hn'
      · simp at hpos
      · exact hn'
    obtain ⟨hlow, hhigh⟩ := floorLog2_spec hn hd
    have hexponent : floorLog2 n' d' = floorLog2 n d :=
      floorLog2_eq hn' hd' (by rwa [← h]) (by rwa [← h])
    have hgrid : gridExponent n' d' = gridExponent n d := by rw [gridExponent, gridExponent, hexponent]
    rw [ofRatio_eq hn, ofRatio_eq hn', hgrid]
    congr 1
    apply roundDiv_congr (scaled_pos hd _ _) (scaled_pos hd' _ _)
    rw [scaled_div, scaled_div, h]

/-- The exponent of a canonical form is the one at which its value is rounded. -/
theorem max_log2_of_canonical {m : Nat} {e : Int} (hm : 0 < m) (h : Canonical m e) :
    max (-1074) ((m.log2 : Int) + e - 52) = e := by
  obtain ⟨hbound, hlow, -, hnormal⟩ := h
  have hshort : m.log2 < 53 := (Nat.log2_lt hm.ne').mpr hbound
  rcases hnormal with hhalf | rfl
  · have hlong : 52 ≤ m.log2 := (Nat.le_log2 hm.ne').mpr hhalf
    omega
  · omega

/-- **A value of the type is rounded to itself.** -/
theorem ofRatio_exact {m : Nat} {e : Int} (hm : 0 < m) (h : Canonical m e) {n d : Nat} (hd : 0 < d)
    (hvalue : (n : ℚ) / d = m * 2 ^ e) (negative : Bool) :
    ofRatio negative n d = .finite negative m e h := by
  have hdq : (0 : ℚ) < d := by exact_mod_cast hd
  have htwo : (0 : ℚ) < 2 ^ e := by positivity
  have hn : 0 < n := by
    have hpos : (0 : ℚ) < (n : ℚ) / d := by
      rw [hvalue]
      positivity
    rcases Nat.eq_zero_or_pos n with rfl | hn
    · simp at hpos
    · exact hn
  have hexponent : floorLog2 n d = (m.log2 : Int) + e := by
    apply floorLog2_eq hn hd
    · rw [hvalue, zpow_add₀ two_ne_zero, zpow_natCast]
      have hlow : 2 ^ m.log2 ≤ m := Nat.log2_self_le hm.ne'
      have hlow' : (2 : ℚ) ^ m.log2 ≤ m := by exact_mod_cast hlow
      gcongr
    · rw [hvalue, add_right_comm, zpow_add₀ two_ne_zero]
      have hhigh : m < 2 ^ (m.log2 + 1) := Nat.lt_log2_self
      have hhigh' : (m : ℚ) < 2 ^ ((m.log2 : Int) + 1) := by exact_mod_cast hhigh
      gcongr
  have hgrid : gridExponent n d = e := by
    rw [gridExponent, hexponent]
    exact max_log2_of_canonical hm h
  have hround : roundDiv (scaled n d e).1 (scaled n d e).2 = m := by
    rw [← roundDiv_one m]
    apply roundDiv_congr (scaled_pos hd n e) Nat.one_pos
    rw [scaled_div, hvalue, mul_div_assoc, div_self htwo.ne', Nat.cast_one, mul_one, div_one]
  rw [ofRatio_eq hn, hgrid, hround, ofScaled]
  have hne : m ≠ bound := h.1.ne
  simp only [hne, if_false]
  rw [dif_pos h]

/-- The sign of a value is the one that is given. -/
theorem ofScaled_sign {m m' : Nat} {e e' : Int} {h : Canonical m e}
    (hr : ofScaled false m' e' = .finite false m e h) (negative : Bool) :
    ofScaled negative m' e' = .finite negative m e h := by
  unfold ofScaled at hr ⊢
  generalize (if m' = bound then (half, e' + 1) else (m', e')) = p at hr ⊢
  dsimp only at hr ⊢
  by_cases hp : Canonical p.1 p.2
  · rw [dif_pos hp] at hr ⊢
    injection hr with _ hm he
    subst hm he
    rfl
  · rw [dif_neg hp] at hr
    exact absurd hr (by simp)

/-- The sign of a rounded fraction is the one that is given. -/
theorem ofRatio_sign {n d m : Nat} {e : Int} {h : Canonical m e}
    (hr : ofRatio false n d = .finite false m e h) (negative : Bool) :
    ofRatio negative n d = .finite negative m e h := by
  rcases Nat.eq_zero_or_pos n with rfl | hn
  · rw [ofRatio, if_pos rfl, zero] at hr ⊢
    injection hr with _ hm he
    subst hm he
    rfl
  · rw [ofRatio_eq hn] at hr ⊢
    exact ofScaled_sign hr negative

/-! ## Fractions beyond the values -/

/-- Beyond the greatest exponent there is no value. -/
theorem ofScaled_of_large {e : Int} (he : 971 < e) (m : Nat) (negative : Bool) :
    ofScaled negative m e = .infinite negative := by
  unfold ofScaled
  apply dif_neg
  rintro ⟨-, -, htop, -⟩
  -- neither the exponent nor the one after it is that of a value
  by_cases hm : m = bound
  · rw [if_pos hm] at htop
    dsimp only at htop
    omega
  · rw [if_neg hm] at htop
    dsimp only at htop
    omega

/-- A fraction that has more binary digits than any value is infinite. -/
theorem ofRatio_of_large {n d : Nat} (hd : 0 < d) (h : (2 : ℚ) ^ (1100 : Int) ≤ (n : ℚ) / d)
    (negative : Bool) : ofRatio negative n d = .infinite negative := by
  have hn : 0 < n := by
    rcases Nat.eq_zero_or_pos n with rfl | hn
    · rw [Nat.cast_zero, zero_div] at h
      exact absurd h (not_le.mpr (by positivity))
    · exact hn
  obtain ⟨-, hhigh⟩ := floorLog2_spec hn hd
  have hlog : 1100 < floorLog2 n d + 1 :=
    (zpow_lt_zpow_iff_right₀ (by norm_num : (1 : ℚ) < 2)).mp (h.trans_lt hhigh)
  have hgrid : 971 < gridExponent n d := by
    rw [gridExponent]
    omega
  rw [ofRatio_eq hn]
  exact ofScaled_of_large hgrid _ negative

/-- A fraction below half of the least value is zero. -/
theorem ofRatio_of_small {n d : Nat} (hd : 0 < d) (h : (n : ℚ) / d < 2 ^ (-1075 : Int))
    (negative : Bool) : ofRatio negative n d = zero negative := by
  rcases Nat.eq_zero_or_pos n with rfl | hn
  · rw [ofRatio, if_pos rfl]
  · obtain ⟨hlow, -⟩ := floorLog2_spec hn hd
    have hlog : floorLog2 n d < -1075 :=
      (zpow_lt_zpow_iff_right₀ (by norm_num : (1 : ℚ) < 2)).mp (hlow.trans_lt h)
    have hgrid : gridExponent n d = -1074 := by
      rw [gridExponent]
      omega
    have hround : roundDiv (scaled n d (-1074)).1 (scaled n d (-1074)).2 = 0 := by
      apply roundDiv_eq_zero
      have hpos : (0 : ℚ) < (scaled n d (-1074)).2 := by exact_mod_cast scaled_pos hd n (-1074)
      have hhalf : ((scaled n d (-1074)).1 : ℚ) / (scaled n d (-1074)).2 < 2⁻¹ := by
        rw [scaled_div, div_lt_iff₀ (by positivity)]
        calc (n : ℚ) / d < 2 ^ (-1075 : Int) := h
          _ = 2⁻¹ * 2 ^ (-1074 : Int) := by
            rw [← zpow_neg_one, ← zpow_add₀ two_ne_zero]
            congr 1
      rw [div_lt_iff₀ hpos] at hhalf
      have hdouble : (2 : ℚ) * (scaled n d (-1074)).1 < (scaled n d (-1074)).2 := by linarith
      exact_mod_cast hdouble
    rw [ofRatio_eq hn, hgrid, hround]
    rfl

/-! ## Decimals -/

/-- The numerator of `digits · 10^exponent`. -/
def decimalNumerator (digits : Nat) (exponent : Int) : Nat := digits * 10 ^ exponent.toNat

/-- The denominator of `digits · 10^exponent`. -/
def decimalDenominator (exponent : Int) : Nat := 10 ^ (-exponent).toNat

theorem decimalDenominator_pos (exponent : Int) : 0 < decimalDenominator exponent :=
  Nat.pow_pos (by decide)

theorem decimal_div (digits : Nat) (exponent : Int) :
    (decimalNumerator digits exponent : ℚ) / decimalDenominator exponent =
      digits * 10 ^ exponent := by
  unfold decimalNumerator decimalDenominator
  rw [Nat.cast_mul, Nat.cast_pow, Nat.cast_pow, Nat.cast_ofNat, mul_div_assoc, ← zpow_natCast,
    ← zpow_natCast, ← zpow_sub₀ (by norm_num)]
  congr 2
  omega

/-- Eight is at most ten, power by power. -/
theorem two_zpow_le_ten_zpow (k : Nat) : (2 : ℚ) ^ (3 * k : Int) ≤ 10 ^ (k : Int) := by
  rw [zpow_mul, zpow_natCast, zpow_natCast]
  gcongr
  norm_num

/-- **A decimal is rounded as the fraction that it is**, cut off or not. -/
theorem ofDecimal_eq_ofRatio (negative : Bool) (digits : Nat) (exponent : Int) :
    ofDecimal negative digits exponent =
      ofRatio negative (decimalNumerator digits exponent) (decimalDenominator exponent) := by
  have hden : 0 < decimalDenominator exponent := decimalDenominator_pos exponent
  unfold ofDecimal
  split
  · next h => rw [h, decimalNumerator, Nat.zero_mul, ofRatio, if_pos rfl]
  · next hdigits =>
    have hpos : 0 < digits := Nat.pos_of_ne_zero hdigits
    split
    · next hlarge =>
      -- at least ten to the power of four hundred
      symm
      apply ofRatio_of_large hden
      rw [decimal_div]
      have hone : (1 : ℚ) ≤ digits := by exact_mod_cast hpos
      calc (2 : ℚ) ^ (1100 : Int) ≤ 2 ^ (3 * (400 : Nat) : Int) := by
            apply zpow_le_zpow_right₀ (by norm_num)
            norm_num
        _ ≤ 10 ^ ((400 : Nat) : Int) := two_zpow_le_ten_zpow 400
        _ ≤ 10 ^ exponent := by
            apply zpow_le_zpow_right₀ (by norm_num)
            push_cast
            omega
        _ ≤ digits * 10 ^ exponent := le_mul_of_one_le_left (by positivity) hone
    · split
      · next hsmall =>
        -- the digits count for less than what the exponent is below four hundred
        symm
        apply ofRatio_of_small hden
        rw [decimal_div]
        have hhigh : digits < 2 ^ (digits.log2 + 1) := Nat.lt_log2_self
        have hhigh' : (digits : ℚ) < 2 ^ ((digits.log2 : Int) + 1) := by exact_mod_cast hhigh
        have hten : (10 : ℚ) ^ exponent ≤ 2 ^ (-(3 * (400 + digits.log2 : Nat)) : Int) := by
          calc (10 : ℚ) ^ exponent ≤ 10 ^ (-((400 + digits.log2 : Nat)) : Int) := by
                apply zpow_le_zpow_right₀ (by norm_num)
                push_cast
                omega
            _ ≤ 2 ^ (-(3 * (400 + digits.log2 : Nat)) : Int) := by
                rw [zpow_neg, zpow_neg]
                exact inv_anti₀ (by positivity) (two_zpow_le_ten_zpow _)
        calc (digits : ℚ) * 10 ^ exponent
            < 2 ^ ((digits.log2 : Int) + 1) * 10 ^ exponent := by gcongr
          _ ≤ 2 ^ ((digits.log2 : Int) + 1) * 2 ^ (-(3 * (400 + digits.log2 : Nat)) : Int) := by
              gcongr
          _ = 2 ^ ((digits.log2 : Int) + 1 + -(3 * (400 + digits.log2 : Nat))) := by
              rw [← zpow_add₀ two_ne_zero]
          _ ≤ 2 ^ (-1075 : Int) := by
              apply zpow_le_zpow_right₀ (by norm_num)
              push_cast
              omega
      · split
        · next hexponent =>
          have hzero : (-exponent).toNat = 0 := by omega
          rw [decimalNumerator, decimalDenominator, hzero]
          rfl
        · next hexponent =>
          have hzero : exponent.toNat = 0 := by omega
          rw [decimalNumerator, decimalDenominator, hzero, Nat.pow_zero, Nat.mul_one]
          rfl

/-- **A decimal is rounded by its value.** -/
theorem ofDecimal_congr {digits digits' : Nat} {exponent exponent' : Int}
    (h : (digits : ℚ) * 10 ^ exponent = digits' * 10 ^ exponent') (negative : Bool) :
    ofDecimal negative digits exponent = ofDecimal negative digits' exponent' := by
  rw [ofDecimal_eq_ofRatio, ofDecimal_eq_ofRatio]
  apply ofRatio_congr (decimalDenominator_pos exponent) (decimalDenominator_pos exponent')
  rw [decimal_div, decimal_div, h]

end Binary64
end Subgraph
