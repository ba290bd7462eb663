import Subgraph.Proofs.Binary64.Text

/-!
# `Binary64.Plain` — which values are written without an exponent

A decimal is laid out without an exponent iff it lies between two powers of ten
(`Decimal.mark_mem_layout_iff`). What is laid out for a value is its shortest decimal, which is not the
value itself: the least value above one ten-thousandth is written `0.0001`, and the greatest below it
with more digits than it has. The decimal and the value lie on the same side of a power of ten all the
same (`shortest_lt_iff`), because rounding keeps the order (`ofDecimal_le`) and because the value next
above the power of ten is written as the power of ten.

So the values without an exponent are told by their size alone (`plain_iff`).

## Contents
- **Rounding.** `roundDiv_mono`, `gridExponent_mono`, `rounded_mono`, `ofRatio_le`, `ofDecimal_le`.
- **Neighbours.** `eq_of_between`: what lies above the predecessor of a value and not above the value.
- **Sizes.** `Decimal.lt_pow_iff`, `Decimal.mark_mem_layout_iff`, `shortest_lt_iff`.
- **Plain values.** `Plain`, `plain_iff`.
-/

namespace Subgraph

open Text

namespace Binary64

variable {n d n' d' m m' : Nat} {e e' : Int}

/-! ## Rounding keeps the order -/

/-- A rounded quotient is at most a half away from the quotient. -/
theorem roundDiv_bounds (hd : 0 < d) (n : Nat) :
    (roundDiv n d : ℚ) - 1 / 2 ≤ (n : ℚ) / d ∧ (n : ℚ) / d ≤ roundDiv n d + 1 / 2 := by
  have hdq : (0 : ℚ) < d := by exact_mod_cast hd
  have hdivide : d * (n / d) + n % d = n := Nat.div_add_mod n d
  have hrest : n % d < d := Nat.mod_lt n hd
  -- the same with the denominators cleared
  have hnat : 2 * (d * roundDiv n d) ≤ 2 * n + d ∧ 2 * n ≤ 2 * (d * roundDiv n d) + d := by
    unfold roundDiv
    split
    · omega
    · split
      · rw [Nat.mul_add]
        omega
      · split
        · omega
        · rw [Nat.mul_add]
          omega
  have hlow : (2 : ℚ) * (d * roundDiv n d) ≤ 2 * n + d := by exact_mod_cast hnat.1
  have hhigh : (2 : ℚ) * n ≤ 2 * (d * roundDiv n d) + d := by exact_mod_cast hnat.2
  constructor
  · rw [le_div_iff₀ hdq]
    linarith
  · rw [div_le_iff₀ hdq]
    linarith

/-- A greater quotient is not rounded to less. -/
theorem roundDiv_mono (hd : 0 < d) (hd' : 0 < d') (h : (n : ℚ) / d ≤ n' / d') :
    roundDiv n d ≤ roundDiv n' d' := by
  by_contra hless
  have hstep : (roundDiv n' d' : ℚ) + 1 ≤ roundDiv n d := by
    exact_mod_cast Nat.lt_of_not_le hless
  have hlow := (roundDiv_bounds hd n).1
  have hhigh := (roundDiv_bounds hd' n').2
  -- both quotients are the half between the two results
  have heq : (n : ℚ) / d = n' / d' := by linarith
  exact hless (roundDiv_congr hd hd' heq).le

/-- A fraction that is not below a natural number is not rounded to less. -/
theorem le_roundDiv (hd : 0 < d) {k : Nat} (h : (k : ℚ) ≤ (n : ℚ) / d) : k ≤ roundDiv n d := by
  calc k = roundDiv k 1 := (roundDiv_one k).symm
    _ ≤ roundDiv n d := roundDiv_mono Nat.one_pos hd (by simpa using h)

/-- A fraction that is not above a natural number is not rounded to more. -/
theorem roundDiv_le (hd : 0 < d) {k : Nat} (h : (n : ℚ) / d ≤ k) : roundDiv n d ≤ k := by
  calc roundDiv n d ≤ roundDiv k 1 := roundDiv_mono hd Nat.one_pos (by simpa using h)
    _ = k := roundDiv_one k

theorem gridExponent_mono (hn : 0 < n) (hd : 0 < d) (hn' : 0 < n') (hd' : 0 < d')
    (h : (n : ℚ) / d ≤ n' / d') : gridExponent n d ≤ gridExponent n' d' := by
  obtain ⟨hlow, -⟩ := floorLog2_spec hn hd
  obtain ⟨-, hhigh⟩ := floorLog2_spec hn' hd'
  have hlog : floorLog2 n d < floorLog2 n' d' + 1 :=
    (zpow_lt_zpow_iff_right₀ (by norm_num : (1 : ℚ) < 2)).mp ((hlow.trans h).trans_lt hhigh)
  unfold gridExponent
  omega

/-- One bit more is the next power of two. -/
theorem bound_mul (e : Int) : (bound : ℚ) * 2 ^ e = half * 2 ^ (e + 1) := by
  rw [zpow_add_one₀ two_ne_zero]
  norm_num
  ring

/-- The multiple of a power of two that a fraction is rounded to. -/
def rounded (n d : Nat) : ℚ :=
  roundDiv (scaled n d (gridExponent n d)).1 (scaled n d (gridExponent n d)).2 *
    2 ^ gridExponent n d

/-- A fraction is rounded to at most the power of two above it. -/
theorem rounded_le (hn : 0 < n) (hd : 0 < d) : rounded n d ≤ bound * 2 ^ gridExponent n d := by
  have hpos : (0 : ℚ) < 2 ^ gridExponent n d := by positivity
  have hround : roundDiv (scaled n d (gridExponent n d)).1 (scaled n d (gridExponent n d)).2 ≤
      bound := by
    apply roundDiv_le (scaled_pos hd _ _)
    rw [scaled_div, div_le_iff₀ hpos]
    calc (n : ℚ) / d ≤ 2 ^ (floorLog2 n d + 1) := (floorLog2_spec hn hd).2.le
      _ ≤ 2 ^ (53 + gridExponent n d) := by
        apply zpow_le_zpow_right₀ (by norm_num)
        unfold gridExponent
        omega
      _ = bound * 2 ^ gridExponent n d := by
        rw [zpow_add₀ two_ne_zero]
        norm_num
  unfold rounded
  have hroundq : (roundDiv (scaled n d (gridExponent n d)).1 (scaled n d (gridExponent n d)).2 : ℚ) ≤
      bound := by exact_mod_cast hround
  gcongr

/-- Above the least exponent a fraction is rounded to at least the power of two below it. -/
theorem le_rounded (hn : 0 < n) (hd : 0 < d) (hgrid : -1074 < gridExponent n d) :
    half * 2 ^ gridExponent n d ≤ rounded n d := by
  have hpos : (0 : ℚ) < 2 ^ gridExponent n d := by positivity
  have hround : half ≤
      roundDiv (scaled n d (gridExponent n d)).1 (scaled n d (gridExponent n d)).2 := by
    apply le_roundDiv (scaled_pos hd _ _)
    rw [scaled_div, le_div_iff₀ hpos]
    calc (half : ℚ) * 2 ^ gridExponent n d = 2 ^ (52 + gridExponent n d) := by
          rw [zpow_add₀ two_ne_zero]
          norm_num
      _ ≤ 2 ^ floorLog2 n d := by
        apply zpow_le_zpow_right₀ (by norm_num)
        unfold gridExponent at hgrid ⊢
        omega
      _ ≤ (n : ℚ) / d := (floorLog2_spec hn hd).1
  unfold rounded
  have hroundq : (half : ℚ) ≤
      roundDiv (scaled n d (gridExponent n d)).1 (scaled n d (gridExponent n d)).2 := by
    exact_mod_cast hround
  gcongr

/-- **Rounding to a multiple of a power of two keeps the order**, also where the power changes. -/
theorem rounded_mono (hn : 0 < n) (hd : 0 < d) (hn' : 0 < n') (hd' : 0 < d')
    (h : (n : ℚ) / d ≤ n' / d') : rounded n d ≤ rounded n' d' := by
  have hgrid := gridExponent_mono hn hd hn' hd' h
  by_cases hsame : gridExponent n d = gridExponent n' d'
  · have hround : roundDiv (scaled n d (gridExponent n' d')).1 (scaled n d (gridExponent n' d')).2 ≤
        roundDiv (scaled n' d' (gridExponent n' d')).1 (scaled n' d' (gridExponent n' d')).2 := by
      apply roundDiv_mono (scaled_pos hd _ _) (scaled_pos hd' _ _)
      rw [scaled_div, scaled_div]
      gcongr
    have hroundq : (roundDiv (scaled n d (gridExponent n' d')).1
        (scaled n d (gridExponent n' d')).2 : ℚ) ≤
          roundDiv (scaled n' d' (gridExponent n' d')).1 (scaled n' d' (gridExponent n' d')).2 := by
      exact_mod_cast hround
    unfold rounded
    rw [hsame]
    gcongr
  · -- a power of two lies between them
    have hleast : -1074 ≤ gridExponent n d := le_max_left _ _
    calc rounded n d ≤ bound * 2 ^ gridExponent n d := rounded_le hn hd
      _ = half * 2 ^ (gridExponent n d + 1) := bound_mul _
      _ ≤ half * 2 ^ gridExponent n' d' := by
        have hpow : (2 : ℚ) ^ (gridExponent n d + 1) ≤ 2 ^ gridExponent n' d' := by
          apply zpow_le_zpow_right₀ (by norm_num)
          omega
        gcongr
      _ ≤ rounded n' d' := le_rounded hn' hd' (by omega)

/-- A finite result is the multiple of a power of two that it is made of. -/
theorem value_of_ofScaled {r : Nat} {g : Int} {h : Canonical m e} {negative sign : Bool}
    (hr : ofScaled negative r g = .finite sign m e h) : (m : ℚ) * 2 ^ e = r * 2 ^ g := by
  have hparts : ((if r = bound then (half, g + 1) else (r, g) : Nat × Int)) = (m, e) := by
    unfold ofScaled at hr
    generalize (if r = bound then (half, g + 1) else (r, g) : Nat × Int) = parts at hr ⊢
    dsimp only at hr
    by_cases hcanonical : Canonical parts.1 parts.2
    · rw [dif_pos hcanonical] at hr
      injection hr with _ hm he
      exact Prod.ext hm he
    · rw [dif_neg hcanonical] at hr
      exact absurd hr (by simp)
  by_cases hbound : r = bound
  · -- the next binade
    rw [if_pos hbound] at hparts
    obtain ⟨rfl, rfl⟩ := Prod.mk.inj hparts
    rw [hbound, bound_mul]
  · rw [if_neg hbound] at hparts
    obtain ⟨rfl, rfl⟩ := Prod.mk.inj hparts
    rfl

/-- A finite result is the multiple of a power of two that the fraction is rounded to. -/
theorem value_of_ofRatio (hn : 0 < n) {h : Canonical m e} {negative sign : Bool}
    (hr : ofRatio negative n d = .finite sign m e h) : (m : ℚ) * 2 ^ e = rounded n d := by
  rw [ofRatio_eq hn] at hr
  exact value_of_ofScaled hr

/-- **Rounding a fraction keeps the order.** -/
theorem ofRatio_le {h : Canonical m e} {h' : Canonical m' e'} (hd : 0 < d) (hd' : 0 < d')
    (hr : ofRatio false n d = .finite false m e h) (hr' : ofRatio false n' d' = .finite false m' e' h')
    (hle : (n : ℚ) / d ≤ n' / d') : (m : ℚ) * 2 ^ e ≤ m' * 2 ^ e' := by
  rcases Nat.eq_zero_or_pos n with rfl | hn
  · rw [ofRatio, if_pos rfl] at hr
    injection hr with _ hm
    rw [← hm, Nat.cast_zero, zero_mul]
    positivity
  · have hn' : 0 < n' := by
      have hdq : (0 : ℚ) < d := by exact_mod_cast hd
      have hpos : (0 : ℚ) < (n' : ℚ) / d' := lt_of_lt_of_le (by positivity) hle
      rcases Nat.eq_zero_or_pos n' with rfl | hn'
      · simp at hpos
      · exact hn'
    rw [value_of_ofRatio hn hr, value_of_ofRatio hn' hr']
    exact rounded_mono hn hd hn' hd' hle

/-- **Rounding a decimal keeps the order.** -/
theorem ofDecimal_le {h : Canonical m e} {h' : Canonical m' e'} {c c' : Decimal}
    (hr : ofDecimal false c.digits c.exponent = .finite false m e h)
    (hr' : ofDecimal false c'.digits c'.exponent = .finite false m' e' h')
    (hle : (c.digits : ℚ) * 10 ^ c.exponent ≤ c'.digits * 10 ^ c'.exponent) :
    (m : ℚ) * 2 ^ e ≤ m' * 2 ^ e' := by
  rw [ofDecimal_eq_ofRatio] at hr hr'
  apply ofRatio_le (decimalDenominator_pos _) (decimalDenominator_pos _) hr hr'
  rwa [decimal_div, decimal_div]

/-! ## Neighbours -/

/-- Above the predecessor of a value and not above the value there is no other one. -/
theorem eq_of_between (h : Canonical m e) (h' : Canonical m' e') (hm' : half < m')
    (hlow : ((m' : ℚ) - 1) * 2 ^ e' < m * 2 ^ e) (hhigh : (m : ℚ) * 2 ^ e ≤ m' * 2 ^ e') :
    m = m' ∧ e = e' := by
  obtain ⟨hbound, -, -, hnormal⟩ := h
  obtain ⟨hbound', hleast', -, -⟩ := h'
  have hboundq : (m : ℚ) < bound := by exact_mod_cast hbound
  have hboundq' : (m' : ℚ) < bound := by exact_mod_cast hbound'
  have hhalfq' : (half : ℚ) + 1 ≤ m' := by exact_mod_cast hm'
  rcases lt_trichotomy e e' with hlt | rfl | hgt
  · -- below: the greatest number of bits with the smaller exponent is not enough
    exfalso
    have hpow : (2 : ℚ) ^ (e + 1) ≤ 2 ^ e' := zpow_le_zpow_right₀ (by norm_num) (by omega)
    have hless : (m : ℚ) * 2 ^ e < (m' - 1) * 2 ^ e' := by
      calc (m : ℚ) * 2 ^ e < bound * 2 ^ e := by gcongr
        _ = half * 2 ^ (e + 1) := bound_mul e
        _ ≤ half * 2 ^ e' := by gcongr
        _ ≤ (m' - 1) * 2 ^ e' := by
          gcongr
          linarith
    linarith
  · have hpos : (0 : ℚ) < 2 ^ e := by positivity
    have hle : (m : ℚ) ≤ m' := le_of_mul_le_mul_right hhigh hpos
    have hge : (m' : ℚ) < m + 1 := by
      have := lt_of_mul_lt_mul_right hlow hpos.le
      linarith
    refine ⟨?_, rfl⟩
    have hle' : m ≤ m' := by exact_mod_cast hle
    have hge' : m' < m + 1 := by exact_mod_cast hge
    omega
  · -- above: a value with the greater exponent has all its bits
    exfalso
    have hfull : half ≤ m := by
      rcases hnormal with hhalf | he
      · exact hhalf
      · omega
    have hfullq : (half : ℚ) ≤ m := by exact_mod_cast hfull
    have hpow : (2 : ℚ) ^ (e' + 1) ≤ 2 ^ e := zpow_le_zpow_right₀ (by norm_num) (by omega)
    have hmore : (m' : ℚ) * 2 ^ e' < m * 2 ^ e := by
      calc (m' : ℚ) * 2 ^ e' < bound * 2 ^ e' := by gcongr
        _ = half * 2 ^ (e' + 1) := bound_mul e'
        _ ≤ half * 2 ^ e := by gcongr
        _ ≤ m * 2 ^ e := by gcongr
    linarith

end Binary64

/-! ## Layouts without an exponent -/

namespace Decimal

variable {d : Decimal}

/-- A positive decimal is below a power of ten iff its digits end before that place. -/
theorem lt_pow_iff (hd : 0 < d.digits) (k : Int) :
    (d.digits : ℚ) * 10 ^ d.exponent < 10 ^ k ↔ d.digitChars.length + d.exponent ≤ k := by
  have hten : (0 : ℚ) < 10 ^ d.exponent := by positivity
  have hlength : 0 < d.digitChars.length := d.length_digitChars_pos
  have hscaled : (d.digits : ℚ) * 10 ^ d.exponent < 10 ^ k ↔ (d.digits : ℚ) < 10 ^ (k - d.exponent) := by
    rw [zpow_sub₀ (by norm_num), lt_div_iff₀ hten]
  rw [hscaled]
  by_cases hk : 0 < k - d.exponent
  · obtain ⟨j, hj⟩ := Int.eq_ofNat_of_zero_le hk.le
    have hchars : d.digitChars = Nat.toDigits 10 d.digits := by
      rw [digitChars, Nat.toString_eq_repr, Nat.toList_repr]
    have hiff : d.digitChars.length ≤ j ↔ d.digits < 10 ^ j := by
      rw [hchars]
      exact Nat.length_toDigits_le_iff (by decide) (by omega)
    rw [hj, zpow_natCast]
    constructor
    · intro hless
      have hle : d.digitChars.length ≤ j := hiff.mpr (by exact_mod_cast hless)
      omega
    · intro hle
      have hless : d.digits < 10 ^ j := hiff.mp (by omega)
      exact_mod_cast hless
  · -- a positive number has a digit in front of the place
    constructor
    · intro hless
      have hone : (1 : ℚ) ≤ d.digits := by exact_mod_cast hd
      have hpow : (10 : ℚ) ^ (k - d.exponent) ≤ 1 := zpow_le_one_of_nonpos₀ (by norm_num) (by omega)
      linarith
    · intro hle
      omega

/-- Runs of digits hold no letter. -/
theorem letter_not_mem {cs : List Char} (h : Digits cs) : 'e' ∉ cs :=
  fun hmem => absurd (h 'e' hmem) (by decide)

/-- Which layout a decimal has depends on where its first digit stands. -/
theorem mark_mem_layout_iff_point (style : Style) :
    'e' ∈ (d.layout style).toList ↔
      ¬ (style.leastPositional ≤ (d.digitChars.length : Int) + d.exponent - 1 ∧
        (d.digitChars.length : Int) + d.exponent - 1 < style.pastPositional) := by
  have hlen : (toString d.digits).toList = d.digitChars := rfl
  have hdigits : 'e' ∉ d.digitChars := letter_not_mem d.digitChars_digits
  have hzeros : ∀ k, 'e' ∉ List.replicate k '0' := fun k => letter_not_mem (Digits.zeros k)
  have hfront : ∀ k, 'e' ∉ d.digitChars.take k := fun k hmem => hdigits (List.mem_of_mem_take hmem)
  have hback : ∀ k, 'e' ∉ d.digitChars.drop k := fun k hmem => hdigits (List.mem_of_mem_drop hmem)
  unfold layout
  dsimp only
  rw [hlen]
  by_cases hpositional : style.leastPositional ≤ (d.digitChars.length : Int) + d.exponent - 1 ∧
      (d.digitChars.length : Int) + d.exponent - 1 < style.pastPositional
  · -- zeros, digits and a point, in whatever order
    rw [if_pos hpositional]
    refine iff_of_false ?_ (not_not.mpr hpositional)
    split
    · simp [zeros, String.toList_append, hdigits, hzeros]
    · split
      · simp [zeros, String.toList_append, hdigits, hzeros]
      · simp [String.toList_append, hfront, hback]
  · rw [if_neg hpositional]
    refine iff_of_true ?_ hpositional
    rw [String.toList_append, exponentText_toList]
    exact List.mem_append_right _ List.mem_cons_self

/-- **The layout of a decimal has an exponent iff the decimal is too small or too large.** -/
theorem mark_mem_layout_iff (hd : 0 < d.digits) :
    'e' ∈ (d.layout plainStyle).toList ↔
      ¬ ((10 : ℚ) ^ (-4 : Int) ≤ d.digits * 10 ^ d.exponent ∧
        (d.digits : ℚ) * 10 ^ d.exponent < 10 ^ (16 : Int)) := by
  have hlow : (10 : ℚ) ^ (-4 : Int) ≤ d.digits * 10 ^ d.exponent ↔
      ¬ (d.digitChars.length : Int) + d.exponent ≤ -4 := by
    rw [← not_lt, lt_pow_iff hd]
  rw [mark_mem_layout_iff_point, hlow, lt_pow_iff hd]
  simp only [plainStyle]
  omega

end Decimal

namespace Binary64

variable {m m₀ : Nat} {e e₀ : Int} {x : Binary64}

/-- The shortest decimal of a positive value is positive. -/
theorem shortest_pos (hm : 0 < m) (h : Canonical m e) : 0 < (shortest m e).digits := by
  by_contra hzero
  have hread := ofDecimal_shortest hm h false
  rw [ofDecimal, if_pos (by omega)] at hread
  injection hread with _ hm'
  omega

/-- **A value and its shortest decimal lie on the same side of a decimal `t`**, if the value next to `t`
from above is written as `t`. -/
theorem shortest_lt_iff {t : Decimal} (h₀ : Canonical m₀ e₀) (hhalf : half < m₀)
    (ht : shortest m₀ e₀ = t) (hbelow : ((m₀ : ℚ) - 1) * 2 ^ e₀ < t.digits * 10 ^ t.exponent)
    (habove : (t.digits : ℚ) * 10 ^ t.exponent ≤ m₀ * 2 ^ e₀) (hm : 0 < m) (h : Canonical m e) :
    ((shortest m e).digits : ℚ) * 10 ^ (shortest m e).exponent < t.digits * 10 ^ t.exponent ↔
      (m : ℚ) * 2 ^ e < t.digits * 10 ^ t.exponent := by
  have hm₀ : 0 < m₀ := by omega
  have hread := ofDecimal_shortest hm h false
  have hread₀ := ofDecimal_shortest hm₀ h₀ false
  rw [ht] at hread₀
  constructor
  · intro hless
    by_contra hnot
    -- the value is then the one next to `t`, which is written as `t`
    have hhigh := ofDecimal_le hread hread₀ hless.le
    obtain ⟨rfl, rfl⟩ := eq_of_between h h₀ hhalf (hbelow.trans_le (not_lt.mp hnot)) hhigh
    rw [ht] at hless
    exact lt_irrefl _ hless
  · intro hless
    by_contra hnot
    have hhigh := ofDecimal_le hread₀ hread (not_lt.mp hnot)
    linarith

/-- One ten-thousandth divides the values as it divides their shortest decimals. -/
theorem shortest_lt_least (hm : 0 < m) (h : Canonical m e) :
    ((shortest m e).digits : ℚ) * 10 ^ (shortest m e).exponent < 10 ^ (-4 : Int) ↔
      (m : ℚ) * 2 ^ e < 10 ^ (-4 : Int) := by
  have hnext : Canonical 7378697629483821 (-66) := by decide
  have hshown : shortest 7378697629483821 (-66) = ⟨1, -4⟩ := by decide +kernel
  have hiff := shortest_lt_iff hnext (by decide) hshown (by norm_num) (by norm_num) hm h
  simpa using hiff

/-- So does ten quadrillion. -/
theorem shortest_lt_past (hm : 0 < m) (h : Canonical m e) :
    ((shortest m e).digits : ℚ) * 10 ^ (shortest m e).exponent < 10 ^ (16 : Int) ↔
      (m : ℚ) * 2 ^ e < 10 ^ (16 : Int) := by
  have hnext : Canonical 5000000000000000 1 := by decide
  have hshown : shortest 5000000000000000 1 = ⟨1, 16⟩ := by decide +kernel
  have hiff := shortest_lt_iff hnext (by decide) hshown (by norm_num) (by norm_num) hm h
  simpa using hiff

/-! ## Plain values -/

/-- The values that are written without a sign and without an exponent: the zero without a sign, and the
positive values from one ten-thousandth on that are below ten quadrillion. -/
inductive Plain : Binary64 → Prop where
  | zero : Plain (zero false)
  | between {m : Nat} {e : Int} {h : Canonical m e} (hlow : (10 : ℚ) ^ (-4 : Int) ≤ m * 2 ^ e)
    (hhigh : (m : ℚ) * 2 ^ e < 10 ^ (16 : Int)) : Plain (.finite false m e h)

/-- **A value without a sign is plain iff its text has no exponent.** -/
theorem plain_iff (h : Canonical m e) :
    Plain (.finite false m e h) ↔ 'e' ∉ (Binary64.finite false m e h).text.toList := by
  rw [text_finite]
  show _ ↔ 'e' ∉ (unsignedText m e).toList
  unfold unsignedText
  rcases Nat.eq_zero_or_pos m with rfl | hm
  · obtain rfl := exponent_of_zero h
    exact iff_of_true Plain.zero (by decide)
  · rw [if_neg hm.ne', Decimal.mark_mem_layout_iff (shortest_pos hm h), not_not, ← not_lt,
      shortest_lt_least hm h, shortest_lt_past hm h, not_lt]
    constructor
    · intro hplain
      cases hplain with
      | zero => exact absurd hm (by decide)
      | between hlow hhigh => exact ⟨hlow, hhigh⟩
    · rintro ⟨hlow, hhigh⟩
      exact .between hlow hhigh

end Binary64

end Subgraph
