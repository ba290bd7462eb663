import Subgraph.Proofs.Binary64.Spelling

/-!
# `Binary64.Shortest` — the text of a finite value reads back as it

The text of a finite value is a sign, if there is one, and a layout of a decimal. The decimal reads back
(`ofDecimal_shortest`): a candidate of the search does so by the choice of it, and where the search runs
out the exact value does. So the text determines the value (`text_injective`). It has a point or an
exponent, which the text of an integer has not (`text_ne_toString`).
-/

namespace Subgraph

open Text

/-! ## The decimal that is laid out -/

namespace Decimal

/-- Zeros at the end of the digits are moved to the exponent. -/
theorem trimmedBy_value (fuel : Nat) (d : Decimal) :
    ((trimmedBy fuel d).digits : ℚ) * 10 ^ (trimmedBy fuel d).exponent =
      d.digits * 10 ^ d.exponent := by
  induction fuel generalizing d with
  | zero => rfl
  | succ fuel ih =>
    rw [trimmedBy]
    split
    · next h =>
      have hten : 10 * (d.digits / 10) = d.digits := by omega
      rw [ih]
      calc ((d.digits / 10 : Nat) : ℚ) * 10 ^ (d.exponent + 1)
          = ((10 * (d.digits / 10) : Nat) : ℚ) * 10 ^ d.exponent := by
            rw [zpow_add_one₀ (by norm_num)]
            push_cast
            ring
        _ = d.digits * 10 ^ d.exponent := by rw [hten]
    · rfl

theorem trimmed_value (d : Decimal) :
    (d.trimmed.digits : ℚ) * 10 ^ d.trimmed.exponent = d.digits * 10 ^ d.exponent :=
  trimmedBy_value _ d

end Decimal

namespace Binary64

variable {m : Nat} {e : Int}

/-- The test of a candidate is that it is rounded to the value. -/
theorem ofDecimal_of_readsBack (h : Canonical m e) {d : Decimal} (hr : readsBack m e d = true) :
    ofDecimal false d.digits d.exponent = .finite false m e h := by
  unfold readsBack at hr
  split at hr
  · next m' e' h' heq =>
    rw [Bool.and_eq_true, beq_iff_eq, beq_iff_eq] at hr
    obtain ⟨rfl, rfl⟩ := hr
    exact heq
  · exact absurd hr (by simp)

/-- The exact decimal of a value is rounded to it. -/
theorem ofDecimal_exact (hm : 0 < m) (h : Canonical m e) {digits : Nat} {exponent : Int}
    (hvalue : (digits : ℚ) * 10 ^ exponent = m * 2 ^ e) (negative : Bool) :
    ofDecimal negative digits exponent = .finite negative m e h := by
  rw [ofDecimal_eq_ofRatio]
  exact ofRatio_exact hm h (decimalDenominator_pos exponent)
    ((decimal_div digits exponent).trans hvalue) negative

/-- **What the search finds is rounded to the value**, on whichever grid it is found. -/
theorem ofDecimal_searchFrom (hm : 0 < m) (h : Canonical m e) (n d fuel : Nat) (i : Int) :
    ofDecimal false (searchFrom m e n d fuel i).digits (searchFrom m e n d fuel i).exponent =
      .finite false m e h := by
  induction fuel generalizing i with
  | zero =>
    -- no grid is left: the exact value
    unfold searchFrom
    apply ofDecimal_exact hm h
    split
    · next he =>
      show ((m * 2 ^ e.toNat : Nat) : ℚ) * 10 ^ (0 : Int) = m * 2 ^ e
      have hnat : (e.toNat : Int) = e := Int.toNat_of_nonneg he
      rw [← hnat, zpow_natCast, zpow_zero, mul_one, Int.toNat_natCast]
      push_cast
      rfl
    · next he =>
      show ((m * 5 ^ (-e).toNat : Nat) : ℚ) * 10 ^ e = m * 2 ^ e
      have hnat : ((-e).toNat : Int) = -e := Int.toNat_of_nonneg (by omega)
      have hfive : ((5 ^ (-e).toNat : Nat) : ℚ) = 5 ^ (-e) := by
        rw [← hnat, zpow_natCast]
        push_cast
        rfl
      have hten : (10 : ℚ) ^ e = 2 ^ e * 5 ^ e := by
        rw [← mul_zpow]
        norm_num
      rw [Nat.cast_mul, hfive, hten, zpow_neg]
      field_simp
  | succ fuel ih =>
    unfold searchFrom
    cases hc : candidate? m e n d i with
    | none => exact ih (i - 1)
    | some c => exact ofDecimal_of_readsBack h (readsBack_of_candidate? hc)

/-- The sign of a rounded decimal is the one that is given. -/
theorem ofDecimal_sign {digits : Nat} {exponent : Int} {h : Canonical m e}
    (hr : ofDecimal false digits exponent = .finite false m e h) (negative : Bool) :
    ofDecimal negative digits exponent = .finite negative m e h := by
  rw [ofDecimal_eq_ofRatio] at hr ⊢
  exact ofRatio_sign hr negative

/-- **The shortest decimal of a value reads back as it.** -/
theorem ofDecimal_shortest (hm : 0 < m) (h : Canonical m e) (negative : Bool) :
    ofDecimal negative (shortest m e).digits (shortest m e).exponent = .finite negative m e h := by
  apply ofDecimal_sign
  unfold shortest
  rw [ofDecimal_congr (Decimal.trimmed_value _)]
  exact ofDecimal_searchFrom hm h _ _ _ _

/-! ## Texts of finite values -/

/-- The text of a value without its sign. -/
def unsignedText (m : Nat) (e : Int) : String :=
  if m = 0 then "0.0" else (shortest m e).layout Decimal.plainStyle

theorem text_finite (negative : Bool) (h : Canonical m e) :
    (Binary64.finite negative m e h).text.toList =
      (if negative then ['-'] else []) ++ (unsignedText m e).toList := by
  rw [text, String.toList_append]
  cases negative <;> rfl

/-- A zero has the least exponent. -/
theorem exponent_of_zero (h : Canonical 0 e) : e = -1074 := by
  obtain ⟨-, -, -, hnormal⟩ := h
  rcases hnormal with hhalf | he
  · exact absurd hhalf (by decide)
  · exact he

/-- **The text of a value without its sign is a spelling that reads back as the value.** -/
theorem exists_spelling (h : Canonical m e) :
    ∃ s : Spelling, (unsignedText m e).toList = s.text Decimal.plainStyle ∧
      ∀ negative, ofDecimal negative s.digits s.power = .finite negative m e h := by
  by_cases hm : m = 0
  · -- a zero is written as no tenths
    subst hm
    obtain rfl := exponent_of_zero h
    obtain ⟨s, htext, hvalue⟩ :=
      Decimal.spelledBy_small Decimal.plainStyle ⟨0, -1⟩ 0 rfl
    refine ⟨s, htext, ?_⟩
    intro negative
    rw [ofDecimal_congr hvalue]
    rfl
  · obtain ⟨s, htext, hvalue⟩ := (shortest m e).layout_spelled Decimal.plainStyle
    refine ⟨s, ?_, ?_⟩
    · rw [unsignedText, if_neg hm]
      exact htext
    · intro negative
      rw [ofDecimal_congr hvalue]
      exact ofDecimal_shortest (Nat.pos_of_ne_zero hm) h negative

variable {x y : Binary64}

/-- **The text of a finite value is a sign and a spelling that reads back as the value.** -/
theorem exists_text (hx : x.isFinite = true) :
    ∃ negative, ∃ s : Spelling,
      x.text.toList = (if negative then ['-'] else []) ++ s.text Decimal.plainStyle ∧
        ofDigits? negative (s.text Decimal.plainStyle) = some x := by
  cases x with
  | nan => exact absurd hx (by simp [isFinite])
  | infinite => exact absurd hx (by simp [isFinite])
  | finite negative m e h =>
    obtain ⟨s, hs, hread⟩ := exists_spelling h
    refine ⟨negative, s, ?_, ?_⟩
    · rw [text_finite, hs]
    · rw [s.ofDigits?_text, hread]

/-- **The text of a finite value determines it**: value, sign, and the sign of a zero. -/
theorem text_injective (hx : x.isFinite = true) (hy : y.isFinite = true) (h : x.text = y.text) :
    x = y := by
  obtain ⟨negative, s, htext, hread⟩ := exists_text hx
  obtain ⟨negative', s', htext', hread'⟩ := exists_text hy
  have heq := congrArg String.toList h
  rw [htext, htext'] at heq
  obtain ⟨c, r, hcr, hdigit⟩ := s.head?_text Decimal.plainStyle
  obtain ⟨c', r', hcr', hdigit'⟩ := s'.head?_text Decimal.plainStyle
  -- a sign stands where otherwise a digit stands
  have hsign : negative = negative' := by
    cases negative with
    | false =>
      cases negative' with
      | false => rfl
      | true =>
        rw [hcr] at heq
        obtain ⟨rfl, -⟩ := List.cons.inj heq
        exact absurd hdigit (by decide)
    | true =>
      cases negative' with
      | true => rfl
      | false =>
        rw [hcr'] at heq
        obtain ⟨rfl, -⟩ := List.cons.inj heq
        exact absurd hdigit' (by decide)
  subst hsign
  have hunsigned := List.append_cancel_left heq
  rw [hunsigned, hread'] at hread
  exact (Option.some.inj hread).symm

/-- The text of a finite value is made of digits, a point, and the letter and the signs of exponents. -/
theorem mem_text (hx : x.isFinite = true) {c : Char} (hc : c ∈ x.text.toList) :
    isAsciiDigit c = true ∨ c = '.' ∨ c = 'e' ∨ c = '-' ∨ c = '+' := by
  obtain ⟨negative, s, htext, -⟩ := exists_text hx
  rw [htext, List.mem_append] at hc
  rcases hc with hsign | hc
  · cases negative with
    | false => exact absurd hsign (by simp)
    | true => exact .inr (.inr (.inr (.inl (List.mem_singleton.mp hsign))))
  · exact s.mem_text Decimal.plainStyle hc

theorem text_ne_nil (hx : x.isFinite = true) : x.text.toList ≠ [] := by
  obtain ⟨negative, s, htext, -⟩ := exists_text hx
  obtain ⟨c, r, hcr, -⟩ := s.head?_text Decimal.plainStyle
  rw [htext, hcr]
  simp

/-- **The text of a finite value is never that of an integer.** -/
theorem text_ne_toString (hx : x.isFinite = true) (n : Int) : x.text ≠ toString n := by
  intro h
  obtain ⟨negative, s, htext, -⟩ := exists_text hx
  rw [h] at htext
  -- a point or the letter of an exponent
  rcases s.mark_mem_text Decimal.plainStyle with hmark | hmark
  · have hmem : '.' ∈ (toString n).toList := htext ▸ List.mem_append_right _ hmark
    exact absurd (mem_toString_int hmem) (by decide)
  · have hmem : 'e' ∈ (toString n).toList := htext ▸ List.mem_append_right _ hmark
    exact absurd (mem_toString_int hmem) (by decide)

end Binary64

end Subgraph
