import Mathlib.Tactic.Ring
import Subgraph.Binary64.Reader
import Subgraph.Binary64.Shortest
import Subgraph.Proofs.Binary64.Rounding
import Subgraph.Proofs.Text.Numeral

/-!
# `Binary64.Shortest` — layouts of decimals

A decimal is laid out in one of four ways, with the point before, behind or between its digits or with
an exponent. A `Spelling` is what these have in common: digits, a point with more digits, an exponent.

A spelling is read as the decimal that it writes (`ofDigits?_text`), and every layout is a spelling of a
decimal of the same value (`layout_spelled`); the digits differ, as zeros are filled in.

## Contents
- **Spellings.** `Spelling`, its `text`, and the `digits` and the `power` of ten that it writes.
- **Reading.** `ofDigits?_point`, `ofDigits?_whole`, `readExponent?_exponentText`, `ofDigits?_text`.
- **Characters.** `head?_text`, `mark_mem_text`, `mem_text`.
- **Layouts.** `Decimal.SpelledBy` with one lemma for each layout, `layout_spelled`.
-/

namespace Subgraph

open Text

/-! ## Spellings -/

/-- A decimal as it is written: digits, digits behind the point, and an exponent, of which the last two
may be missing, but not both. -/
structure Spelling where
  whole : List Char
  fraction : List Char
  exponent : Option Int
  whole_digits : Digits whole
  whole_ne_nil : whole ≠ []
  fraction_digits : Digits fraction
  marked : fraction ≠ [] ∨ exponent.isSome = true

namespace Spelling

/-- The point and the digits behind it. -/
def fractionText (s : Spelling) : List Char :=
  if s.fraction.isEmpty then [] else '.' :: s.fraction

/-- The exponent as it is written. -/
def exponentText (style : Decimal.Style) (s : Spelling) : List Char :=
  match s.exponent with
  | none => []
  | some x => (Decimal.exponentText style x).toList

def text (style : Decimal.Style) (s : Spelling) : List Char :=
  s.whole ++ (s.fractionText ++ s.exponentText style)

theorem fractionText_of_ne {s : Spelling} (h : s.fraction ≠ []) :
    s.fractionText = '.' :: s.fraction := by
  rw [fractionText, if_neg (by simpa using h)]

/-- Without an exponent the text ends with the digits behind the point. -/
theorem text_of_fraction (style : Decimal.Style) (s : Spelling) (h : s.fraction ≠ [])
    (hx : s.exponent = none) : s.text style = s.whole ++ '.' :: s.fraction := by
  rw [text, fractionText_of_ne h, exponentText, hx, List.append_nil]

/-- The digits of the decimal that is written. -/
def digits (s : Spelling) : Nat := Nat.ofDigitChars 10 (s.whole ++ s.fraction) 0

/-- The exponent of the decimal that is written. -/
def power (s : Spelling) : Int := s.exponent.getD 0 - s.fraction.length

end Spelling

/-! ## Reading a spelling -/

namespace Binary64

/-- Behind a point the digits go on. -/
theorem ofDigits?_point (negative : Bool) {cs : List Char} (h : Digits cs) (r : List Char) :
    ofDigits? negative (cs ++ '.' :: r) = (do
      let digits ← baseNumeral? 10 (cs ++ r.takeWhile isAsciiDigit)
      let exponent ← readExponent? (r.dropWhile isAsciiDigit)
      some (ofDecimal negative digits (exponent - (r.takeWhile isAsciiDigit).length))) := by
  have hpoint : ∀ c ∈ ('.' :: r).head?, isAsciiDigit c = false := forall_mem_head?_cons.mpr rfl
  unfold ofDigits?
  rw [takeWhile_run h hpoint, dropWhile_run h hpoint]
  rfl

/-- Without a point the exponent follows. -/
theorem ofDigits?_whole (negative : Bool) {cs r : List Char} (h : Digits cs)
    (hr : ∀ c ∈ r.head?, c = 'e') :
    ofDigits? negative (cs ++ r) = (do
      let digits ← baseNumeral? 10 cs
      let exponent ← readExponent? r
      some (ofDecimal negative digits exponent)) := by
  have hletter : ∀ c ∈ r.head?, isAsciiDigit c = false := by
    intro c hc
    rw [hr c hc]
    rfl
  unfold ofDigits?
  rw [takeWhile_run h hletter, dropWhile_run h hletter]
  cases r with
  | nil => simp
  | cons c r =>
    obtain rfl : c = 'e' := hr c rfl
    simp

end Binary64

namespace Decimal

/-- The digits of an exponent. -/
def exponentDigits (style : Style) (x : Int) : List Char :=
  List.replicate (style.exponentDigits - (toString x.natAbs).length) '0' ++
    (toString x.natAbs).toList

theorem exponentText_toList (style : Style) (x : Int) :
    (exponentText style x).toList =
      'e' :: (if x < 0 then '-' else '+') :: exponentDigits style x := by
  unfold exponentText exponentDigits zeros
  by_cases hx : x < 0
  · simp [hx, String.toList_append]
  · simp [hx, String.toList_append]

theorem exponentDigits_digits (style : Style) (x : Int) : Digits (exponentDigits style x) :=
  (Digits.zeros _).append (Digits.of_toString _)

/-- **An exponent is read as it is written.** -/
theorem readExponent?_exponentText (style : Style) (x : Int) :
    Binary64.readExponent? (exponentText style x).toList = some x := by
  have hne : exponentDigits style x ≠ [] := by
    intro h
    exact toString_ne_nil _ (List.append_eq_nil_iff.mp h).2
  have hread : baseNumeral? 10 (exponentDigits style x) = some x.natAbs := by
    rw [baseNumeral?_digits (exponentDigits_digits style x) hne, exponentDigits,
      ofDigitChars_zeros_append, ofDigitChars_toString]
  rw [exponentText_toList]
  by_cases hx : x < 0
  · have hneg : -|x| = x := by rw [abs_of_neg hx, neg_neg]
    simp [Binary64.readExponent?, splitSign, hx, hread, hneg]
  · have hpos : |x| = x := abs_of_nonneg (not_lt.mp hx)
    simp [Binary64.readExponent?, splitSign, hx, hread, hpos]

end Decimal

namespace Spelling

variable (style : Decimal.Style) (s : Spelling)

/-- The first character is a digit. -/
theorem head?_text : ∃ c r, s.text style = c :: r ∧ isAsciiDigit c = true := by
  obtain ⟨c, r, hcr⟩ := List.exists_cons_of_ne_nil s.whole_ne_nil
  have hc : isAsciiDigit c = true := s.whole_digits c (by simp [hcr])
  exact ⟨c, r ++ (s.fractionText ++ s.exponentText style), by rw [text, hcr, List.cons_append], hc⟩

/-- There is a point or an exponent. -/
theorem mark_mem_text : '.' ∈ s.text style ∨ 'e' ∈ s.text style := by
  rcases s.marked with hf | hx
  · left
    rw [text, fractionText_of_ne hf]
    simp
  · right
    obtain ⟨x, hx⟩ := Option.isSome_iff_exists.mp hx
    rw [text, exponentText, hx]
    dsimp only
    rw [Decimal.exponentText_toList]
    simp

/-- Besides digits there are a point, and the letter and the sign of the exponent. -/
theorem mem_text {c : Char} (hc : c ∈ s.text style) :
    isAsciiDigit c = true ∨ c = '.' ∨ c = 'e' ∨ c = '-' ∨ c = '+' := by
  rw [text, List.mem_append, List.mem_append] at hc
  rcases hc with hw | hf | hx
  · exact .inl (s.whole_digits c hw)
  · unfold fractionText at hf
    split at hf
    · exact absurd hf (by simp)
    · rcases List.mem_cons.mp hf with rfl | hf
      · exact .inr (.inl rfl)
      · exact .inl (s.fraction_digits c hf)
  · unfold exponentText at hx
    split at hx
    · exact absurd hx (by simp)
    · next x hsome =>
      rw [Decimal.exponentText_toList, List.mem_cons, List.mem_cons] at hx
      rcases hx with rfl | rfl | hx
      · exact .inr (.inr (.inl rfl))
      · split
        · exact .inr (.inr (.inr (.inl rfl)))
        · exact .inr (.inr (.inr (.inr rfl)))
      · exact .inl (Decimal.exponentDigits_digits style x c hx)

/-- An exponent does not start with a digit. -/
theorem head?_exponentText : ∀ c ∈ (s.exponentText style).head?, c = 'e' := by
  unfold exponentText
  cases s.exponent with
  | none => simp
  | some x =>
    dsimp only
    rw [Decimal.exponentText_toList]
    simp

theorem readExponent?_exponentText :
    Binary64.readExponent? (s.exponentText style) = some (s.exponent.getD 0) := by
  unfold exponentText
  cases s.exponent with
  | none => rfl
  | some x => exact Decimal.readExponent?_exponentText style x

/-- **A spelling is read as the decimal that it writes.** -/
theorem ofDigits?_text (negative : Bool) :
    Binary64.ofDigits? negative (s.text style) =
      some (Binary64.ofDecimal negative s.digits s.power) := by
  have hread : Binary64.readExponent? (s.exponentText style) = some (s.exponent.getD 0) :=
    readExponent?_exponentText style s
  have hne : s.whole ++ s.fraction ≠ [] := by
    intro h
    exact s.whole_ne_nil (List.append_eq_nil_iff.mp h).1
  have hdigits : baseNumeral? 10 (s.whole ++ s.fraction) = some s.digits :=
    baseNumeral?_digits (s.whole_digits.append s.fraction_digits) hne
  by_cases hf : s.fraction = []
  · have hnone : s.fractionText = [] := by simp [fractionText, hf]
    rw [hf, List.append_nil] at hdigits
    rw [text, hnone, List.nil_append,
      Binary64.ofDigits?_whole negative s.whole_digits (head?_exponentText style s), hdigits, hread]
    simp [power, hf]
  · have hexponent : ∀ c ∈ (s.exponentText style).head?, isAsciiDigit c = false := by
      intro c hc
      rw [head?_exponentText style s c hc]
      rfl
    rw [text, fractionText_of_ne hf, List.cons_append, Binary64.ofDigits?_point negative s.whole_digits,
      takeWhile_run s.fraction_digits hexponent, dropWhile_run s.fraction_digits hexponent,
      hdigits, hread]
    rfl

end Spelling

/-! ## Layouts are spellings -/

namespace Decimal

/-- A text spells a decimal if it is that of a spelling which writes the number of the decimal. -/
def SpelledBy (style : Style) (d : Decimal) (cs : List Char) : Prop :=
  ∃ s : Spelling, cs = s.text style ∧ (s.digits : ℚ) * 10 ^ s.power = d.digits * 10 ^ d.exponent

variable (style : Style) (d : Decimal)

/-- The decimal digits of a decimal. -/
def digitChars : List Char := (toString d.digits).toList

theorem digitChars_digits : Digits d.digitChars := Digits.of_toString d.digits

theorem length_digitChars_pos : 0 < d.digitChars.length :=
  List.length_pos_of_ne_nil (toString_ne_nil d.digits)

/-- Zeros between the point and the digits. -/
theorem spelledBy_small (zeros : Nat) (h : d.digitChars.length + d.exponent = -zeros) :
    d.SpelledBy style ('0' :: '.' :: (List.replicate zeros '0' ++ d.digitChars)) := by
  have hpos : 0 < d.digitChars.length := d.length_digitChars_pos
  have hne : List.replicate zeros '0' ++ d.digitChars ≠ [] := by
    apply List.ne_nil_of_length_pos
    rw [List.length_append]
    omega
  let s : Spelling :=
    { whole := ['0'], fraction := List.replicate zeros '0' ++ d.digitChars, exponent := none,
      whole_digits := Digits.zeros 1, whole_ne_nil := by simp,
      fraction_digits := (Digits.zeros zeros).append d.digitChars_digits, marked := .inl hne }
  have hdigits : s.digits = d.digits := by
    show Nat.ofDigitChars 10 (List.replicate 1 '0' ++ (List.replicate zeros '0' ++ d.digitChars)) 0 = _
    rw [ofDigitChars_zeros_append, ofDigitChars_zeros_append, digitChars, ofDigitChars_toString]
  have hpower : s.power = d.exponent := by
    show (0 : Int) - (List.replicate zeros '0' ++ d.digitChars).length = d.exponent
    rw [List.length_append, List.length_replicate]
    omega
  exact ⟨s, (s.text_of_fraction style hne rfl).symm, by rw [hdigits, hpower]⟩

/-- Zeros between the digits and the point. -/
theorem spelledBy_large (zeros : Nat) (h : d.exponent = zeros) :
    d.SpelledBy style (d.digitChars ++ List.replicate zeros '0' ++ ['.', '0']) := by
  let s : Spelling :=
    { whole := d.digitChars ++ List.replicate zeros '0', fraction := ['0'], exponent := none,
      whole_digits := d.digitChars_digits.append (Digits.zeros zeros),
      whole_ne_nil := by
        intro hnil
        exact toString_ne_nil d.digits (List.append_eq_nil_iff.mp hnil).1,
      fraction_digits := Digits.zeros 1, marked := .inl (by simp) }
  have hdigits : s.digits = 10 ^ (zeros + 1) * d.digits := by
    show Nat.ofDigitChars 10 (d.digitChars ++ List.replicate zeros '0' ++ List.replicate 1 '0') 0 = _
    rw [ofDigitChars_append_zeros, ofDigitChars_append_zeros, digitChars, ofDigitChars_toString]
    ring
  have hpower : s.power = -1 := rfl
  refine ⟨s, ?_, ?_⟩
  · rw [s.text_of_fraction style (by simp [s]) rfl]
  · rw [hdigits, hpower, h]
    push_cast
    rw [zpow_natCast, pow_succ]
    norm_num
    ring

/-- The point between the digits. -/
theorem spelledBy_split (before : Nat) (h : d.digitChars.length + d.exponent = before)
    (hpos : 0 < before) (hlt : before < d.digitChars.length) :
    d.SpelledBy style (d.digitChars.take before ++ '.' :: d.digitChars.drop before) := by
  have hne : d.digitChars.drop before ≠ [] := by
    apply List.ne_nil_of_length_pos
    rw [List.length_drop]
    omega
  let s : Spelling :=
    { whole := d.digitChars.take before, fraction := d.digitChars.drop before, exponent := none,
      whole_digits := d.digitChars_digits.subset (List.take_subset _ _),
      whole_ne_nil := by
        apply List.ne_nil_of_length_pos
        rw [List.length_take]
        omega,
      fraction_digits := d.digitChars_digits.subset (List.drop_subset _ _), marked := .inl hne }
  have hdigits : s.digits = d.digits := by
    show Nat.ofDigitChars 10 (d.digitChars.take before ++ d.digitChars.drop before) 0 = _
    rw [List.take_append_drop, digitChars, ofDigitChars_toString]
  have hpower : s.power = d.exponent := by
    show (0 : Int) - (d.digitChars.drop before).length = d.exponent
    rw [List.length_drop]
    omega
  exact ⟨s, (s.text_of_fraction style hne rfl).symm, by rw [hdigits, hpower]⟩

/-- One digit before the point, and an exponent. -/
theorem spelledBy_scientific {x : Int} (h : d.digitChars.length + d.exponent - 1 = x) :
    d.SpelledBy style
      (d.digitChars.take 1 ++
        ((if (d.digitChars.drop 1).isEmpty then [] else '.' :: d.digitChars.drop 1) ++
          (Decimal.exponentText style x).toList)) := by
  have hpos : 0 < d.digitChars.length := d.length_digitChars_pos
  let s : Spelling :=
    { whole := d.digitChars.take 1, fraction := d.digitChars.drop 1, exponent := some x,
      whole_digits := d.digitChars_digits.subset (List.take_subset _ _),
      whole_ne_nil := by
        apply List.ne_nil_of_length_pos
        rw [List.length_take]
        omega,
      fraction_digits := d.digitChars_digits.subset (List.drop_subset _ _), marked := .inr rfl }
  have hdigits : s.digits = d.digits := by
    show Nat.ofDigitChars 10 (d.digitChars.take 1 ++ d.digitChars.drop 1) 0 = _
    rw [List.take_append_drop, digitChars, ofDigitChars_toString]
  have hpower : s.power = d.exponent := by
    show x - (d.digitChars.drop 1).length = d.exponent
    rw [List.length_drop]
    omega
  exact ⟨s, rfl, by rw [hdigits, hpower]⟩

/-- **Every layout of a decimal spells it.** -/
theorem layout_spelled : d.SpelledBy style (d.layout style).toList := by
  have hlen : (toString d.digits).toList.length = d.digitChars.length := rfl
  have hpos : 0 < d.digitChars.length := d.length_digitChars_pos
  unfold layout
  dsimp only
  rw [hlen]
  split
  · split
    · have h := d.spelledBy_small style (-((d.digitChars.length : Int) + d.exponent)).toNat (by omega)
      simpa [zeros, String.toList_append, digitChars] using h
    · split
      · have h := d.spelledBy_large style
          ((d.digitChars.length : Int) + d.exponent - d.digitChars.length).toNat (by omega)
        simpa [zeros, String.toList_append, digitChars] using h
      · have h := d.spelledBy_split style ((d.digitChars.length : Int) + d.exponent).toNat (by omega)
          (by omega) (by omega)
        simpa [String.toList_append, digitChars] using h
  · have h := d.spelledBy_scientific style rfl
    -- the point is left out where there is no second digit
    by_cases hrest : ((toString d.digits).toList.drop 1).isEmpty = true
    · rw [digitChars, if_pos hrest] at h
      rw [if_pos hrest, String.toList_append, String.toList_append, String.toList_ofList,
        List.append_assoc]
      exact h
    · rw [digitChars, if_neg hrest] at h
      rw [if_neg hrest, String.toList_append, String.toList_append, String.toList_append,
        String.toList_ofList, String.toList_ofList, String.toList_ofList, List.append_assoc]
      exact h

end Decimal

end Subgraph
