import Subgraph.Proofs.Text.Numeral
import Subgraph.Binary64.Shortest

/-!
# `Binary64.Length` — a value that is written without an exponent has a short text

The search for the shortest decimal of a value ends on a grid whose exponent is at least the least one of
the type (`exponent_shortest`), and a layout without an exponent is not longer than the digits down to
that place (`layout_long`). So a text of more than `longest` characters has an exponent (`length_text`).
-/

namespace Subgraph

/-! ## Layouts -/

namespace Decimal

/-- Removing zeros at the end of the digits makes the exponent greater. -/
theorem exponent_le_trimmedBy (fuel : Nat) (d : Decimal) :
    d.exponent ≤ (trimmedBy fuel d).exponent := by
  induction fuel generalizing d with
  | zero => exact le_refl _
  | succ fuel ih =>
    rw [trimmedBy]
    split
    · have hone : d.exponent + 1 ≤ (trimmedBy fuel ⟨d.digits / 10, d.exponent + 1⟩).exponent := ih _
      omega
    · exact le_refl _

theorem exponent_le_trimmed (d : Decimal) : d.exponent ≤ d.trimmed.exponent :=
  exponent_le_trimmedBy _ d

/-- **A layout has an exponent or ends where the digits end**, with at most sixteen digits in front of
the point and at most three zeros behind it. -/
theorem layout_long (d : Decimal) :
    'e' ∈ (d.layout plainStyle).toList ∨
      (d.layout plainStyle).toList.length ≤ 18 + (-d.exponent).toNat := by
  unfold layout
  dsimp only
  split
  · next hpositional =>
    simp only [plainStyle] at hpositional
    right
    split
    · simp only [zeros, String.toList_append, String.toList_ofList, List.length_append,
        List.length_replicate]
      have hpoint : "0.".toList.length = 2 := rfl
      omega
    · split
      · simp only [zeros, String.toList_append, String.toList_ofList, List.length_append,
          List.length_replicate]
        have hpoint : ".0".toList.length = 2 := rfl
        omega
      · simp only [String.toList_append, String.toList_ofList, List.length_append, List.length_take,
          List.length_drop]
        have hpoint : ".".toList.length = 1 := rfl
        omega
  · left
    have hmark : ∀ x, 'e' ∈ (exponentText plainStyle x).toList := by
      intro x
      unfold exponentText
      split <;> simp [String.toList_append]
    simp [String.toList_append, hmark]

end Decimal

namespace Binary64

variable {m n d : Nat} {e : Int}

/-! ## The search -/

/-- A candidate is on the grid that is searched. -/
theorem exponent_of_candidate? {i : Int} {c : Decimal} (h : candidate? m e n d i = some c) :
    c.exponent = i := by
  unfold candidate? at h
  dsimp only at h
  have hmem := List.mem_of_find?_eq_some h
  simp only [List.mem_cons, List.not_mem_nil, or_false] at hmem
  rcases hmem with rfl | rfl <;> simp only [apply_ite Decimal.exponent, ite_self]

/-- The search ends above every exponent that is below all its grids and that of the value. -/
theorem le_exponent_searchFrom {k : Int} (hk : k ≤ 0) (he : k ≤ e) {fuel : Nat} {i : Int}
    (hi : k + fuel ≤ i) : k ≤ (searchFrom m e n d fuel i).exponent := by
  induction fuel generalizing i with
  | zero =>
    unfold searchFrom
    split
    · exact hk
    · exact he
  | succ fuel ih =>
    unfold searchFrom
    cases hc : candidate? m e n d i with
    | none => exact ih (by omega)
    | some c =>
      have hexponent : c.exponent = i := exponent_of_candidate? hc
      show k ≤ c.exponent
      omega

/-- The binary exponent of a fraction is at least that of its denominator, but for the sign. -/
theorem le_floorLog2 (n d : Nat) : -(d.log2 : Int) - 1 ≤ floorLog2 n d := by
  unfold floorLog2
  dsimp only
  split <;> omega

/-- The shortest decimal of a value ends above the least exponent of the type. -/
theorem exponent_shortest (h : Canonical m e) : -1074 ≤ (shortest m e).exponent := by
  obtain ⟨-, hleast, -, -⟩ := h
  unfold shortest
  dsimp only
  refine le_trans ?_ (Decimal.exponent_le_trimmed _)
  apply le_exponent_searchFrom (by omega) hleast
  -- the denominator is at most the one of the least exponent
  have hdenominator : (if 0 ≤ e then 1 else Nat.pow 2 (-e).toNat).log2 ≤ 1074 := by
    split
    · decide
    · rw [Nat.pow_eq, Nat.log2_two_pow]
      omega
  have hlog := le_floorLog2 (if 0 ≤ e then m * Nat.pow 2 e.toNat else m)
    (if 0 ≤ e then 1 else Nat.pow 2 (-e).toNat)
  omega

/-! ## Texts -/

/-- How many characters the text of a value has at most, if there is no exponent in it. -/
def longest : Nat := 1093

/-- **The text of a value has an exponent or at most `longest` characters.** -/
theorem length_text (x : Binary64) : 'e' ∈ x.text.toList ∨ x.text.toList.length ≤ longest := by
  cases x with
  | nan => exact Or.inr (by decide)
  | infinite negative => cases negative <;> exact Or.inr (by decide)
  | finite negative m e h =>
    have hexponent := exponent_shortest h
    have hsign : (if negative then "-" else "").toList.length ≤ 1 := by cases negative <;> decide
    rw [text, String.toList_append, List.mem_append, List.length_append, longest]
    by_cases hm : m = 0
    · have hzero : "0.0".toList.length = 3 := rfl
      rw [if_pos hm]
      omega
    · rw [if_neg hm]
      rcases Decimal.layout_long (shortest m e) with hmark | hshort
      · exact Or.inl (Or.inr hmark)
      · omega

end Binary64

end Subgraph
