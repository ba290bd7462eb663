import Subgraph.Version.Basic

/-!
# `Version.Order` — versions are ordered as their components are

Comparing versions is comparing lists of natural numbers (`compareComponents_eq_compare`), so the order
is total (`Version.le_total`) and transitive (`Version.le_trans`). How a version is written has no part
in it: versions that compare as equal bound the same versions (`Version.le_congr_right`).
-/

namespace Subgraph

/-- The order of component sequences is the lexicographic order of lists. -/
theorem compareComponents_eq_compare (as bs : List Nat) :
    compareComponents as bs = compare as bs := by
  show compareComponents as bs = List.compareLex compare as bs
  induction as generalizing bs with
  | nil => cases bs <;> rfl
  | cons a as ih =>
    cases bs with
    | nil => rfl
    | cons b bs =>
      rw [compareComponents, ih bs, List.compareLex_cons_cons, Nat.compare_eq_ite_lt]
      -- the first components decide unless they are the same
      split
      · rfl
      · split <;> rfl

namespace Version

variable {u v w : Version}

theorem order_eq_compare (u v : Version) : u.order v = compare u.components v.components :=
  compareComponents_eq_compare u.components v.components

/-- What comes before comes after the other way round. -/
theorem order_swap (u v : Version) : v.order u = (u.order v).swap := by
  rw [order_eq_compare, order_eq_compare]
  exact Std.OrientedCmp.eq_swap

theorem order_trans (huv : u.order v = .lt) (hvw : v.order w = .lt) : u.order w = .lt := by
  rw [order_eq_compare] at huv hvw ⊢
  exact Std.TransCmp.lt_trans huv hvw

/-- A version is at most another iff it does not come after it. -/
theorem le_iff (u v : Version) : u.le v = true ↔ u.order v ≠ .gt := by
  simp [le]

/-- Versions are equal iff their components are, whatever they were written as. -/
theorem same_iff (u v : Version) : u.same v = true ↔ u.components = v.components := by
  simp [same]

/-- `v` is at most `w` iff its components come first or are the same. -/
theorem le_eq_isLE (v w : Version) : v.le w = (compare v.components w.components).isLE := by
  rw [le, order_eq_compare]
  cases compare v.components w.components <;> rfl

theorem le_trans (huv : u.le v = true) (hvw : v.le w = true) :
    u.le w = true := by
  rw [le_eq_isLE] at huv hvw ⊢
  exact Std.TransCmp.isLE_trans huv hvw

theorem le_total (v w : Version) : v.le w = true ∨ w.le v = true := by
  have hswap : compare v.components w.components = (compare w.components v.components).swap :=
    Std.OrientedCmp.eq_swap
  rw [le_eq_isLE, le_eq_isLE, hswap]
  cases compare w.components v.components with
  | lt => exact Or.inr rfl
  | eq => exact Or.inr rfl
  | gt => exact Or.inl rfl

/-- Versions compare as equal iff they have the same components. -/
theorem order_eq_iff : v.order w = .eq ↔ v.components = w.components :=
  compareComponents_eq_iff

/-- Versions that compare as equal are bounds of the same versions. -/
theorem le_congr_right {v v' : Version} (h : v.order v' = .eq) (u : Version) :
    u.le v = u.le v' := by
  rw [le_eq_isLE, le_eq_isLE, order_eq_iff.mp h]

/-- A version imports its directives iff its first component is at least 2. -/
theorem isFederation2_iff :
    v.isFederation2 = true ↔ ∃ major rest, v.components = major :: rest ∧ 2 ≤ major := by
  have hdecides : v.isFederation2 = (compareComponents [2] v.components != .gt) := rfl
  rw [hdecides]
  cases v.components with
  | nil => simp [compareComponents]
  | cons major rest =>
    rcases Nat.lt_trichotomy 2 major with hlt | heq | hgt
    · simp [compareComponents, hlt, Nat.le_of_lt hlt]
    · subst heq
      cases rest <;> simp [compareComponents]
    · simp [compareComponents, hgt, Nat.not_lt.mpr (Nat.le_of_lt hgt), Nat.not_le.mpr hgt]

/-- From version `2.0` on every later version imports its directives too. -/
theorem isFederation2_of_le (hv : v.isFederation2 = true) (h : v.le w = true) :
    w.isFederation2 = true :=
  le_trans hv h

end Version
end Subgraph
