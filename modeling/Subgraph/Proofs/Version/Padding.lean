import Subgraph.Proofs.Version.Order
import Subgraph.Proofs.Version.Reading

/-!
# `Version.Padding` — versions are ordered as they are written, missing components being zero

The order of versions is that of their components, in which a proper initial part comes first. What is
meant is another order: the shorter sequence is filled up with zeros, and the first difference decides
(`comparePadded`). The two differ on sequences with zeros at the end, `2` and `2.0` for instance, and
there are none among the components of a version that has been read: reading drops them
(`getLast?_dropTrailingZeros`). On what is left the two agree (`compareComponents_dropTrailingZeros`), by
one induction over both sequences in which a zero is dropped only if nothing but zeros follows it.

So versions that have been read compare as their written components do, whatever zeros stand at the front
and at the end of these (`parsed_versions_ordered`).
-/

namespace Subgraph

open Text

/-! ## Zeros at the end -/

/-- A component is dropped iff it is zero and everything behind it is dropped. -/
theorem dropTrailingZeros_cons (a : Nat) (as : List Nat) :
    dropTrailingZeros (a :: as) =
      if dropTrailingZeros as = [] ∧ a = 0 then [] else a :: dropTrailingZeros as := by
  unfold dropTrailingZeros
  rw [List.reverse_cons, List.dropWhile_append]
  by_cases has : as.reverse.dropWhile (· == 0) = []
  · by_cases ha : a = 0
    · simp [has, ha]
    · simp [has, ha]
  · simp [has]

/-- **No zero is left at the end.** -/
theorem getLast?_dropTrailingZeros (as : List Nat) : (dropTrailingZeros as).getLast? ≠ some 0 := by
  induction as with
  | nil => simp [dropTrailingZeros]
  | cons a as ih =>
    rw [dropTrailingZeros_cons]
    split
    · simp
    · next hkept =>
      cases hrest : dropTrailingZeros as with
      | nil =>
        have ha : a ≠ 0 := fun ha => hkept ⟨hrest, ha⟩
        simpa using ha
      | cons b bs =>
        rw [hrest] at ih
        rw [List.getLast?_cons_cons]
        exact ih

/-- Nothing but zeros is dropped. -/
theorem exists_zeros (as : List Nat) : ∃ k, as = dropTrailingZeros as ++ List.replicate k 0 := by
  induction as with
  | nil => exact ⟨0, rfl⟩
  | cons a as ih =>
    obtain ⟨k, hk⟩ := ih
    rw [dropTrailingZeros_cons]
    split
    · next hdropped =>
      obtain ⟨hrest, rfl⟩ := hdropped
      refine ⟨k + 1, ?_⟩
      rw [hrest, List.nil_append] at hk
      rw [List.nil_append, List.replicate_succ, ← hk]
    · exact ⟨k, by rw [List.cons_append, ← hk]⟩

/-- **Zeros at the end have no part in the first difference.** A component in front is dropped only if it is
zero and nothing is kept behind it; the other sequence then comes later as soon as it keeps something. -/
theorem compareComponents_cons (a b : Nat) (as bs : List Nat) :
    compareComponents (dropTrailingZeros (a :: as)) (dropTrailingZeros (b :: bs)) =
      if a < b then .lt else if b < a then .gt
      else compareComponents (dropTrailingZeros as) (dropTrailingZeros bs) := by
  rw [dropTrailingZeros_cons, dropTrailingZeros_cons]
  by_cases ha : dropTrailingZeros as = [] ∧ a = 0
  · obtain ⟨has, rfl⟩ := ha
    by_cases hb : dropTrailingZeros bs = [] ∧ b = 0
    · obtain ⟨hbs, rfl⟩ := hb
      simp [has, hbs]
    · rw [if_pos ⟨has, rfl⟩, if_neg hb, has]
      by_cases hpos : 0 < b
      · rw [if_pos hpos]
        rfl
      · have hkept : dropTrailingZeros bs ≠ [] := fun hbs => hb ⟨hbs, by omega⟩
        obtain ⟨c, cs, hcs⟩ := List.exists_cons_of_ne_nil hkept
        rw [if_neg hpos, if_neg (Nat.not_lt_zero b), hcs]
        rfl
  · by_cases hb : dropTrailingZeros bs = [] ∧ b = 0
    · obtain ⟨hbs, rfl⟩ := hb
      rw [if_neg ha, if_pos ⟨hbs, rfl⟩, hbs, if_neg (Nat.not_lt_zero a)]
      by_cases hpos : 0 < a
      · rw [if_pos hpos]
        rfl
      · have hkept : dropTrailingZeros as ≠ [] := fun has => ha ⟨has, by omega⟩
        obtain ⟨c, cs, hcs⟩ := List.exists_cons_of_ne_nil hkept
        rw [if_neg hpos, hcs]
        rfl
    · rw [if_neg ha, if_neg hb, compareComponents]

/-! ## Zeros that are missing -/

/-- The order of two component sequences when the shorter one is filled up with zeros: the first
difference decides. -/
def comparePadded (as bs : List Nat) : Ordering :=
  compare (as.rightpad (max as.length bs.length) 0) (bs.rightpad (max as.length bs.length) 0)

theorem comparePadded_cons (a b : Nat) (as bs : List Nat) :
    comparePadded (a :: as) (b :: bs) =
      if a < b then .lt else if b < a then .gt else comparePadded as bs := by
  have hpad : ∀ (n : Nat) (cs : List Nat) (c : Nat),
      (c :: cs).rightpad (n + 1) 0 = c :: cs.rightpad n 0 := by
    intro n cs c
    simp [List.rightpad]
  unfold comparePadded
  rw [List.length_cons, List.length_cons, Nat.add_max_add_right, hpad, hpad,
    ← compareComponents_eq_compare, ← compareComponents_eq_compare, compareComponents]

/-- Where one sequence has ended, zero stands in it. -/
theorem comparePadded_nil_cons (b : Nat) (bs : List Nat) :
    comparePadded [] (b :: bs) = comparePadded [0] (b :: bs) := by
  simp [comparePadded, List.rightpad, List.replicate_succ]

theorem comparePadded_cons_nil (a : Nat) (as : List Nat) :
    comparePadded (a :: as) [] = comparePadded (a :: as) [0] := by
  simp [comparePadded, List.rightpad, List.replicate_succ]

/-- **Without the zeros at their ends sequences compare as they do with zeros filled in.** -/
theorem compareComponents_dropTrailingZeros (as bs : List Nat) :
    compareComponents (dropTrailingZeros as) (dropTrailingZeros bs) = comparePadded as bs := by
  induction as generalizing bs with
  | nil =>
    induction bs with
    | nil => rfl
    | cons b bs ih =>
      show compareComponents (dropTrailingZeros [0]) (dropTrailingZeros (b :: bs)) = _
      rw [comparePadded_nil_cons, comparePadded_cons, compareComponents_cons, ← ih]
  | cons a as ih =>
    cases bs with
    | nil =>
      show compareComponents (dropTrailingZeros (a :: as)) (dropTrailingZeros [0]) = _
      rw [comparePadded_cons_nil, comparePadded_cons, compareComponents_cons, ← ih]
    | cons b bs => rw [comparePadded_cons, compareComponents_cons, ih bs]

namespace Version

variable {a b : Value} {u v w : Version}

/-! ## What a value writes -/

/-- The components that a value writes: the numbers between the dots of its text. -/
def written (a : Value) : List Nat := (runs (spelling a)).map numeral

/-- A natural number writes itself. -/
theorem written_natCast (n : Nat) : written (.int n) = [n] := by
  have hdigits : Digits (toString (n : Int)).toList := Digits.of_toString n
  have hdot : '.' ∉ (toString (n : Int)).toList := fun hmem => absurd (hdigits '.' hmem) (by decide)
  have hrun : runs (spelling (.int n)) = [(toString n).toList] := List.splitOn_eq_singleton hdot
  rw [written, hrun, List.map_singleton, numeral_digits (Digits.of_toString n), ofDigitChars_toString]

/-! ## Versions that have been read -/

/-- What is read compares as it is written. -/
theorem order_of_parse (ha : ∀ x, a ≠ .version x) (hb : ∀ x, b ≠ .version x)
    (hu : parse a = .ok u) (hv : parse b = .ok v) :
    u.order v = comparePadded (written a) (written b) := by
  obtain ⟨-, rfl⟩ := eq_of_parse ha hu
  obtain ⟨-, rfl⟩ := eq_of_parse hb hv
  exact compareComponents_dropTrailingZeros (written a) (written b)

/-- What is read is what is written, up to zeros at the end, and has none there. -/
theorem components_of_parse (ha : ∀ x, a ≠ .version x) (hu : parse a = .ok u) :
    u.components.getLast? ≠ some 0 ∧
      ∃ k, written a = u.components ++ List.replicate k 0 := by
  obtain ⟨-, rfl⟩ := eq_of_parse ha hu
  exact ⟨getLast?_dropTrailingZeros (written a), exists_zeros (written a)⟩

/-- The first component that is written is the first that is read, unless it is zero. -/
theorem isFederation2_of_parse (ha : ∀ x, a ≠ .version x) (hu : parse a = .ok u) :
    u.isFederation2 = true ↔ ∃ major rest, written a = major :: rest ∧ 2 ≤ major := by
  obtain ⟨-, k, hk⟩ := components_of_parse ha hu
  rw [isFederation2_iff, hk]
  cases u.components with
  | nil =>
    rw [List.nil_append]
    constructor
    · rintro ⟨major, rest, hnil, -⟩
      exact absurd hnil (by simp)
    · rintro ⟨major, rest, hzeros, hmajor⟩
      have hzero : major = 0 := List.eq_of_mem_replicate (hzeros ▸ List.mem_cons_self)
      omega
  | cons major rest => simp

/-- **Versions that have been read are ordered as they are written**, a component that is missing being
zero. This is a total order; the versions that are equal in it are those with the same components, which
never end in zero; and the first component written decides whether directives are imported. -/
theorem parsed_versions_ordered (ha : ∀ x, a ≠ .version x) (hb : ∀ x, b ≠ .version x)
    (hu : parse a = .ok u) (hv : parse b = .ok v) :
    (u.order v = comparePadded (written a) (written b) ∧
      (u.le v = true ↔ comparePadded (written a) (written b) ≠ .gt) ∧
      (u.same v = true ↔ comparePadded (written a) (written b) = .eq)) ∧
    ((u.le v = true ∨ v.le u = true) ∧ v.order u = (u.order v).swap ∧
      ∀ w : Version, (u.le v = true → v.le w = true → u.le w = true) ∧
        (u.order v = .lt → v.order w = .lt → u.order w = .lt)) ∧
    (u.components.getLast? ≠ some 0 ∧ ∃ k, written a = u.components ++ List.replicate k 0) ∧
    ((u.same v = true ↔ u.components = v.components) ∧ (u.order v = .eq ↔ u.same v = true) ∧
      (u.same v = true → u.hashCode = v.hashCode)) ∧
    (u.isFederation2 = true ↔ ∃ major rest, written a = major :: rest ∧ 2 ≤ major) := by
  have horder := order_of_parse ha hb hu hv
  have hequal : u.order v = .eq ↔ u.same v = true := by rw [order_eq_iff, same_iff]
  refine ⟨⟨horder, ?_, ?_⟩, ⟨le_total u v, order_swap u v, fun w => ⟨le_trans, order_trans⟩⟩,
    components_of_parse ha hu, ⟨same_iff u v, hequal, fun hsame => ?_⟩, isFederation2_of_parse ha hu⟩
  · rw [le_iff, horder]
  · rw [← hequal, horder]
  · show hash u.components = hash v.components
    rw [(same_iff u v).mp hsame]

/-- Zeros at the front and at the end count for nothing: `02.10.0` is `2.10`, after `2.9`. -/
theorem parsed_versions_ordered_zeros :
    parse (.text "02.10.0") = .ok ⟨[2, 10], "02.10.0"⟩ ∧ parse (.text "2.9") = .ok ⟨[2, 9], "2.9"⟩ ∧
      (⟨[2, 10], "02.10.0"⟩ : Version).order ⟨[2, 9], "2.9"⟩ =
        comparePadded (written (.text "02.10.0")) (written (.text "2.9")) ∧
      comparePadded (written (.text "02.10.0")) (written (.text "2.9")) = .gt := by
  have hu : parse (.text "02.10.0") = .ok ⟨[2, 10], "02.10.0"⟩ := rfl
  have hv : parse (.text "2.9") = .ok ⟨[2, 9], "2.9"⟩ := rfl
  have horder := (parsed_versions_ordered (by simp) (by simp) hu hv).1.1
  exact ⟨hu, hv, horder, horder.symm.trans (by decide)⟩

end Version
end Subgraph
