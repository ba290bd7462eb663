import Subgraph.Proofs.Catalog.Lookup
import Subgraph.Proofs.Failure.Chain

/-!
# `Catalog.Repetition` — when registering fails, and what it leads to

Definitions are registered one after the other, and the first whose name has been registered before is
refused. So a catalog can be made of a list of definitions iff their names are distinct, and then it has
exactly this list; otherwise the failure names the first repetition (`FirstRepeat`). Both facts are
stated for one definition (`register_eq_error_iff`), for several (`registerAll_eq_ok_iff`,
`registerAll_eq_error_iff`) and for an extension (`extended_eq_ok_iff`, `extended_eq_error_iff`), and an
extension of an extension is read off from them (`extended_extended`).
-/

namespace Subgraph

/-! ## First repetitions -/

section Repetition

variable {α : Type} {xs ys : List α} {x y : α}

/-- `x` stands in `xs` behind another `x`, and nothing before it is a repetition. -/
def FirstRepeat (xs : List α) (x : α) : Prop :=
  ∃ before after, xs = before ++ x :: after ∧ before.Nodup ∧ x ∈ before

/-- A first repetition is one in every longer list. -/
theorem FirstRepeat.append (h : FirstRepeat xs x) (ys : List α) : FirstRepeat (xs ++ ys) x := by
  obtain ⟨before, after, rfl, hdistinct, hmem⟩ := h
  exact ⟨before, after ++ ys, by simp, hdistinct, hmem⟩

/-- Distinct items have no repetition. -/
theorem not_firstRepeat_of_nodup (h : xs.Nodup) (x : α) : ¬ FirstRepeat xs x := by
  rintro ⟨before, after, rfl, -, hmem⟩
  rw [List.nodup_append] at h
  exact h.2.2 x hmem x List.mem_cons_self rfl

/-- Behind distinct items the first that is one of them is the first repetition, and the only one. -/
theorem firstRepeat_append_cons (hxs : xs.Nodup) (hy : y ∈ xs) :
    FirstRepeat (xs ++ y :: ys) x ↔ x = y := by
  constructor
  · rintro ⟨before, after, hsplit, hdistinct, hmem⟩
    rcases List.append_eq_append_iff.mp hsplit with ⟨mid, rfl, hrest⟩ | ⟨mid, rfl, hrest⟩
    · -- `y` comes first, so nothing lies between
      cases mid with
      | nil => exact (List.cons.inj hrest).1.symm
      | cons z mid =>
        obtain rfl : y = z := (List.cons.inj hrest).1
        rw [List.nodup_append] at hdistinct
        exact absurd rfl (hdistinct.2.2 y hy y List.mem_cons_self)
    · cases mid with
      | nil => exact (List.cons.inj hrest).1
      | cons z mid =>
        obtain rfl : x = z := (List.cons.inj hrest).1
        rw [List.nodup_append] at hxs
        exact absurd rfl (hxs.2.2 x hmem x List.mem_cons_self)
  · rintro rfl
    exact ⟨xs, ys, rfl, hxs, hy⟩

end Repetition

namespace Catalog

variable {c c' : Catalog} {d : Definition} {ds : List Definition} {f : Failure}

/-- A catalog is its definitions. -/
theorem eq_of_definitions_eq (h : c.definitions = c'.definitions) : c = c' := by
  cases c
  cases c'
  congr

/-! ## Registering -/

/-- A registration is refused iff the name is there. -/
theorem register_eq_error_iff :
    c.register d = .error f ↔ f = .alreadyRegistered d.name ∧ d.name ∈ c.names := by
  unfold register
  by_cases h : d.name ∈ c.names
  · simp [h, eq_comm]
  · simp [h]

/-- Several registrations are refused iff a name repeats, and then with the first that does. -/
theorem registerAll_eq_error_iff :
    c.registerAll ds = .error f ↔
      ∃ n, f = .alreadyRegistered n ∧ FirstRepeat (c.names ++ ds.map (·.name)) n := by
  induction ds generalizing c with
  | nil =>
    -- the names of a catalog do not repeat
    have hnone : ∀ n, ¬ FirstRepeat c.names n := not_firstRepeat_of_nodup c.distinct
    simp [registerAll, hnone]
  | cons d ds ih =>
    rw [registerAll, List.map_cons]
    cases hd : c.register d with
    | error g =>
      obtain ⟨rfl, hmem⟩ := register_eq_error_iff.mp hd
      have hfirst : ∀ n, FirstRepeat (c.names ++ d.name :: ds.map (·.name)) n ↔ n = d.name :=
        fun n => firstRepeat_append_cons c.distinct hmem
      simp [hfirst, eq_comm]
    | ok c₁ =>
      have hnames : c₁.names = c.names ++ [d.name] := by
        simp [names, register_definitions hd]
      simp only [ih, hnames, List.append_assoc, List.singleton_append]

/-- Several registrations lead to the catalog that has these definitions behind the old ones, if there
is one. -/
theorem registerAll_eq_ok_iff :
    c.registerAll ds = .ok c' ↔ c'.definitions = c.definitions ++ ds := by
  refine ⟨registerAll_definitions, fun h => ?_⟩
  cases hds : c.registerAll ds with
  | error g =>
    obtain ⟨n, -, hrepeat⟩ := registerAll_eq_error_iff.mp hds
    have hdistinct : (c.names ++ ds.map (·.name)).Nodup := by
      rw [names, ← List.map_append, ← h]
      exact c'.distinct
    exact absurd hrepeat (not_firstRepeat_of_nodup hdistinct n)
  | ok c₁ => rw [eq_of_definitions_eq ((registerAll_definitions hds).trans h.symm)]

/-! ## Making and extending -/

/-- A catalog is made of a list iff it has this list. -/
theorem ofDefinitions_eq_ok_iff : ofDefinitions ds = .ok c ↔ c.definitions = ds :=
  registerAll_eq_ok_iff

/-- No catalog is made of a list iff a name repeats in it. -/
theorem ofDefinitions_eq_error_iff :
    ofDefinitions ds = .error f ↔ ∃ n, f = .alreadyRegistered n ∧ FirstRepeat (ds.map (·.name)) n :=
  registerAll_eq_error_iff

/-- A registration makes a catalog of the old definitions and the new one. -/
theorem register_eq_ofDefinitions (c : Catalog) (d : Definition) :
    c.register d = ofDefinitions (c.definitions ++ [d]) := by
  cases hd : c.register d with
  | error f =>
    obtain ⟨rfl, hmem⟩ := register_eq_error_iff.mp hd
    have hrepeat : FirstRepeat ((c.definitions ++ [d]).map (·.name)) d.name := by
      rw [List.map_append]
      exact (firstRepeat_append_cons c.distinct hmem).mpr rfl
    exact (ofDefinitions_eq_error_iff.mpr ⟨d.name, rfl, hrepeat⟩).symm
  | ok c' => exact (ofDefinitions_eq_ok_iff.mpr (register_definitions hd)).symm

/-- **An extension** is the catalog that has the new definitions behind the old ones. -/
theorem extended_eq_ok_iff : c.extended ds = .ok c' ↔ c'.definitions = c.definitions ++ ds :=
  ofDefinitions_eq_ok_iff

/-- **An extension is refused** iff a name repeats, and then with the first that does. -/
theorem extended_eq_error_iff :
    c.extended ds = .error f ↔
      ∃ n, f = .alreadyRegistered n ∧ FirstRepeat ((c.definitions ++ ds).map (·.name)) n :=
  ofDefinitions_eq_error_iff

/-- **Extending twice is extending once** by all that is new, also where it fails. -/
theorem extended_extended (c : Catalog) (ds es : List Definition) :
    (c.extended ds >>= fun c' => c'.extended es) = c.extended (ds ++ es) := by
  cases hds : c.extended ds with
  | error f =>
    obtain ⟨n, rfl, hrepeat⟩ := extended_eq_error_iff.mp hds
    have hlonger : FirstRepeat ((c.definitions ++ (ds ++ es)).map (·.name)) n := by
      rw [← List.append_assoc, List.map_append]
      exact hrepeat.append _
    exact (extended_eq_error_iff.mpr ⟨n, rfl, hlonger⟩).symm
  | ok c' =>
    rw [ok_bind, extended, extended, extended_eq_ok_iff.mp hds, List.append_assoc]

end Catalog
end Subgraph
