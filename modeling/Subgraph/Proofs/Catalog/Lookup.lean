import Mathlib.Data.List.Nodup
import Subgraph.Catalog.Basic

/-!
# `Catalog.Lookup` — what a catalog finds, and what registration does to it

Names are distinct in a catalog, so a definition is found exactly under its own name
(`find?_eq_some_iff`). Everything else follows from that: registration never replaces a definition
(`register_keeps`), and the definitions imported at a version are those that are old enough
(`mem_eligible`).

`Keeps c c'` is the relation that runs of registrations thread: `c'` finds under every name what `c`
finds there. What an element relied on when a directive was attached stays true along it.
-/

namespace Subgraph
namespace Catalog

/-! ## Finding -/

/-- Two definitions of one catalog with the same name are the same. -/
theorem eq_of_name_eq {c : Catalog} {d e : Definition} (hd : d ∈ c.definitions)
    (he : e ∈ c.definitions) (h : d.name = e.name) : d = e :=
  List.inj_on_of_nodup_map c.distinct hd he h

/-- A definition is found under a name iff it is registered and has that name. -/
theorem find?_eq_some_iff {c : Catalog} {n : String} {d : Definition} :
    c.find? n = some d ↔ d ∈ c.definitions ∧ d.name = n := by
  unfold find?
  constructor
  · intro h
    exact ⟨List.mem_of_find?_eq_some h, by simpa using List.find?_some h⟩
  · rintro ⟨hd, rfl⟩
    cases hf : c.definitions.find? (fun e => e.name == d.name) with
    | none => exact absurd (List.find?_eq_none.mp hf d hd) (by simp)
    | some e =>
      have hname : e.name = d.name := by simpa using List.find?_some hf
      rw [eq_of_name_eq (List.mem_of_find?_eq_some hf) hd hname]

/-- Nothing is found under a name that is not registered. -/
theorem find?_eq_none_iff {c : Catalog} {n : String} : c.find? n = none ↔ c.contains n = false := by
  unfold find? contains names
  rw [List.find?_eq_none, ← Bool.not_eq_true, List.contains_iff_mem, List.mem_map]
  simp

/-- The definition of a registered name. -/
theorem exists_find?_of_contains {c : Catalog} {n : String} (h : c.contains n = true) :
    ∃ d, c.find? n = some d := by
  cases hf : c.find? n with
  | none => rw [find?_eq_none_iff.mp hf] at h; exact absurd h (by simp)
  | some d => exact ⟨d, rfl⟩

/-- A name under which something is found is known. -/
theorem contains_of_find? {c : Catalog} {n : String} {d : Definition} (h : c.find? n = some d) :
    c.contains n = true := by
  cases hc : c.contains n with
  | true => rfl
  | false =>
    rw [find?_eq_none_iff.mpr hc] at h
    exact absurd h (by simp)

/-- `lookup` succeeds with what `find?` finds. -/
theorem lookup_eq_ok_iff {c : Catalog} {n : String} {d : Definition} :
    c.lookup n = .ok d ↔ c.find? n = some d := by
  unfold lookup
  cases c.find? n <;> simp

/-- `lookup` fails for the names that are not registered. -/
theorem lookup_eq_error_iff {c : Catalog} {n : String} {f : Failure} :
    c.lookup n = .error f ↔ f = .unknownDirective n ∧ n ∉ c.names := by
  have hnone : c.find? n = none ↔ n ∉ c.names := by
    rw [find?_eq_none_iff, contains]
    simp
  unfold lookup
  rw [← hnone]
  cases c.find? n <;> simp [eq_comm]

/-! ## Registration -/

/-- Every definition that `c` finds under a name, `c'` finds there as well. -/
def Keeps (c c' : Catalog) : Prop := ∀ n d, c.find? n = some d → c'.find? n = some d

theorem Keeps.refl (c : Catalog) : Keeps c c := fun _ _ h => h

/-- A catalog that holds the definitions of another keeps them. -/
theorem keeps_of_subset {c c' : Catalog} (h : c.definitions ⊆ c'.definitions) : Keeps c c' := by
  intro n d hf
  obtain ⟨hd, hn⟩ := find?_eq_some_iff.mp hf
  exact find?_eq_some_iff.mpr ⟨h hd, hn⟩

/-- A successful registration puts the definition at the end. -/
theorem register_definitions {c c' : Catalog} {d : Definition} (h : c.register d = .ok c') :
    c'.definitions = c.definitions ++ [d] := by
  unfold register at h
  split at h
  · simp at h
  · injection h with h
    rw [← h]

/-- **Registration never replaces a definition.** -/
theorem register_keeps {c c' : Catalog} {d : Definition} (h : c.register d = .ok c') :
    Keeps c c' := by
  apply keeps_of_subset
  rw [register_definitions h]
  exact List.subset_append_left _ _

/-- Several registrations that succeed put their definitions at the end, in order. -/
theorem registerAll_definitions {c c' : Catalog} {ds : List Definition}
    (h : c.registerAll ds = .ok c') : c'.definitions = c.definitions ++ ds := by
  induction ds generalizing c with
  | nil =>
    injection h with h
    rw [← h, List.append_nil]
  | cons d ds ih =>
    rw [registerAll] at h
    cases hd : c.register d with
    | error f => rw [hd] at h; exact absurd h (by simp)
    | ok c₁ =>
      rw [hd] at h
      rw [ih h, register_definitions hd, List.append_assoc, List.singleton_append]

/-- An extended catalog has the definitions of the old one and the new ones behind them. -/
theorem extended_definitions {c c' : Catalog} {ds : List Definition}
    (h : c.extended ds = .ok c') : c'.definitions = c.definitions ++ ds := by
  have hall : c'.definitions = empty.definitions ++ (c.definitions ++ ds) :=
    registerAll_definitions h
  rw [hall]
  rfl

/-- **An extension never replaces a definition.** -/
theorem extended_keeps {c c' : Catalog} {ds : List Definition} (h : c.extended ds = .ok c') :
    Keeps c c' := by
  apply keeps_of_subset
  rw [extended_definitions h]
  exact List.subset_append_left _ _

/-- A catalog that keeps what another finds knows the names that the other knows. -/
theorem Keeps.contains {c c' : Catalog} (h : c.Keeps c') {n : String} (hn : c.contains n = true) :
    c'.contains n = true := by
  obtain ⟨d, hd⟩ := exists_find?_of_contains hn
  exact contains_of_find? (h n d hd)

/-! ## Imports -/

/-- The definitions imported at a version are those whose first version is at most it. -/
theorem mem_eligible {c : Catalog} {v : Version} {d : Definition} :
    d ∈ c.eligible v ↔ d ∈ c.definitions ∧ d.minVersion.le v = true := by
  unfold eligible
  rw [List.mem_mergeSort, List.mem_filter]

end Catalog
end Subgraph
