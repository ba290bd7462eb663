import Subgraph.Proofs.Catalog.Lookup
import Subgraph.Proofs.Failure.Chain
import Subgraph.Sdl.Document

/-!
# `Sdl.Applied` — which directives are shown, and what they say

Two computations decide what is shown behind a part: the header imports the names of all definitions
that are old enough, and behind each part a directive is looked up by its name and shown if its
definition is old enough. Since names are distinct in a catalog the two agree name by name
(`isActive_iff_mem_linkImports`). Among directives that the catalog knows the text behind a part is the
concatenation of the texts of the active ones (`appliedText_eq`, `directiveTexts_eq`), and it cannot be
had iff an argument of one of them has no literal (`directiveTexts_eq_error`,
`exists_literal_of_directiveTexts`).
-/

namespace Subgraph

/-! ## Active directives -/

namespace Catalog

/-- A directive is active iff its name has a definition that is old enough. -/
theorem isActive_iff {c : Catalog} {v : Version} {d : Directive} :
    c.isActive v d = true ↔ ∃ e ∈ c.definitions, e.name = d.name ∧ e.minVersion.le v = true := by
  unfold isActive
  rw [Option.any_eq_true]
  constructor
  · rintro ⟨e, he, hle⟩
    obtain ⟨hmem, hname⟩ := find?_eq_some_iff.mp he
    exact ⟨e, hmem, hname, hle⟩
  · rintro ⟨e, hmem, hname, hle⟩
    exact ⟨e, find?_eq_some_iff.mpr ⟨hmem, hname⟩, hle⟩

/-- Among known directives the active ones are picked out, in order. -/
theorem active_eq_filter {c : Catalog} {v : Version} {ds : List Directive}
    (h : ∀ d ∈ ds, c.contains d.name = true) : c.active v ds = .ok (ds.filter (c.isActive v)) := by
  induction ds with
  | nil => rfl
  | cons d ds ih =>
    rw [List.forall_mem_cons] at h
    obtain ⟨e, he⟩ := exists_find?_of_contains h.1
    have hactive : c.isActive v d = e.minVersion.le v := by rw [isActive, he, Option.any_some]
    rw [active, lookup_eq_ok_iff.mpr he, ih h.2]
    by_cases hle : e.minVersion.le v = true
    · simp [hactive, hle]
    · simp [hactive, hle]

end Catalog

namespace Sdl

/-- A name is imported iff it has a definition that is old enough. -/
theorem mem_linkImports {c : Catalog} {v : Version} {n : String} :
    "@" ++ n ∈ linkImports c v ↔ ∃ e ∈ c.definitions, e.name = n ∧ e.minVersion.le v = true := by
  unfold linkImports
  rw [List.mem_map]
  constructor
  · rintro ⟨e, he, hname⟩
    obtain ⟨hmem, hle⟩ := Catalog.mem_eligible.mp he
    exact ⟨e, hmem, String.append_right_inj _ |>.mp hname, hle⟩
  · rintro ⟨e, hmem, rfl, hle⟩
    exact ⟨e, Catalog.mem_eligible.mpr ⟨hmem, hle⟩, rfl⟩

/-- **A directive is active iff the header imports its name.** -/
theorem isActive_iff_mem_linkImports {c : Catalog} {v : Version} {d : Directive} :
    c.isActive v d = true ↔ "@" ++ d.name ∈ linkImports c v :=
  Catalog.isActive_iff.trans mem_linkImports.symm

/-! ## Texts of directives -/

/-- The texts of directives are written one behind the other, each with a space before it. -/
theorem directiveTexts_eq (ds : List Directive) :
    directiveTexts ds = (ds.mapM Directive.text?).map fun ts => String.join (ts.map (" " ++ ·)) := by
  induction ds with
  | nil => rfl
  | cons d ds ih =>
    rw [directiveTexts, ih, List.mapM_cons]
    cases d.text? with
    | error f => rfl
    | ok t =>
      cases ds.mapM Directive.text? with
      | error f => rfl
      | ok ts => simp [Except.map, pure, Except.pure]

/-- Behind known directives stands what the active ones say. -/
theorem appliedText_eq {c : Catalog} {v : Version} {ds : List Directive}
    (h : ∀ d ∈ ds, c.contains d.name = true) :
    appliedText c v ds = directiveTexts (ds.filter (c.isActive v)) := by
  rw [appliedText, Catalog.active_eq_filter h]

/-! ## Texts that cannot be had -/

/-- A directive without a text has an argument without a literal. -/
theorem text?_eq_error {d : Directive} {f : Failure} (h : d.text? = .error f) :
    ∃ a ∈ d.arguments, literalText a.value = .error f := by
  unfold Directive.text? at h
  split at h
  · exact absurd h (by simp)
  · obtain ⟨a, ha, hf⟩ := mapM_eq_error (map_eq_error.mp h)
    exact ⟨a, ha, map_eq_error.mp hf⟩

/-- Of directives whose texts cannot be had one has an argument without a literal. -/
theorem directiveTexts_eq_error {ds : List Directive} {f : Failure}
    (h : directiveTexts ds = .error f) :
    ∃ d ∈ ds, ∃ a ∈ d.arguments, literalText a.value = .error f := by
  rw [directiveTexts_eq] at h
  obtain ⟨d, hd, hf⟩ := mapM_eq_error (map_eq_error.mp h)
  exact ⟨d, hd, text?_eq_error hf⟩

/-- Texts of directives are there only if every argument has a literal. -/
theorem exists_literal_of_directiveTexts {ds : List Directive} {text : String}
    (h : directiveTexts ds = .ok text) {d : Directive} (hd : d ∈ ds) {a : Argument}
    (ha : a ∈ d.arguments) : ∃ l, literalText a.value = .ok l := by
  rw [directiveTexts_eq] at h
  obtain ⟨ts, hts, -⟩ := map_eq_ok.mp h
  obtain ⟨t, ht⟩ := exists_ok_of_mapM hts hd
  unfold Directive.text? at ht
  split at ht
  · next hnil => exact absurd ha (by simp [hnil])
  · obtain ⟨as, has, -⟩ := map_eq_ok.mp ht
    obtain ⟨s, hs⟩ := exists_ok_of_mapM has ha
    obtain ⟨l, hl, -⟩ := map_eq_ok.mp hs
    exact ⟨l, hl⟩

end Sdl
end Subgraph
