import Subgraph.Catalog.Definition

/-!
# Catalogs

A catalog is a table of directive definitions in the order of their registration, no two of one name.
It says which directives a version imports: those it defines at that version or before, ordered by
their first version, and by registration where that is the same.

Contents

* `Catalog` — the table, with its invariant;
* `register`, `registerAll`, `extended` — adding definitions;
* `find?`, `lookup` — finding one by its name;
* `eligible` — the definitions of a version, in import order;
* `standard` — the catalog of the known federation directives.
-/

namespace Subgraph

/-- Directive definitions in the order of registration, with distinct names. -/
structure Catalog where
  definitions : List Definition
  distinct : (definitions.map (·.name)).Nodup

namespace Catalog

/-- The catalog without definitions. -/
def empty : Catalog := ⟨[], by simp⟩

instance : Inhabited Catalog := ⟨empty⟩

/-- The names in the order of registration. -/
def names (c : Catalog) : List String := c.definitions.map (·.name)

/-- The number of definitions. -/
def size (c : Catalog) : Nat := c.definitions.length

/-- Whether a name is registered. -/
def contains (c : Catalog) (name : String) : Bool := c.names.contains name

/-! ## Adding definitions -/

/-- The catalog with one more definition at its end; refused if the name is registered. -/
def register (c : Catalog) (d : Definition) : Except Failure Catalog :=
  if h : d.name ∈ c.names then .error (.alreadyRegistered d.name)
  else
    .ok ⟨c.definitions ++ [d], by
      have hd := c.distinct
      rw [List.map_append, List.nodup_append]
      refine ⟨hd, by simp, ?_⟩
      intro a ha b hb
      simp only [List.map_cons, List.map_nil, List.mem_singleton] at hb
      rintro rfl
      exact h (hb ▸ ha)⟩

/-- The catalog with several more definitions, one after the other. -/
def registerAll (c : Catalog) : List Definition → Except Failure Catalog
  | [] => .ok c
  | d :: ds =>
    match c.register d with
    | .ok c' => registerAll c' ds
    | .error f => .error f

/-- The catalog of the given definitions. -/
def ofDefinitions (ds : List Definition) : Except Failure Catalog := empty.registerAll ds

/-- The catalog of the definitions of `c` followed by `ds`; `c` stays as it is. -/
def extended (c : Catalog) (ds : List Definition) : Except Failure Catalog :=
  ofDefinitions (c.definitions ++ ds)

/-! ## Finding definitions -/

/-- The definition of a name. -/
def find? (c : Catalog) (name : String) : Option Definition :=
  c.definitions.find? fun d => d.name == name

/-- The definition of a name, which must be registered. -/
def lookup (c : Catalog) (name : String) : Except Failure Definition :=
  match c.find? name with
  | some d => .ok d
  | none => .error (.unknownDirective name)

/-! ## Imports -/

/-- The definitions available at a version, by ascending first version; definitions of the same
first version stay in the order of registration. -/
def eligible (c : Catalog) (v : Version) : List Definition :=
  (c.definitions.filter fun d => d.minVersion.le v).mergeSort fun d e => d.minVersion.le e.minVersion

/-! ## The known directives -/

/-- The places of the directives that hide or label an element. -/
def visibilityLocations : List Location :=
  [.fieldDefinition, .object, .interface, .union, .argumentDefinition, .scalar, .enum, .enumValue,
    .inputObject, .inputFieldDefinition]

/-- The places of the directive that demands authentication. -/
def authenticatedLocations : List Location :=
  [.fieldDefinition, .object, .interface, .scalar, .enum]

/-- The catalog of the known federation directives. -/
def standard : Catalog where
  definitions :=
    [⟨"inaccessible", ⟨[2], "2.0"⟩, visibilityLocations, false⟩,
      ⟨"tag", ⟨[2, 3], "2.3"⟩, visibilityLocations, true⟩,
      ⟨"authenticated", ⟨[2, 5], "2.5"⟩, authenticatedLocations, false⟩]
  distinct := by decide

end Catalog

end Subgraph
