import Subgraph.Proofs.Catalog.Lookup
import Subgraph.Proofs.Failure.Chain
import Subgraph.Schema.Basic

/-!
# `Schema.Checks` — what the checks before a document decide

Two checks go through a schema before anything is written: every type referred to must be registered,
and the catalog must know every attached directive. Each fails with the first name that offends, and
with nothing else.

Contents

* `TypeDef.Refers` — the references of a type, one rule for each way to refer;
* `Schema.Resolved`, `checkReferences_eq_ok`, `checkReferences_eq_error` — the first check;
* `Workspace.attached`, `Workspace.Known`, `checkDirectives_eq_ok`, `checkDirectives_eq_error` — the
  second.
-/

namespace Subgraph

/-! ## References -/

/-- A type refers to another: as an interface, or as the type of a field, of an argument, of a member or
of an input field, below all wrappers. -/
inductive TypeDef.Refers (t : TypeDef) : TypeId → Prop where
  | interface {id : TypeId} (h : id ∈ t.body.interfaces) : t.Refers id
  | field {f : Field} (h : f ∈ t.body.fields) : t.Refers f.type.base
  | argument {f : Field} {a : InputValue} (h : f ∈ t.body.fields) (ha : a ∈ f.arguments) :
    t.Refers a.type.base
  | member {id : TypeId} (h : id ∈ t.body.members) : t.Refers id
  | inputField {f : InputValue} (h : f ∈ t.body.inputFields) : t.Refers f.type.base

/-- The references that are listed are all there are. -/
theorem TypeDef.mem_referenced {t : TypeDef} {id : TypeId} : id ∈ t.referenced ↔ t.Refers id := by
  constructor
  · intro h
    unfold referenced at h
    cases hb : t.body with
    | scalar url => simp [hb] at h
    | enum values => simp [hb] at h
    | union members =>
      simp only [hb] at h
      exact .member (by rwa [hb])
    | inputObject oneOf fields =>
      simp only [hb] at h
      obtain ⟨f, hf, rfl⟩ := List.mem_map.mp h
      exact .inputField (by rwa [hb])
    | object interfaces fields | interface interfaces fields =>
      simp only [hb] at h
      rcases List.mem_append.mp h with h | h
      · exact .interface (by rwa [hb])
      · obtain ⟨f, hf, h⟩ := List.mem_flatMap.mp h
        rcases List.mem_cons.mp h with rfl | h
        · exact .field (by rwa [hb])
        · obtain ⟨a, ha, rfl⟩ := List.mem_map.mp h
          exact .argument (by rwa [hb]) ha
  · intro h
    -- a type with references of a sort is of a kind that lists them
    cases h with
    | interface h =>
      cases hb : t.body <;> simp_all [referenced, TypeBody.interfaces]
    | @field f h =>
      have hf : f.type.base ∈ f.referenced := List.mem_cons_self
      cases hb : t.body <;> simp_all [referenced, TypeBody.fields] <;> exact Or.inr ⟨f, h, hf⟩
    | @argument f a h ha =>
      have hf : a.type.base ∈ f.referenced := List.mem_cons_of_mem _ (List.mem_map.mpr ⟨a, ha, rfl⟩)
      cases hb : t.body <;> simp_all [referenced, TypeBody.fields] <;> exact Or.inr ⟨f, h, hf⟩
    | member h =>
      cases hb : t.body <;> simp_all [referenced, TypeBody.members]
    | @inputField f h =>
      cases hb : t.body <;> simp_all [referenced, TypeBody.inputFields]
      exact ⟨f, h, rfl⟩

namespace Schema

variable {s : Schema} {g : TypeGraph}

/-- Every name that a type of the schema refers to is registered. -/
def Resolved (s : Schema) (g : TypeGraph) : Prop := ∀ n ∈ s.referencedNames g, s.find? n ≠ none

instance : Decidable (s.Resolved g) :=
  inferInstanceAs (Decidable (∀ n ∈ s.referencedNames g, s.find? n ≠ none))

/-- A name is referred to iff it is that of a type that some type of the schema refers to. -/
theorem mem_referencedNames {n : String} :
    n ∈ s.referencedNames g ↔ ∃ t ∈ s.definedTypes g, ∃ id, t.Refers id ∧ g.nameOf id = n := by
  unfold referencedNames
  simp only [List.mem_flatMap, List.mem_map, TypeDef.mem_referenced]

/-- The check of references fails with the first name that is not registered. -/
theorem checkReferences_eq_error {f : Failure} :
    s.checkReferences g = .error f ↔
      ∃ n, f = .unresolvedType n ∧ IsFirst (fun n => s.find? n = none) (s.referencedNames g) n := by
  have hfirst : ∀ n, (s.referencedNames g).find? (fun name => (s.find? name).isNone) = some n ↔
      IsFirst (fun n => s.find? n = none) (s.referencedNames g) n :=
    fun n => find?_eq_some_iff_isFirst fun name => Option.isNone_iff_eq_none
  simp only [← hfirst]
  unfold checkReferences
  cases (s.referencedNames g).find? fun name => (s.find? name).isNone with
  | none => simp
  | some n => simp [eq_comm]

theorem checkReferences_eq_ok : s.checkReferences g = .ok () ↔ s.Resolved g := by
  unfold checkReferences Resolved
  cases hf : (s.referencedNames g).find? fun name => (s.find? name).isNone with
  | none =>
    rw [List.find?_eq_none] at hf
    simpa using hf
  | some n =>
    have habsent := List.find?_some hf
    simp only [reduceCtorEq, false_iff]
    intro hall
    exact hall n (List.mem_of_find?_eq_some hf) (by simpa using habsent)

end Schema

namespace Workspace

variable {w : Workspace} {s : Schema} {c : Catalog}

/-- The directives attached within a schema, in document order and in the order of attachment. -/
def attached (w : Workspace) (s : Schema) : List Directive :=
  (s.parts w.graph).flatMap fun part => w.directivesOf part.element

/-- The catalog knows every directive attached within the schema. -/
def Known (w : Workspace) (s : Schema) (c : Catalog) : Prop :=
  ∀ d ∈ w.attached s, c.contains d.name = true

instance : Decidable (w.Known s c) :=
  inferInstanceAs (Decidable (∀ d ∈ w.attached s, c.contains d.name = true))

/-- Directives of parts are attached within the schema. -/
theorem Known.of_part (h : w.Known s c) {part : Part} (hpart : part ∈ s.parts w.graph) :
    ∀ d ∈ w.directivesOf part.element, c.contains d.name = true :=
  fun d hd => h d (List.mem_flatMap.mpr ⟨part, hpart, hd⟩)

/-- The part by part search for an unknown directive goes through what is attached. -/
theorem unknownDirective?_eq :
    w.unknownDirective? s c =
      ((w.attached s).find? fun d => !c.contains d.name).map (·.name) := by
  unfold unknownDirective? attached
  rw [List.find?_flatMap, List.map_findSome?]
  rfl

/-- The check of directives fails with the first name that the catalog lacks. -/
theorem checkDirectives_eq_error {f : Failure} :
    w.checkDirectives s c = .error f ↔
      ∃ d, f = .unknownDirective d.name ∧
        IsFirst (fun d : Directive => c.contains d.name = false) (w.attached s) d := by
  have hfirst : ∀ d, (w.attached s).find? (fun d => !c.contains d.name) = some d ↔
      IsFirst (fun d : Directive => c.contains d.name = false) (w.attached s) d :=
    fun d => find?_eq_some_iff_isFirst fun d => by simp
  simp only [← hfirst]
  unfold checkDirectives
  rw [unknownDirective?_eq]
  cases (w.attached s).find? fun d => !c.contains d.name with
  | none => simp
  | some d => simp [eq_comm]

theorem checkDirectives_eq_ok : w.checkDirectives s c = .ok () ↔ w.Known s c := by
  unfold checkDirectives Known
  rw [unknownDirective?_eq]
  cases hf : (w.attached s).find? fun d => !c.contains d.name with
  | none =>
    rw [List.find?_eq_none] at hf
    simpa using hf
  | some d =>
    have hunknown := List.find?_some hf
    simp only [Option.map_some, reduceCtorEq, false_iff]
    intro hall
    have hknown := hall d (List.mem_of_find?_eq_some hf)
    simp [hknown] at hunknown

end Workspace

end Subgraph
