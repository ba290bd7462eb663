import Subgraph.Proofs.Failure.Chain
import Subgraph.Proofs.TypeGraph.Closed

/-!
# `Schema.Contents` — what a schema holds, and where it holds it

A schema holds indices into a graph: its types by name, its root types, the types of the arguments of
the directives that it declares. `Within` says that all of them are there and that the names are right.
Building a schema makes it so (`within_of_assemble`), and a growing graph keeps it so
(`Within.extends`); the types and parts of the schema stay the same then (`definedTypes_eq`,
`parts_eq`).

Two changes of a schema leave the types that it holds as they are: choosing a version changes none of
its `contents` (`choose_contents`), and removing types by name only takes entries away
(`removeTypes_subset`).
-/

namespace Subgraph
namespace Schema

/-- The root types of a schema. -/
def rootIds (s : Schema) : List TypeId :=
  s.query.toList ++ s.mutation.toList ++ s.subscription.toList

/-- Whatever a schema names by an index is in the graph, the types under their own names. -/
structure Within (s : Schema) (g : TypeGraph) : Prop where
  types : ∀ p ∈ s.typeMap, ∃ t, g.type? p.2 = some t ∧ t.name = p.1
  roots : ∀ id ∈ s.rootIds, g.Has id
  arguments : ∀ d ∈ s.declarations, ∀ a ∈ d.arguments, g.Has a.type.base

variable {s s' : Schema} {g g' : TypeGraph}

/-! ## Types and parts -/

/-- A schema states the types of its map that are not built in. -/
theorem mem_definedTypes {t : TypeDef} :
    t ∈ s.definedTypes g ↔
      (∃ p ∈ s.typeMap, g.type? p.2 = some t) ∧ t.isDefined = true := by
  unfold definedTypes
  rw [List.mem_filter, List.mem_filterMap]

/-- In a closed graph the types of a schema refer to types that are there. -/
theorem covers_of_closed (hg : g.Closed) {t : TypeDef} (ht : t ∈ s.definedTypes g) :
    g.Covers t := by
  obtain ⟨⟨p, -, hp⟩, -⟩ := mem_definedTypes.mp ht
  exact hg p.2 t hp

/-- A growing graph leaves the types of a schema as they are. -/
theorem definedTypes_eq (hs : s.Within g) (hg : g.Extends g') :
    s.definedTypes g' = s.definedTypes g := by
  unfold definedTypes
  have hsame : ∀ p ∈ s.typeMap, g'.type? p.2 = g.type? p.2 := by
    intro p hp
    obtain ⟨t, ht, -⟩ := hs.types p hp
    exact TypeGraph.type?_eq hg ⟨t, ht⟩
  rw [List.filterMap_congr hsame]

theorem parts_eq (hs : s.Within g) (hg : g.Extends g') : s.parts g' = s.parts g := by
  rw [parts, parts, definedTypes_eq hs hg]

theorem elements_eq (hs : s.Within g) (hg : g.Extends g') : s.elements g' = s.elements g := by
  rw [elements, elements, parts_eq hs hg]

/-- An element of a schema belongs to one of its parts. -/
theorem mem_elements {id : ElementId} :
    id ∈ s.elements g ↔ ∃ part ∈ s.parts g, part.element = some id := by
  unfold elements
  rw [List.mem_filterMap]

theorem Within.extends (hs : s.Within g) (hg : g.Extends g') : s.Within g' where
  types := by
    intro p hp
    obtain ⟨t, ht, hname⟩ := hs.types p hp
    exact ⟨t, hg p.2 t ht, hname⟩
  roots := fun id hid => (hs.roots id hid).extends hg
  arguments := fun d hd a ha => (hs.arguments d hd a ha).extends hg

/-! ## Building -/

/-- Types are entered under their names, behind those that have been entered before. -/
theorem mem_of_nameTypes {ids : List TypeId} {named entries : List (String × TypeId)}
    (h : g.nameTypes named ids = .ok entries) :
    ∀ p ∈ entries, p ∈ named ∨ p.2 ∈ ids ∧ p.1 = g.nameOf p.2 := by
  induction ids generalizing named with
  | nil =>
    injection h with h
    subst h
    exact fun p hp => Or.inl hp
  | cons id ids ih =>
    rw [TypeGraph.nameTypes] at h
    split at h
    · exact absurd h (by simp)
    · intro p hp
      rcases ih h p hp with hp | ⟨hp, hname⟩
      · rcases List.mem_append.mp hp with hp | hp
        · exact Or.inl hp
        · rw [List.mem_singleton.mp hp]
          exact Or.inr ⟨List.mem_cons_self, rfl⟩
      · exact Or.inr ⟨List.mem_cons_of_mem _ hp, hname⟩

/-- What a built schema consists of. -/
theorem assemble_eq_ok {w : Workspace} {roots : Roots} {description : Option String}
    {federation : Option Federation} (h : w.assemble roots description federation = .ok s) :
    ∃ ids typeMap, w.graph.typesFrom roots = .ok ids ∧ w.graph.nameTypes [] ids = .ok typeMap ∧
      s = ⟨typeMap, roots.query, roots.mutation, roots.subscription, roots.declarations, description,
        federation⟩ := by
  unfold Workspace.assemble at h
  cases hids : w.graph.typesFrom roots with
  | error f => rw [hids] at h; exact absurd h (by simp)
  | ok ids =>
    simp only [hids] at h
    cases hmap : w.graph.nameTypes [] ids with
    | error f => rw [hmap] at h; exact absurd h (by simp)
    | ok typeMap =>
      rw [hmap] at h
      injection h with h
      exact ⟨ids, typeMap, rfl, hmap, h.symm⟩

/-- A schema is built with the version and the catalog that it is given. -/
theorem federation_of_assemble {w : Workspace} {roots : Roots} {description : Option String}
    {federation : Option Federation} (h : w.assemble roots description federation = .ok s) :
    s.federation = federation := by
  obtain ⟨ids, typeMap, -, -, rfl⟩ := assemble_eq_ok h
  rfl

/-- **A built schema is within its graph**, if what it is built from is. -/
theorem within_of_assemble {w : Workspace} {roots : Roots} {description : Option String}
    {federation : Option Federation} (h : w.assemble roots description federation = .ok s)
    (hstarts : ∀ k ∈ roots.starts, w.graph.Has k) (hextra : ∀ k ∈ roots.extra, w.graph.Has k) :
    s.Within w.graph := by
  obtain ⟨ids, typeMap, hids, hmap, rfl⟩ := assemble_eq_ok h
  refine ⟨fun p hp => ?_, fun id hid => ?_, fun d hd a ha => ?_⟩
  · -- nothing was entered before, so the entry is that of a type that was met
    rcases mem_of_nameTypes hmap p hp with hp | ⟨hp, hname⟩
    · exact absurd hp (by simp)
    · obtain ⟨t, ht⟩ := TypeGraph.has_of_typesFrom hids hextra p.2 hp
      refine ⟨t, ht, ?_⟩
      rw [hname, TypeGraph.nameOf, ht]
      rfl
  · apply hstarts
    unfold Roots.starts
    exact List.mem_append_left _ (List.mem_append_left _ hid)
  · apply hstarts
    unfold Roots.starts
    refine List.mem_append_left _ (List.mem_append_right _ ?_)
    exact List.mem_flatMap.mpr ⟨d, hd, List.mem_map.mpr ⟨a, ha, rfl⟩⟩

/-! ## Choosing a version -/

/-- A schema apart from its version and its catalog. -/
def contents (s : Schema) : Schema := { s with federation := none }

/-- Choosing a version changes nothing else, and makes no plain schema a federated one. -/
theorem choose_contents {value : Value} (h : s.choose value = .ok s') :
    s'.contents = s.contents ∧ s'.federation.isSome = s.federation.isSome := by
  unfold choose at h
  cases hf : s.federation with
  | none =>
    rw [hf] at h
    injection h with h
    rw [← h, hf]
    exact ⟨rfl, rfl⟩
  | some f =>
    simp only [hf] at h
    cases ht : f.target.choose value with
    | error e => rw [ht] at h; exact absurd h (by simp)
    | ok target =>
      rw [ht] at h
      injection h with h
      rw [← h]
      exact ⟨rfl, rfl⟩

/-- Schemas of the same contents have the same elements. -/
theorem elements_of_contents (h : s'.contents = s.contents) (g : TypeGraph) :
    s'.elements g = s.elements g := by
  have hcontents : s'.contents.elements g = s.contents.elements g := by rw [h]
  exact hcontents

/-- Schemas of the same contents are within the same graphs. -/
theorem Within.of_contents (hs : s.Within g) (h : s'.contents = s.contents) : s'.Within g := by
  have hmap : s'.typeMap = s.typeMap := congrArg (·.typeMap) h
  have hroots : s'.contents.rootIds = s.contents.rootIds := by rw [h]
  have hdeclared : s'.declarations = s.declarations := congrArg (·.declarations) h
  refine ⟨?_, ?_, ?_⟩
  · rw [hmap]
    exact hs.types
  · intro id hid
    have hmem : id ∈ s.contents.rootIds := hroots ▸ hid
    exact hs.roots id hmem
  · rw [hdeclared]
    exact hs.arguments

/-! ## Removing types -/

/-- The schema without the types of several names, each of which must be there. -/
def removeTypes (s : Schema) (names : List String) : Except Failure Schema :=
  names.foldlM removeType s

/-- Removing types takes entries away and changes nothing else. -/
theorem removeTypes_subset {names : List String} (h : s.removeTypes names = .ok s') :
    s'.typeMap ⊆ s.typeMap ∧ s' = { s with typeMap := s'.typeMap } := by
  unfold removeTypes at h
  induction names generalizing s with
  | nil =>
    injection h with h
    subst h
    exact ⟨List.Subset.refl _, rfl⟩
  | cons name names ih =>
    rw [List.foldlM_cons] at h
    obtain ⟨s₁, hs₁, h⟩ := bind_eq_ok.mp h
    unfold removeType at hs₁
    split at hs₁
    · injection hs₁ with hs₁
      obtain ⟨hsubset, hs'⟩ := ih h
      subst hs₁
      exact ⟨fun p hp => (List.mem_filter.mp (hsubset hp)).1, hs'⟩
    · exact absurd hs₁ (by simp)

/-- What remains of a schema is within its graph. -/
theorem Within.removeTypes (hs : s.Within g) {names : List String}
    (h : s.removeTypes names = .ok s') : s'.Within g := by
  obtain ⟨hsubset, hs'⟩ := removeTypes_subset h
  rw [hs']
  exact ⟨fun p hp => hs.types p (hsubset hp), hs.roots, hs.arguments⟩

/-- A name that is registered is that of a built-in type or of a type that the schema states. -/
theorem Within.stated (hs : s.Within g) {name : String} (h : s.find? name ≠ none) :
    name ∈ BuiltIn.names ∨ ∃ t ∈ s.definedTypes g, t.name = name := by
  obtain ⟨id, hid⟩ := Option.ne_none_iff_exists'.mp h
  have hmem : (name, id) ∈ s.typeMap := by
    obtain ⟨before, after, hsplit, -⟩ := List.lookup_eq_some_iff.mp hid
    rw [hsplit]
    simp
  obtain ⟨t, ht, hname⟩ := hs.types _ hmem
  by_cases hbuiltIn : name ∈ BuiltIn.names
  · exact Or.inl hbuiltIn
  · have hdefined : t.isDefined = true := by
      rw [TypeDef.isDefined, hname]
      simpa using hbuiltIn
    exact Or.inr ⟨t, mem_definedTypes.mpr ⟨⟨_, hmem, ht⟩, hdefined⟩, hname⟩

end Schema
end Subgraph
