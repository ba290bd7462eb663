import Subgraph.Proofs.TypeGraph.Walk
import Subgraph.Proofs.Workspace.Growth

/-!
# `Schema.Resolution` — which references of a schema are settled

Two things go through the references of types, and neither knows of the other: the walk that fills a
schema follows them, and the check of references lists them kind by kind. They agree: in a schema as it
is built every name that a type refers to is registered, and for the type that is meant
(`find?_of_refers`). The names of a built schema are distinct, so removing some of them takes away these
and no others (`find?_of_removeTypes`). What remains is in order iff nothing in it refers to a type that
was removed (`built_schema_resolved`).
-/

namespace Subgraph
namespace Schema

variable {s s' : Schema} {g : TypeGraph}

/-! ## Types by name -/

/-- With distinct keys an entry is what is found under its key. -/
theorem lookup_of_mem {α : Type} {entries : List (String × α)} (hdistinct : (entries.map (·.1)).Nodup)
    {n : String} {a : α} (h : (n, a) ∈ entries) : entries.lookup n = some a := by
  obtain ⟨before, after, rfl⟩ := List.append_of_mem h
  rw [List.map_append, List.nodup_append] at hdistinct
  refine List.lookup_eq_some_iff.mpr ⟨before, after, rfl, fun p hp => ?_⟩
  have hne : p.1 ≠ n := hdistinct.2.2 p.1 (List.mem_map_of_mem hp) n List.mem_cons_self
  simpa using hne.symm

/-- Types are entered one after the other, and no name twice. -/
theorem nameTypes_eq_ok {ids : List TypeId} {named entries : List (String × TypeId)}
    (h : g.nameTypes named ids = .ok entries) :
    entries = named ++ ids.map (fun id => (g.nameOf id, id)) ∧
      ((named.map (·.1)).Nodup → (entries.map (·.1)).Nodup) := by
  induction ids generalizing named with
  | nil =>
    injection h with h
    subst h
    simp
  | cons id ids ih =>
    rw [TypeGraph.nameTypes] at h
    split at h
    · exact absurd h (by simp)
    · next hnew =>
      obtain ⟨rfl, hdistinct⟩ := ih h
      refine ⟨by simp, fun hnamed => hdistinct ?_⟩
      have hfresh : g.nameOf id ∉ named.map (·.1) := by simpa using hnew
      rw [List.map_append, List.nodup_append]
      refine ⟨hnamed, by simp, fun a ha b hb => ?_⟩
      obtain rfl : b = g.nameOf id := by simpa using hb
      rintro rfl
      exact hfresh ha

/-- **In a built schema a name that a type refers to is found,** and leads to the type that is meant. -/
theorem find?_of_refers {w : Workspace} (hw : w.graph.Closed) {roots : Roots}
    {description : Option String} {federation : Option Federation}
    (hstarts : ∀ k ∈ roots.starts, w.graph.Has k) (hextra : ∀ k ∈ roots.extra, w.graph.Has k)
    (hs : w.assemble roots description federation = .ok s) {t : TypeDef}
    (ht : t ∈ s.definedTypes w.graph) {id : TypeId} (hid : t.Refers id) :
    s.find? (w.graph.nameOf id) = some id := by
  obtain ⟨ids, typeMap, hids, hmap, rfl⟩ := assemble_eq_ok hs
  obtain ⟨rfl, hdistinct⟩ := nameTypes_eq_ok hmap
  rw [List.nil_append] at hdistinct ht ⊢
  obtain ⟨⟨p, hp, hpt⟩, -⟩ := mem_definedTypes.mp ht
  obtain ⟨k, hk, rfl⟩ := List.mem_map.mp hp
  have hmem : id ∈ ids := TypeGraph.settled_of_typesFrom hw hstarts hextra hids k hk t hpt id hid
  exact lookup_of_mem (hdistinct List.nodup_nil) (List.mem_map_of_mem hmem)

/-! ## Removing types -/

theorem find?_of_removeType {name : String} (h : s.removeType name = .ok s') (n : String) :
    s'.find? n = if n = name then none else s.find? n := by
  unfold removeType at h
  split at h
  · injection h with h
    rw [← h]
    exact lookup_filter_ne s.typeMap name n
  · exact absurd h (by simp)

/-- **Removing types takes away their names and no others.** -/
theorem find?_of_removeTypes {names : List String} (h : s.removeTypes names = .ok s') (n : String) :
    s'.find? n = if n ∈ names then none else s.find? n := by
  unfold removeTypes at h
  induction names generalizing s with
  | nil =>
    injection h with h
    simp [h]
  | cons name names ih =>
    rw [List.foldlM_cons] at h
    obtain ⟨s₁, hs₁, h⟩ := bind_eq_ok.mp h
    rw [ih h, find?_of_removeType hs₁]
    by_cases hn : n = name <;> simp [hn]

/-- Types can be removed by their names, once each. -/
theorem exists_removeTypes {names : List String} (hdistinct : names.Nodup)
    (hthere : ∀ n ∈ names, s.find? n ≠ none) : ∃ s', s.removeTypes names = .ok s' := by
  unfold removeTypes
  induction names generalizing s with
  | nil => exact ⟨s, rfl⟩
  | cons name names ih =>
    rw [List.nodup_cons] at hdistinct
    rw [List.forall_mem_cons] at hthere
    have hfirst : ∃ s₁, s.removeType name = .ok s₁ := by
      rw [removeType, if_pos (Option.isSome_iff_ne_none.mpr hthere.1)]
      exact ⟨_, rfl⟩
    obtain ⟨s₁, hs₁⟩ := hfirst
    have hrest : ∀ n ∈ names, s₁.find? n ≠ none := by
      intro n hn
      have hne : n ≠ name := fun h => hdistinct.1 (h ▸ hn)
      rw [find?_of_removeType hs₁, if_neg hne]
      exact hthere.2 n hn
    obtain ⟨s', hs'⟩ := ih hdistinct.2 hrest
    exact ⟨s', by rw [List.foldlM_cons, hs₁]; exact hs'⟩

/-- What remains of a schema states none but its types. -/
theorem definedTypes_of_removeTypes {names : List String} (h : s.removeTypes names = .ok s') :
    s'.definedTypes g ⊆ s.definedTypes g := by
  intro t ht
  obtain ⟨⟨p, hp, hpt⟩, hdefined⟩ := mem_definedTypes.mp ht
  exact mem_definedTypes.mpr ⟨⟨p, (removeTypes_subset h).1 hp, hpt⟩, hdefined⟩

/-! ## The check of references -/

/-- The check of references fails iff a type refers to a name that is not registered. -/
theorem checkReferences_fails_iff :
    (∃ f, s.checkReferences g = .error f) ↔
      ∃ t ∈ s.definedTypes g, ∃ id, t.Refers id ∧ s.find? (g.nameOf id) = none := by
  have hfirst : (∃ n, IsFirst (fun n => s.find? n = none) (s.referencedNames g) n) ↔
      ∃ n ∈ s.referencedNames g, s.find? n = none := exists_isFirst_iff
  simp only [checkReferences_eq_error]
  constructor
  · rintro ⟨f, n, -, hn⟩
    obtain ⟨n, hn, habsent⟩ := hfirst.mp ⟨n, hn⟩
    obtain ⟨t, ht, id, hid, rfl⟩ := mem_referencedNames.mp hn
    exact ⟨t, ht, id, hid, habsent⟩
  · rintro ⟨t, ht, id, hid, habsent⟩
    have hmem : g.nameOf id ∈ s.referencedNames g := mem_referencedNames.mpr ⟨t, ht, id, hid, rfl⟩
    obtain ⟨n, hn⟩ := hfirst.mpr ⟨_, hmem, habsent⟩
    exact ⟨_, n, rfl, hn⟩

/-- **A schema as it is built is closed under references, and stays so as far as removals leave it.**
When a federated schema has been built over types that refer to types that are there, the check of
references passes, and every name that a type refers to leads to this very type. Types can be removed by
any of the registered names; then the check fails iff a type that remains refers to one of them. -/
theorem built_schema_resolved {w w' : Workspace} (hw : w.graph.Closed) {roots : Roots}
    (hstarts : ∀ k ∈ roots.starts, w.graph.Has k) (hextra : ∀ k ∈ roots.extra, w.graph.Has k)
    {description : Option String} {version : Value} {catalog : Option CatalogId}
    (hb : w.buildFederated roots description version catalog = .ok (w', s)) :
    s.checkReferences w'.graph = .ok () ∧
      (∀ t ∈ s.definedTypes w'.graph, ∀ id, t.Refers id →
        s.resolve (w'.graph.nameOf id) = .ok id) ∧
      ∀ names : List String, names.Nodup → (∀ n ∈ names, s.find? n ≠ none) →
        ∃ s', s.removeTypes names = .ok s' ∧
          ((∃ f, s'.checkReferences w'.graph = .error f) ↔
            ∃ t ∈ s'.definedTypes w'.graph, ∃ id, t.Refers id ∧ w'.graph.nameOf id ∈ names) := by
  obtain ⟨⟨federation, hs, -⟩, rfl⟩ := Workspace.buildFederated_eq_ok hb
  rw [Workspace.freezeAll_graph]
  have hfind : ∀ t ∈ s.definedTypes w.graph, ∀ id, t.Refers id →
      s.find? (w.graph.nameOf id) = some id :=
    fun t ht id hid => find?_of_refers hw hstarts hextra hs ht hid
  refine ⟨checkReferences_eq_ok.mpr fun n hn => ?_, fun t ht id hid => ?_,
    fun names hdistinct hthere => ?_⟩
  · obtain ⟨t, ht, id, hid, rfl⟩ := mem_referencedNames.mp hn
    simp [hfind t ht id hid]
  · rw [resolve, hfind t ht id hid]
  · obtain ⟨s', hs'⟩ := exists_removeTypes hdistinct hthere
    refine ⟨s', hs', checkReferences_fails_iff.trans ?_⟩
    -- what remains referred to registered names before, so only removed ones can be missing
    have hmissing : ∀ t ∈ s'.definedTypes w.graph, ∀ id, t.Refers id →
        (s'.find? (w.graph.nameOf id) = none ↔ w.graph.nameOf id ∈ names) := by
      intro t ht id hid
      rw [find?_of_removeTypes hs', hfind t (definedTypes_of_removeTypes hs' ht) id hid]
      simp
    constructor
    · rintro ⟨t, ht, id, hid, habsent⟩
      exact ⟨t, ht, id, hid, (hmissing t ht id hid).mp habsent⟩
    · rintro ⟨t, ht, id, hid, hremoved⟩
      exact ⟨t, ht, id, hid, (hmissing t ht id hid).mpr hremoved⟩

/-! ## A knot

Types that refer to one another in circles: an interface to itself and to a union, the union to an object
that implements the interface, an input object to itself; and a type that nothing refers to. -/

/-- A field without arguments. -/
def knotField (name : String) (type : TypeRef) : Field := ⟨name, type, [], none, none, none⟩

/-- The types of the knot. -/
def knotTypes : List TypeDef :=
  [⟨"Query",
      .object []
        [⟨"nodes", .nonNull (.list (.named 14)),
          [⟨"by", .named 17, none, none, none, none⟩], none, none, none⟩],
      none, none⟩,
    ⟨"Node", .interface [] [knotField "next" (.named 14), knotField "any" (.named 16)], none, none⟩,
    ⟨"Leaf", .object [14] [knotField "next" (.named 14), knotField "any" (.named 16)], none, none⟩,
    ⟨"Any", .union [15], none, none⟩,
    ⟨"Filter", .inputObject false [⟨"all", .list (.nonNull (.named 17)), none, none, none, none⟩],
      none, none⟩,
    ⟨"Stray", .object [] [knotField "query" (.named 13)], none, none⟩]

/-- The workspace of the knot. -/
def knotWorkspace : Workspace where
  graph := ⟨(BuiltIn.types ++ knotTypes).toArray⟩

/-- What its schema is built from: the stray type is given besides the root. -/
def knotRoots : Roots where
  query := some 13
  extra := [18]

/-- Its schema. The types come in the order of the walk, that from the stray type first. -/
def knotSchema : Schema where
  typeMap :=
    [("Stray", 18), ("Query", 13), ("Node", 14), ("Any", 16), ("Leaf", 15), ("Filter", 17),
      ("__Schema", 5), ("String", 0), ("__Type", 8), ("__TypeKind", 12), ("__Field", 9),
      ("__InputValue", 10), ("Boolean", 3), ("__EnumValue", 11), ("__Directive", 6),
      ("__DirectiveLocation", 7)]
  query := some 13
  federation := some {}

/-- What its types refer to, by their indices. -/
def knotSteps : List (List TypeId) :=
  [[], [], [], [], [], [0, 8, 8, 8, 8, 6], [0, 0, 3, 7, 10, 3], [],
    [12, 0, 0, 0, 9, 3, 8, 8, 11, 3, 10, 3, 8, 3], [0, 0, 10, 3, 8, 3, 0], [0, 0, 8, 0, 3, 0],
    [0, 0, 3, 0], [], [14, 17], [14, 16], [14, 14, 16], [15], [17], [13]]

theorem knot_steps : ∀ id ∈ List.range 19,
    knotWorkspace.graph.steps id = (knotSteps.getD id []).map .ok :=
  List.map_inj_left.mp (by rfl)

theorem knot_unseen (seen : List TypeId) :
    knotWorkspace.graph.unseen seen =
      [0, 1, 2, 3, 4, 5, 6, 7, 8, 9, 10, 11, 12, 13, 14, 15, 16, 17, 18].filter
        fun id => !seen.contains id := rfl

/-- The walk from the stray type goes through the knot. -/
theorem knot_extra :
    knotWorkspace.graph.collectExtra knotRoots.extra = .ok [18, 13, 14, 16, 15, 17] := by
  have hdups : List.eraseDups [18] = [18] := by rfl
  simp [TypeGraph.collectExtra, TypeGraph.collectAgain, TypeGraph.collect, TypeGraph.walk, knotRoots,
    hdups, knot_unseen, knot_steps, knotSteps]

theorem knot_types :
    knotWorkspace.graph.typesFrom knotRoots =
      .ok [18, 13, 14, 16, 15, 17, 5, 0, 8, 12, 9, 10, 3, 11, 6, 7] := by
  have hstarts : knotRoots.starts = [13, 5] := by rfl
  simp [TypeGraph.typesFrom, TypeGraph.collectAll, TypeGraph.collect, TypeGraph.walk, hstarts,
    knot_extra, knot_unseen, knot_steps, knotSteps]

theorem knot_built :
    knotWorkspace.buildFederated knotRoots none .null none = .ok (knotWorkspace, knotSchema) := by
  have htarget : Target.initial .null = .ok {} := by rfl
  simp only [Workspace.buildFederated, Workspace.assemble, htarget, knot_types]
  rfl

/-- `built_schema_resolved` at the knot: it is closed, and without the union the check fails. -/
theorem built_schema_resolved_knot :
    knotWorkspace.graph.Closed ∧
      knotWorkspace.buildFederated knotRoots none .null none = .ok (knotWorkspace, knotSchema) ∧
      knotSchema.checkReferences knotWorkspace.graph = .ok () ∧
      ∃ s', knotSchema.removeTypes ["Any"] = .ok s' ∧
        ∃ f, s'.checkReferences knotWorkspace.graph = .error f := by
  have hclosed : knotWorkspace.graph.Closed := by
    have hall : ∀ t ∈ BuiltIn.types ++ knotTypes, ∀ k ∈ t.referenced, k < 19 := by decide +kernel
    intro id t ht k hk
    have htypes : (BuiltIn.types ++ knotTypes).toArray[id]? = some t := ht
    rw [List.getElem?_toArray] at htypes
    exact TypeGraph.has_iff_lt.mpr (hall t (List.mem_of_getElem? htypes) k (TypeDef.mem_referenced.mpr hk))
  have hstarts : ∀ k ∈ knotRoots.starts, knotWorkspace.graph.Has k := by
    have hall : ∀ k ∈ knotRoots.starts, k < 19 := by decide
    exact fun k hk => TypeGraph.has_iff_lt.mpr (hall k hk)
  have hextra : ∀ k ∈ knotRoots.extra, knotWorkspace.graph.Has k := by
    have hall : ∀ k ∈ knotRoots.extra, k < 19 := by decide
    exact fun k hk => TypeGraph.has_iff_lt.mpr (hall k hk)
  obtain ⟨hcheck, -, hremoved⟩ := built_schema_resolved hclosed hstarts hextra knot_built
  obtain ⟨s', hs', hfails⟩ := hremoved ["Any"] (by decide) (by decide)
  refine ⟨hclosed, knot_built, hcheck, s', hs', hfails.mpr ?_⟩
  -- the interface goes on referring to the union
  have hremaining : s' = { knotSchema with typeMap := knotSchema.typeMap.filter (·.1 != "Any") } :=
    (Except.ok.inj hs').symm
  refine ⟨⟨"Node", .interface [] [knotField "next" (.named 14), knotField "any" (.named 16)], none,
    none⟩, ?_, 16, .field (f := knotField "any" (.named 16)) ?_, by decide⟩
  · rw [hremaining]
    exact mem_definedTypes.mpr ⟨⟨("Node", 14), by decide, by rfl⟩, by decide⟩
  · exact List.mem_cons_of_mem _ List.mem_cons_self

end Schema
end Subgraph
