import Subgraph.Proofs.Schema.Checks

/-!
# `TypeGraph.Closed` — graphs that refer to nothing outside, and graphs that grow

A type refers to others by their indices, and nothing in a graph keeps an index from pointing outside.
In a `Closed` graph none does. Closed graphs are what makes growing harmless: a graph that `Extends`
another has the same types under the old indices, so a reference that had a type keeps it, with its
name and its body.

Contents

* `Has`, `Covers`, `Closed`, `Extends` — the notions, with the built-in graph closed (`initial_closed`);
* `type?_eq`, `nameOf_eq`, `refText_eq` — what an extension leaves as it is;
* `addTypes`, `addTypes_closed` — a block of types that refer to one another;
* `mem_of_walk`, `has_of_typesFrom` — the walk through a graph meets nothing outside.
-/

namespace Subgraph
namespace TypeGraph

/-- There is a type under an index. -/
def Has (g : TypeGraph) (id : TypeId) : Prop := ∃ t, g.type? id = some t

/-- Every type that a type refers to is there. -/
def Covers (g : TypeGraph) (t : TypeDef) : Prop := ∀ id, t.Refers id → g.Has id

/-- No type refers to one that is not there. -/
def Closed (g : TypeGraph) : Prop := ∀ id t, g.type? id = some t → g.Covers t

/-- Every type of `g` is in `g'`, under the same index. -/
def Extends (g g' : TypeGraph) : Prop := ∀ id t, g.type? id = some t → g'.type? id = some t

variable {g g' g'' : TypeGraph} {id : TypeId}

theorem has_iff_lt : g.Has id ↔ id < g.types.size := by
  unfold Has type?
  constructor
  · rintro ⟨t, ht⟩
    exact (Array.getElem?_eq_some_iff.mp ht).1
  · intro h
    exact ⟨g.types[id], Array.getElem?_eq_getElem h⟩

/-- The built-in types refer to built-in types only. -/
theorem initial_closed : Closed {} := by
  have hall : ∀ t ∈ BuiltIn.types, ∀ k ∈ t.referenced, k < BuiltIn.types.length := by
    decide +kernel
  intro id t ht k hk
  have hmem : t ∈ BuiltIn.types := by
    have htypes : BuiltIn.types.toArray[id]? = some t := ht
    rw [List.getElem?_toArray] at htypes
    exact List.mem_of_getElem? htypes
  have hlt : k < BuiltIn.types.length := hall t hmem k (TypeDef.mem_referenced.mpr hk)
  rw [has_iff_lt]
  simpa using hlt

/-! ## Extensions -/

theorem Extends.refl (g : TypeGraph) : g.Extends g := fun _ _ h => h

theorem Extends.trans (h : g.Extends g') (h' : g'.Extends g'') : g.Extends g'' :=
  fun id t ht => h' id t (h id t ht)

theorem Has.extends (hid : g.Has id) (h : g.Extends g') : g'.Has id := by
  obtain ⟨t, ht⟩ := hid
  exact ⟨t, h id t ht⟩

theorem Covers.extends {t : TypeDef} (ht : g.Covers t) (h : g.Extends g') : g'.Covers t :=
  fun id hid => (ht id hid).extends h

/-- Under an index that has a type, an extension has the same. -/
theorem type?_eq (h : g.Extends g') (hid : g.Has id) : g'.type? id = g.type? id := by
  obtain ⟨t, ht⟩ := hid
  rw [ht, h id t ht]

theorem nameOf_eq (h : g.Extends g') (hid : g.Has id) : g'.nameOf id = g.nameOf id := by
  rw [nameOf, nameOf, type?_eq h hid]

theorem map_nameOf_eq (h : g.Extends g') {ids : List TypeId} (hids : ∀ id ∈ ids, g.Has id) :
    ids.map g'.nameOf = ids.map g.nameOf :=
  List.map_congr_left fun id hid => nameOf_eq h (hids id hid)

/-- A reference is written as before. -/
theorem refText_eq (h : g.Extends g') {r : TypeRef} (hr : g.Has r.base) :
    g'.refText r = g.refText r := by
  induction r with
  | named id => exact nameOf_eq h hr
  | list of ih => rw [refText, refText, ih hr]
  | nonNull of ih => rw [refText, refText, ih hr]

/-! ## Growing -/

/-- A graph with several more types, which come under the next indices. -/
def addTypes (g : TypeGraph) (ts : List TypeDef) : TypeGraph := ⟨g.types ++ ts.toArray⟩

theorem addTypes_size (g : TypeGraph) (ts : List TypeDef) :
    (g.addTypes ts).types.size = g.types.size + ts.length := by
  simp [addTypes]

theorem addTypes_extends (g : TypeGraph) (ts : List TypeDef) : g.Extends (g.addTypes ts) := by
  intro id t ht
  have hlt : id < g.types.size := has_iff_lt.mp ⟨t, ht⟩
  have hsame : (g.types ++ ts.toArray)[id]? = g.types[id]? := Array.getElem?_append_left hlt
  exact hsame.trans ht

/-- A type of the larger graph is an old one or one of those that were added. -/
theorem type?_addTypes {ts : List TypeDef} {t : TypeDef}
    (h : (g.addTypes ts).type? id = some t) : g.type? id = some t ∨ t ∈ ts := by
  unfold type? addTypes at h
  rw [Array.getElem?_append] at h
  split at h
  · exact Or.inl h
  · rw [List.getElem?_toArray] at h
    exact Or.inr (List.mem_of_getElem? h)

/-- **A graph stays closed** if the types that are added refer to old types and to one another. -/
theorem addTypes_closed (hg : g.Closed) {ts : List TypeDef}
    (hts : ∀ t ∈ ts, ∀ k, t.Refers k → k < g.types.size + ts.length) : (g.addTypes ts).Closed := by
  intro id t ht
  rcases type?_addTypes ht with hold | hnew
  · exact (hg id t hold).extends (addTypes_extends g ts)
  · intro k hk
    rw [has_iff_lt, addTypes_size]
    exact hts t hnew k hk

/-! ## Walks -/

/-- A walk meets only types that remained to be seen. -/
theorem mem_of_walk {remaining : List TypeId} {pending : List (Except Fault TypeId)}
    {met : List TypeId} (h : g.walk remaining pending = .ok met) : ∀ k ∈ met, k ∈ remaining := by
  induction remaining, pending using walk.induct g generalizing met with
  | case1 remaining =>
    rw [walk] at h
    injection h with h
    subst h
    intro k hk
    exact absurd hk (by simp)
  | case2 remaining f rest =>
    rw [walk] at h
    exact absurd h (by simp)
  | case3 remaining id rest hid met' hrest ih =>
    rw [walk, dif_pos hid, hrest] at h
    injection h with h
    subst h
    intro k hk
    rcases List.mem_cons.mp hk with rfl | hk
    · exact hid
    · exact List.mem_of_mem_erase (ih hrest k hk)
  | case4 remaining id rest hid f hrest ih =>
    rw [walk, dif_pos hid, hrest] at h
    exact absurd h (by simp)
  | case5 remaining id rest hid ih =>
    rw [walk, dif_neg hid] at h
    exact ih h

/-- A walk behind types that have been seen adds types of the graph. -/
theorem has_of_collect {seen seen' : List TypeId} {root : TypeId}
    (h : g.collect seen root = .ok seen') : ∀ k ∈ seen', k ∈ seen ∨ g.Has k := by
  unfold collect at h
  cases hwalk : g.walk (g.unseen seen) [.ok root] with
  | error f => rw [hwalk] at h; exact absurd h (by simp)
  | ok met =>
    rw [hwalk] at h
    injection h with h
    subst h
    intro k hk
    rcases List.mem_append.mp hk with hk | hk
    · exact Or.inl hk
    · have hunseen : k ∈ g.unseen seen := mem_of_walk hwalk k hk
      have hrange : k ∈ List.range g.types.size := (List.mem_filter.mp hunseen).1
      exact Or.inr (has_iff_lt.mpr (List.mem_range.mp hrange))

/-- Walks from several types succeed iff the first does and the others do behind it. -/
theorem collectAll_cons_eq_ok {root : TypeId} {roots seen seen' : List TypeId} :
    g.collectAll seen (root :: roots) = .ok seen' ↔
      ∃ seen₁, g.collect seen root = .ok seen₁ ∧ g.collectAll seen₁ roots = .ok seen' := by
  rw [collectAll]
  cases g.collect seen root <;> simp

theorem collectAgain_cons_eq_ok {root : TypeId} {roots seen seen' : List TypeId} :
    g.collectAgain seen (root :: roots) = .ok seen' ↔
      ∃ seen₁, g.collect (seen.erase root) root = .ok seen₁ ∧
        g.collectAgain seen₁ roots = .ok seen' := by
  rw [collectAgain]
  cases g.collect (seen.erase root) root <;> simp

theorem has_of_collectAll {roots seen seen' : List TypeId}
    (h : g.collectAll seen roots = .ok seen') : ∀ k ∈ seen', k ∈ seen ∨ g.Has k := by
  induction roots generalizing seen with
  | nil =>
    injection h with h
    subst h
    exact fun k hk => Or.inl hk
  | cons root roots ih =>
    obtain ⟨seen₁, hroot, h⟩ := collectAll_cons_eq_ok.mp h
    intro k hk
    rcases ih h k hk with hk | hk
    · exact has_of_collect hroot k hk
    · exact Or.inr hk

theorem has_of_collectAgain {roots seen seen' : List TypeId}
    (h : g.collectAgain seen roots = .ok seen') : ∀ k ∈ seen', k ∈ seen ∨ g.Has k := by
  induction roots generalizing seen with
  | nil =>
    injection h with h
    subst h
    exact fun k hk => Or.inl hk
  | cons root roots ih =>
    obtain ⟨seen₁, hroot, h⟩ := collectAgain_cons_eq_ok.mp h
    intro k hk
    rcases ih h k hk with hk | hk
    · exact (has_of_collect hroot k hk).imp_left List.mem_of_mem_erase
    · exact Or.inr hk

/-- **Every type of a schema is in the graph**, if those are that it is given besides its roots. -/
theorem has_of_typesFrom {r : Roots} {ids : List TypeId} (h : g.typesFrom r = .ok ids)
    (hextra : ∀ k ∈ r.extra, g.Has k) : ∀ k ∈ ids, g.Has k := by
  unfold typesFrom at h
  cases hseen : g.collectExtra r.extra with
  | error f => rw [hseen] at h; exact absurd h (by simp)
  | ok seen =>
    rw [hseen] at h
    intro k hk
    rcases has_of_collectAll h k hk with hk | hk
    · rcases has_of_collectAgain hseen k hk with hk | hk
      · exact hextra k (List.mem_eraseDups.mp hk)
      · exact hk
    · exact hk

end TypeGraph
end Subgraph
