import Subgraph.Proofs.Schema.Resolution

/-!
# `TypeGraph.Reached` — the types of a schema are those that its roots reach

What a schema holds is computed by walks with a list of what has been seen. Without them it is said in two
rules (`Reached`): a schema reaches what it is built from, and what a type refers to that it reaches. The
walks meet exactly that (`mem_typesFrom_iff`). Nothing else is met, since every step of a walk is a
reference (`of_walk`); and nothing is left out, since all that is met is settled in the end.

So an element belongs to a schema iff it is that of a part of a type that is reached and not built in
(`mem_elements_iff`), however types and elements are shared and however the references run in circles.
-/

namespace Subgraph
namespace TypeGraph

variable {g : TypeGraph} {r : Roots} {P : TypeId → Prop}

/-- The types that are reached from the roots of a schema. -/
inductive Reached (g : TypeGraph) (r : Roots) : TypeId → Prop where
  | extra {id : TypeId} (h : id ∈ r.extra) : Reached g r id
  | start {id : TypeId} (h : id ∈ r.starts) : Reached g r id
  | refers {id k : TypeId} {t : TypeDef} (h : Reached g r id) (ht : g.type? id = some t)
    (hk : t.Refers k) : Reached g r k

/-! ## Nothing else is met -/

/-- What follows behind a check is one of the references. -/
theorem mem_of_guarded {check : Except Fault Unit} {ids : List TypeId} {k : TypeId}
    (h : Except.ok k ∈ guarded check ids) : k ∈ ids := by
  cases check with
  | error f => exact absurd h (by simp [guarded])
  | ok => simpa [guarded] using h

/-- **Every step is a reference.** -/
theorem refers_of_step {id k : TypeId} (h : Except.ok k ∈ g.steps id) :
    ∃ t, g.type? id = some t ∧ t.Refers k := by
  unfold steps at h
  cases ht : g.type? id with
  | none =>
    rw [ht] at h
    exact absurd h (by simp)
  | some t =>
    refine ⟨t, rfl, TypeDef.mem_referenced.mp ?_⟩
    unfold TypeDef.referenced
    rw [ht] at h
    simp only at h
    cases hb : t.body with
    | scalar | enum =>
      rw [hb] at h
      exact absurd h (by simp)
    | union members =>
      rw [hb] at h
      exact mem_of_guarded h
    | inputObject oneOf fields =>
      rw [hb] at h
      exact mem_of_guarded h
    | object interfaces fields | interface interfaces fields =>
      simp only [hb, List.mem_append] at h
      rw [List.mem_append]
      exact h.imp mem_of_guarded mem_of_guarded

/-- The types with a property that every step from one of them keeps. -/
def Carried (g : TypeGraph) (P : TypeId → Prop) : Prop :=
  ∀ id, P id → ∀ k, Except.ok k ∈ g.steps id → P k

theorem reached_carried (g : TypeGraph) (r : Roots) : g.Carried (g.Reached r) := by
  intro id hid k hk
  obtain ⟨t, ht, hrefers⟩ := refers_of_step hk
  exact .refers hid ht hrefers

/-- A walk from references with such a property meets types with this property. -/
theorem Carried.of_walk (hP : g.Carried P) {remaining : List TypeId}
    {pending : List (Except Fault TypeId)} {met : List TypeId}
    (h : g.walk remaining pending = .ok met) (hpending : ∀ k, Except.ok k ∈ pending → P k) :
    ∀ k ∈ met, P k := by
  induction remaining, pending using walk.induct g generalizing met with
  | case1 remaining =>
    rw [walk] at h
    injection h with h
    subst h
    exact fun k hk => absurd hk (by simp)
  | case2 remaining f rest =>
    rw [walk] at h
    exact absurd h (by simp)
  | case3 remaining id rest hid met' hrest ih =>
    rw [walk, dif_pos hid, hrest] at h
    injection h with h
    subst h
    have hhere : P id := hpending id List.mem_cons_self
    -- what follows the type that is met has the property as well
    have hmet : ∀ k ∈ met', P k := by
      refine ih hrest fun k hk => ?_
      rcases List.mem_append.mp hk with hk | hk
      · exact hP id hhere k hk
      · exact hpending k (List.mem_cons_of_mem _ hk)
    rw [List.forall_mem_cons]
    exact ⟨hhere, hmet⟩
  | case4 remaining id rest hid f hrest ih =>
    rw [walk, dif_pos hid, hrest] at h
    exact absurd h (by simp)
  | case5 remaining id rest hid ih =>
    rw [walk, dif_neg hid] at h
    exact ih h fun k hk => hpending k (List.mem_cons_of_mem _ hk)

theorem Carried.of_collect (hP : g.Carried P) {seen seen' : List TypeId} {root : TypeId}
    (h : g.collect seen root = .ok seen') (hseen : ∀ k ∈ seen, P k) (hroot : P root) :
    ∀ k ∈ seen', P k := by
  obtain ⟨met, hwalk, rfl⟩ := collect_eq_ok h
  have hmet : ∀ k ∈ met, P k := by
    refine hP.of_walk hwalk fun k hk => ?_
    rw [List.mem_singleton] at hk
    exact Except.ok.inj hk ▸ hroot
  intro k hk
  exact (List.mem_append.mp hk).elim (hseen k) (hmet k)

theorem Carried.of_collectAll (hP : g.Carried P) {roots seen seen' : List TypeId}
    (h : g.collectAll seen roots = .ok seen') (hseen : ∀ k ∈ seen, P k) (hroots : ∀ k ∈ roots, P k) :
    ∀ k ∈ seen', P k := by
  induction roots generalizing seen with
  | nil =>
    injection h with h
    exact h ▸ hseen
  | cons root roots ih =>
    rw [List.forall_mem_cons] at hroots
    obtain ⟨seen₁, hroot, h⟩ := collectAll_cons_eq_ok.mp h
    exact ih h (hP.of_collect hroot hseen hroots.1) hroots.2

theorem Carried.of_collectAgain (hP : g.Carried P) {roots seen seen' : List TypeId}
    (h : g.collectAgain seen roots = .ok seen') (hseen : ∀ k ∈ seen, P k)
    (hroots : ∀ k ∈ roots, P k) : ∀ k ∈ seen', P k := by
  induction roots generalizing seen with
  | nil =>
    injection h with h
    exact h ▸ hseen
  | cons root roots ih =>
    rw [List.forall_mem_cons] at hroots
    obtain ⟨seen₁, hroot, h⟩ := collectAgain_cons_eq_ok.mp h
    have hrest : ∀ k ∈ seen.erase root, P k := fun k hk => hseen k (List.mem_of_mem_erase hk)
    exact ih h (hP.of_collect hroot hrest hroots.1) hroots.2

/-! ## Nothing is left out -/

/-- Walks from several types meet each of them. -/
theorem subset_of_collectAll (hg : g.Closed) {roots seen seen' : List TypeId}
    (hroots : ∀ k ∈ roots, g.Has k) (h : g.collectAll seen roots = .ok seen') : roots ⊆ seen' := by
  induction roots generalizing seen with
  | nil => exact List.nil_subset _
  | cons root roots ih =>
    rw [List.forall_mem_cons] at hroots
    obtain ⟨seen₁, hroot, h⟩ := collectAll_cons_eq_ok.mp h
    obtain ⟨hmem, -⟩ := collect_settled hg hroots.1 hroot
    obtain ⟨hsub, -⟩ := collectAll_settled hg hroots.2 h
    rw [List.cons_subset]
    exact ⟨hsub hmem, ih hroots.2 h⟩

/-- Types that count as seen are put back when they have been taken out. -/
theorem subset_of_collectAgain (hg : g.Closed) {roots seen seen' : List TypeId}
    (hroots : ∀ k ∈ roots, g.Has k) (h : g.collectAgain seen roots = .ok seen') : seen ⊆ seen' := by
  induction roots generalizing seen with
  | nil =>
    injection h with h
    exact h ▸ List.Subset.refl _
  | cons root roots ih =>
    rw [List.forall_mem_cons] at hroots
    obtain ⟨seen₁, hroot, h⟩ := collectAgain_cons_eq_ok.mp h
    obtain ⟨hmem, -⟩ := collect_settled hg hroots.1 hroot
    refine List.Subset.trans (fun k hk => ?_) (ih hroots.2 h)
    by_cases hk' : k = root
    · exact hk' ▸ hmem
    · exact subset_of_collect hroot ((List.mem_erase_of_ne hk').mpr hk)

/-- **The types of a schema are those that are reached.** -/
theorem mem_typesFrom_iff (hg : g.Closed) {ids : List TypeId} (hstarts : ∀ k ∈ r.starts, g.Has k)
    (hextra : ∀ k ∈ r.extra, g.Has k) (h : g.typesFrom r = .ok ids) {k : TypeId} :
    k ∈ ids ↔ g.Reached r k := by
  have hsettled := settled_of_typesFrom hg hstarts hextra h
  unfold typesFrom at h
  cases hseen : g.collectExtra r.extra with
  | error f => rw [hseen] at h; exact absurd h (by simp)
  | ok seen =>
    rw [hseen] at h
    constructor
    · have hcarried := reached_carried g r
      have hextra' : ∀ k ∈ seen, g.Reached r k := by
        refine hcarried.of_collectAgain hseen (fun k hk => ?_) fun k hk => .extra hk
        exact .extra (List.mem_eraseDups.mp hk)
      exact hcarried.of_collectAll h hextra' (fun k hk => .start hk) k
    · intro hk
      obtain ⟨hsub, -⟩ := collectAll_settled hg hstarts h
      induction hk with
      | extra hk => exact hsub (subset_of_collectAgain hg hextra hseen (List.mem_eraseDups.mpr hk))
      | start hk => exact subset_of_collectAll hg hstarts h hk
      | refers _ ht hk ih => exact hsettled _ ih _ ht _ hk

end TypeGraph

namespace Schema

/-- **An element belongs to a built schema** iff it is that of a part of a type that is reached and not
built in. -/
theorem mem_elements_iff {w : Workspace} {s : Schema} (hg : w.graph.Closed) {roots : Roots}
    {description : Option String} {federation : Option Federation}
    (hstarts : ∀ k ∈ roots.starts, w.graph.Has k) (hextra : ∀ k ∈ roots.extra, w.graph.Has k)
    (hs : w.assemble roots description federation = .ok s) {id : ElementId} :
    id ∈ s.elements w.graph ↔ ∃ k t, w.graph.Reached roots k ∧ w.graph.type? k = some t ∧
      t.isDefined = true ∧ ∃ part ∈ t.parts, part.element = some id := by
  obtain ⟨ids, typeMap, hids, hmap, rfl⟩ := assemble_eq_ok hs
  obtain ⟨rfl, -⟩ := nameTypes_eq_ok hmap
  rw [mem_elements]
  constructor
  · rintro ⟨part, hpart, he⟩
    obtain ⟨t, ht, hpart⟩ := List.mem_flatMap.mp hpart
    obtain ⟨⟨p, hp, hpt⟩, hdefined⟩ := mem_definedTypes.mp ht
    rw [List.nil_append] at hp
    obtain ⟨k, hk, rfl⟩ := List.mem_map.mp hp
    have hreached := (TypeGraph.mem_typesFrom_iff hg hstarts hextra hids).mp hk
    exact ⟨k, t, hreached, hpt, hdefined, part, hpart, he⟩
  · rintro ⟨k, t, hreached, hkt, hdefined, part, hpart, he⟩
    have hk := (TypeGraph.mem_typesFrom_iff hg hstarts hextra hids).mpr hreached
    have hentry : (w.graph.nameOf k, k) ∈ [] ++ ids.map fun id => (w.graph.nameOf id, id) :=
      List.mem_map_of_mem hk
    refine ⟨part, List.mem_flatMap.mpr ⟨t, mem_definedTypes.mpr ⟨?_, hdefined⟩, hpart⟩, he⟩
    exact ⟨_, hentry, hkt⟩

end Schema
end Subgraph
