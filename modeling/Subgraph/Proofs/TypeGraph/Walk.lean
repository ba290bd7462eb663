import Subgraph.Proofs.TypeGraph.Closed

/-!
# `TypeGraph.Walk` — walks leave no reference behind

A walk meets what is pending and goes on with what follows the types that it meets, each at most once.
So what a type that was met refers to has been met as well, or had been seen before the walk began
(`handled_of_walk`): the graph may be cyclic, since a type that is met a second time has its references
pending already.

Walks are strung together behind a list of the types seen so far. A type is `Settled` if all that it
refers to has been seen. Walks from further types settle what they add (`collectAll_settled`). Types
that are given besides the roots count as seen before they are settled; each is settled when its turn
comes, which takes that it is taken out of its place first and that no other copy of it is there
(`collectAgain_settled`). In the end every type of a schema is settled (`settled_of_typesFrom`).
-/

namespace Subgraph
namespace TypeGraph

variable {g : TypeGraph}

/-! ## What follows a type -/

/-- Behind a check that passes the references follow. -/
theorem guarded_eq_map {check : Except Fault Unit} {ids : List TypeId}
    (h : ∀ f, Except.error f ∉ guarded check ids) : guarded check ids = ids.map .ok := by
  cases check with
  | ok => rfl
  | error f => exact absurd List.mem_cons_self (h f)

/-- **A type that is in order is followed by what it refers to**, in this order. -/
theorem steps_eq_map {id : TypeId} {t : TypeDef} (ht : g.type? id = some t)
    (h : ∀ f, Except.error f ∉ g.steps id) : g.steps id = t.referenced.map .ok := by
  unfold steps TypeDef.referenced at *
  rw [ht] at h ⊢
  simp only at h ⊢
  cases hb : t.body with
  | scalar | enum => rfl
  | union members =>
    simp only [hb] at h ⊢
    exact guarded_eq_map h
  | inputObject oneOf fields =>
    simp only [hb] at h ⊢
    exact guarded_eq_map h
  | object interfaces fields | interface interfaces fields =>
    simp only [hb, List.mem_append, not_or] at h ⊢
    rw [guarded_eq_map fun f => (h f).1, guarded_eq_map fun f => (h f).2, List.map_append]

/-! ## One walk -/

/-- What a walk has done about something pending: it is a reference, and that has been met or was none
of those that remained. -/
def Handled (remaining met : List TypeId) (x : Except Fault TypeId) : Prop :=
  ∃ id, x = .ok id ∧ (id ∈ met ∨ id ∉ remaining)

/-- What the rest of a walk has handled, the walk has. -/
theorem Handled.of_erase {remaining met : List TypeId} {id : TypeId} {x : Except Fault TypeId}
    (h : Handled (remaining.erase id) met x) : Handled remaining (id :: met) x := by
  obtain ⟨k, rfl, hk⟩ := h
  refine ⟨k, rfl, ?_⟩
  by_cases hid : k = id
  · exact Or.inl (hid ▸ List.mem_cons_self)
  · exact hk.imp (List.mem_cons_of_mem id) fun hk hmem => hk ((List.mem_erase_of_ne hid).mpr hmem)

/-- **A walk that succeeds handles all that is pending and all that follows a type that it meets.** -/
theorem handled_of_walk {remaining : List TypeId} {pending : List (Except Fault TypeId)}
    {met : List TypeId} (h : g.walk remaining pending = .ok met) :
    (∀ x ∈ pending, Handled remaining met x) ∧
      ∀ k ∈ met, ∀ x ∈ g.steps k, Handled remaining met x := by
  induction remaining, pending using walk.induct g generalizing met with
  | case1 remaining =>
    rw [walk] at h
    injection h with h
    subst h
    exact ⟨fun x hx => absurd hx (by simp), fun k hk => absurd hk (by simp)⟩
  | case2 remaining f rest =>
    rw [walk] at h
    exact absurd h (by simp)
  | case3 remaining id rest hid met' hrest ih =>
    rw [walk, dif_pos hid, hrest] at h
    injection h with h
    subst h
    obtain ⟨hpending, hmet⟩ := ih hrest
    refine ⟨fun x hx => ?_, fun k hk x hx => ?_⟩
    · rcases List.mem_cons.mp hx with rfl | hx
      · exact ⟨id, rfl, Or.inl List.mem_cons_self⟩
      · exact (hpending x (List.mem_append_right _ hx)).of_erase
    · rcases List.mem_cons.mp hk with rfl | hk
      · -- what follows the type that is met becomes pending
        exact (hpending x (List.mem_append_left _ hx)).of_erase
      · exact (hmet k hk x hx).of_erase
  | case4 remaining id rest hid f hrest ih =>
    rw [walk, dif_pos hid, hrest] at h
    exact absurd h (by simp)
  | case5 remaining id rest hid ih =>
    rw [walk, dif_neg hid] at h
    obtain ⟨hpending, hmet⟩ := ih h
    refine ⟨fun x hx => ?_, hmet⟩
    rcases List.mem_cons.mp hx with rfl | hx
    · exact ⟨id, rfl, Or.inr hid⟩
    · exact hpending x hx

/-- A walk meets no type twice. -/
theorem nodup_of_walk {remaining : List TypeId} {pending : List (Except Fault TypeId)}
    {met : List TypeId} (h : g.walk remaining pending = .ok met) (hr : remaining.Nodup) :
    met.Nodup := by
  induction remaining, pending using walk.induct g generalizing met with
  | case1 remaining =>
    rw [walk] at h
    injection h with h
    subst h
    exact List.nodup_nil
  | case2 remaining f rest =>
    rw [walk] at h
    exact absurd h (by simp)
  | case3 remaining id rest hid met' hrest ih =>
    rw [walk, dif_pos hid, hrest] at h
    injection h with h
    subst h
    refine List.nodup_cons.mpr ⟨fun hmem => ?_, ih hrest (hr.erase id)⟩
    exact hr.not_mem_erase (mem_of_walk hrest id hmem)
  | case4 remaining id rest hid f hrest ih =>
    rw [walk, dif_pos hid, hrest] at h
    exact absurd h (by simp)
  | case5 remaining id rest hid ih =>
    rw [walk, dif_neg hid] at h
    exact ih h hr

/-! ## Walks strung together -/

/-- All that a type refers to has been seen. -/
def Settled (g : TypeGraph) (seen : List TypeId) (id : TypeId) : Prop :=
  ∀ t, g.type? id = some t → ∀ k, t.Refers k → k ∈ seen

theorem Settled.subset {seen seen' : List TypeId} {id : TypeId} (h : g.Settled seen id)
    (hsub : seen ⊆ seen') : g.Settled seen' id :=
  fun t ht k hk => hsub (h t ht k hk)

/-- A type that is there has been seen or remains. -/
theorem mem_unseen_iff {seen : List TypeId} {id : TypeId} :
    id ∈ g.unseen seen ↔ g.Has id ∧ id ∉ seen := by
  simp [unseen, has_iff_lt]

theorem nodup_unseen (g : TypeGraph) (seen : List TypeId) : (g.unseen seen).Nodup :=
  List.nodup_range.filter _

/-- What the walk behind a list is. -/
theorem collect_eq_ok {seen seen' : List TypeId} {root : TypeId} (h : g.collect seen root = .ok seen') :
    ∃ met, g.walk (g.unseen seen) [.ok root] = .ok met ∧ seen' = seen ++ met := by
  unfold collect at h
  cases hwalk : g.walk (g.unseen seen) [.ok root] with
  | error f => rw [hwalk] at h; exact absurd h (by simp)
  | ok met =>
    rw [hwalk] at h
    injection h with h
    exact ⟨met, rfl, h.symm⟩

theorem subset_of_collect {seen seen' : List TypeId} {root : TypeId}
    (h : g.collect seen root = .ok seen') : seen ⊆ seen' := by
  obtain ⟨met, -, rfl⟩ := collect_eq_ok h
  exact List.subset_append_left _ _

theorem nodup_of_collect {seen seen' : List TypeId} {root : TypeId}
    (h : g.collect seen root = .ok seen') (hs : seen.Nodup) : seen'.Nodup := by
  obtain ⟨met, hwalk, rfl⟩ := collect_eq_ok h
  rw [List.nodup_append]
  refine ⟨hs, nodup_of_walk hwalk (nodup_unseen g seen), fun a ha b hb => ?_⟩
  rintro rfl
  exact (mem_unseen_iff.mp (mem_of_walk hwalk a hb)).2 ha

/-- **What a walk adds is settled**, and what it starts from is added if it has not been seen. -/
theorem collect_settled (hg : g.Closed) {seen seen' : List TypeId} {root : TypeId}
    (hroot : g.Has root) (h : g.collect seen root = .ok seen') :
    root ∈ seen' ∧ ∀ k ∈ seen', k ∈ seen ∨ g.Settled seen' k := by
  obtain ⟨met, hwalk, rfl⟩ := collect_eq_ok h
  obtain ⟨hpending, hmet⟩ := handled_of_walk hwalk
  have hseen : ∀ k, g.Has k → k ∈ met ∨ k ∉ g.unseen seen → k ∈ seen ++ met := by
    intro k hk hcase
    rw [mem_unseen_iff] at hcase
    rw [List.mem_append]
    tauto
  refine ⟨?_, fun k hk => ?_⟩
  · obtain ⟨k, hk, hcase⟩ := hpending _ List.mem_cons_self
    injection hk with hk
    subst hk
    exact hseen root hroot hcase
  · refine (List.mem_append.mp hk).imp_right fun hk t ht r hr => ?_
    have hnone : ∀ f, Except.error f ∉ g.steps k := by
      intro f hf
      obtain ⟨id, hid, -⟩ := hmet k hk _ hf
      exact absurd hid (by simp)
    have hstep : Except.ok r ∈ g.steps k := by
      rw [steps_eq_map ht hnone]
      exact List.mem_map_of_mem (TypeDef.mem_referenced.mpr hr)
    obtain ⟨id, hid, hcase⟩ := hmet k hk _ hstep
    injection hid with hid
    subst hid
    exact hseen r (hg k t ht r hr) hcase

/-- Walks from several types settle what they add. -/
theorem collectAll_settled (hg : g.Closed) {roots seen seen' : List TypeId}
    (hroots : ∀ k ∈ roots, g.Has k) (h : g.collectAll seen roots = .ok seen') :
    seen ⊆ seen' ∧ ∀ k ∈ seen', k ∈ seen ∨ g.Settled seen' k := by
  induction roots generalizing seen with
  | nil =>
    injection h with h
    subst h
    exact ⟨List.Subset.refl _, fun k hk => Or.inl hk⟩
  | cons root roots ih =>
    rw [List.forall_mem_cons] at hroots
    obtain ⟨seen₁, hroot, h⟩ := collectAll_cons_eq_ok.mp h
    obtain ⟨-, hfirst⟩ := collect_settled hg hroots.1 hroot
    obtain ⟨hsub, hsettled⟩ := ih hroots.2 h
    refine ⟨List.Subset.trans (subset_of_collect hroot) hsub, fun k hk => ?_⟩
    rcases hsettled k hk with hk | hk
    · exact (hfirst k hk).imp_right fun hk => hk.subset hsub
    · exact Or.inr hk

/-- **Walks from types that count as seen settle these as well**, if nothing else was unsettled. -/
theorem collectAgain_settled (hg : g.Closed) {roots seen seen' : List TypeId}
    (hroots : ∀ k ∈ roots, g.Has k) (hdistinct : seen.Nodup)
    (hseen : ∀ k ∈ seen, k ∈ roots ∨ g.Settled seen k)
    (h : g.collectAgain seen roots = .ok seen') : ∀ k ∈ seen', g.Settled seen' k := by
  induction roots generalizing seen with
  | nil =>
    injection h with h
    subst h
    exact fun k hk => (hseen k hk).resolve_left (by simp)
  | cons root roots ih =>
    rw [List.forall_mem_cons] at hroots
    obtain ⟨seen₁, hroot, h⟩ := collectAgain_cons_eq_ok.mp h
    obtain ⟨hmem, hadded⟩ := collect_settled hg hroots.1 hroot
    -- the type that was taken out is back, so nothing is lost
    have hsub : seen ⊆ seen₁ := by
      intro k hk
      by_cases hne : k = root
      · exact hne ▸ hmem
      · exact subset_of_collect hroot ((List.mem_erase_of_ne hne).mpr hk)
    refine ih hroots.2 (nodup_of_collect hroot (hdistinct.erase root)) (fun k hk => ?_) h
    rcases hadded k hk with hold | hnew
    · obtain ⟨hne, hold⟩ := hdistinct.mem_erase_iff.mp hold
      rcases hseen k hold with hturn | hsettled
      · exact Or.inl ((List.mem_cons.mp hturn).resolve_left hne)
      · exact Or.inr (hsettled.subset hsub)
    · exact Or.inr hnew

/-- **All that the types of a schema refer to is in the schema.** -/
theorem settled_of_typesFrom (hg : g.Closed) {r : Roots} {ids : List TypeId}
    (hstarts : ∀ k ∈ r.starts, g.Has k) (hextra : ∀ k ∈ r.extra, g.Has k)
    (h : g.typesFrom r = .ok ids) : ∀ k ∈ ids, g.Settled ids k := by
  unfold typesFrom at h
  cases hseen : g.collectExtra r.extra with
  | error f => rw [hseen] at h; exact absurd h (by simp)
  | ok seen =>
    rw [hseen] at h
    have hgiven : ∀ k ∈ r.extra.eraseDups, k ∈ r.extra ∨ g.Settled r.extra.eraseDups k :=
      fun k hk => Or.inl (List.mem_eraseDups.mp hk)
    have hsettled := collectAgain_settled hg hextra (nodup_eraseDups _) hgiven hseen
    obtain ⟨hsub, hadded⟩ := collectAll_settled hg hstarts h
    intro k hk
    rcases hadded k hk with hold | hnew
    · exact (hsettled k hold).subset hsub
    · exact hnew

end TypeGraph
end Subgraph
