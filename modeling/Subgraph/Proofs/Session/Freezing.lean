import Subgraph.Proofs.Session.Documents
import Subgraph.Proofs.TypeGraph.Reached
import Subgraph.Proofs.Workspace.Effects

/-!
# `Session.Freezing` — building a schema freezes its elements, or nothing

Building a federated schema freezes its elements: those of the parts of every type that its roots reach,
however the types refer to one another and whatever other schemas have the same elements. They keep their
directives, and the other elements keep everything (`Freezes`).

The version is read first, then the host builds, and only what comes after both changes anything. So if
one of them fails the workspace is as it was, and the failure is that of the version if both would fail
(`building_freezes`).
-/

namespace Subgraph

namespace Workspace

variable {w : Workspace}

/-- `w'` is `w` with several elements frozen, all of which are there, and nothing else is different. -/
structure Freezes (w : Workspace) (ids : List ElementId) (w' : Workspace) : Prop where
  frozen : ∀ id ∈ ids, ∃ e, w.elements[id]? = some e ∧
    w'.elements[id]? = some { e with annotations := ⟨e.annotations.directives, true⟩ }
  others : ∀ id, id ∉ ids → w'.elements[id]? = w.elements[id]?
  catalogs : w'.catalogs = w.catalogs
  graph : w'.graph = w.graph

/-- Elements that are there are frozen, and nothing else happens. -/
theorem freezeAll_freezes {ids : List ElementId} (h : ∀ id ∈ ids, id < w.elements.size) :
    w.Freezes ids (w.freezeAll ids) where
  frozen id hid := by
    have he := Array.getElem?_eq_getElem (h id hid)
    refine ⟨_, he, ?_⟩
    rw [freezeAll_elements, if_pos hid, he]
    rfl
  others id hid := by rw [freezeAll_elements, if_neg hid]
  catalogs := freezeAll_catalogs w ids
  graph := freezeAll_graph w ids

/-- **How building a federated schema fails**: with the failure of the version, or, if the version is in
order, with that of the host. -/
theorem buildFederated_eq_error_iff {roots : Roots} {description : Option String} {version : Value}
    {catalog : Option CatalogId} {f : Failure} :
    w.buildFederated roots description version catalog = .error f ↔
      Target.initial version = .error f ∨ ∃ target, Target.initial version = .ok target ∧
        w.assemble roots description (some ⟨target, catalog.getD standardCatalog⟩) = .error f := by
  unfold buildFederated
  cases Target.initial version with
  | error g => simp
  | ok target =>
    cases hs : w.assemble roots description (some ⟨target, catalog.getD standardCatalog⟩) with
    | error g => simp [hs]
    | ok s => simp [hs]

end Workspace

namespace Session

variable {st : Session} {roots : Roots} {description : Option String} {version : Value}
  {catalog : Option CatalogId}

/-- **Building a schema freezes its elements, or nothing.** In every session that can be reached, a
federated schema that is built has for its elements those of the types that its roots reach; they are
frozen, with the directives that they had, and nothing else has changed. If building fails, because of the
version or, after it, of the host, nothing has changed at all. -/
theorem building_freezes (hst : st.Reachable)
    (hn : st.canName (.buildFederated roots description version catalog) = true)
    {given : Except Failure Schema} {w : Workspace}
    (hbuild : (Effect.buildFederated roots description version catalog).on st.workspace = (given, w)) :
    (∀ s, given = .ok s →
      st.after (.buildFederated roots description version catalog) = ⟨w, st.schemas.push s⟩ ∧
      st.workspace.Freezes (s.elements w.graph) w ∧
      ∀ id, id ∈ s.elements w.graph ↔ ∃ k t, w.graph.Reached roots k ∧ w.graph.type? k = some t ∧
        t.isDefined = true ∧ ∃ part ∈ t.parts, part.element = some id) ∧
    ∀ f, (given = .error f ↔ Target.initial version = .error f ∨
        ∃ target, Target.initial version = .ok target ∧ st.workspace.assemble roots description
          (some ⟨target, catalog.getD Workspace.standardCatalog⟩) = .error f) ∧
      (given = .error f → w = st.workspace ∧
        st.after (.buildFederated roots description version catalog) = st) := by
  have hclosed := hst.wellFormed.closed
  have hroots := hn
  rw [canName, Bool.and_eq_true] at hroots
  obtain ⟨hstarts, hextra⟩ := has_of_hasRoots hroots.1
  rw [Effect.buildFederated_on] at hbuild
  cases hb : st.workspace.buildFederated roots description version catalog with
  | error f =>
    rw [hb] at hbuild
    obtain ⟨rfl, rfl⟩ := Prod.mk.inj hbuild
    have hafter : st.after (.buildFederated roots description version catalog) = st := by
      refine after_of_error (f := f) ?_
      rw [perform, hb]
      rfl
    refine ⟨by simp, fun g => ⟨?_, fun _ => ⟨rfl, hafter⟩⟩⟩
    rw [← Workspace.buildFederated_eq_error_iff, hb]
    simp
  | ok p =>
    obtain ⟨w', s⟩ := p
    rw [hb] at hbuild
    obtain ⟨rfl, rfl⟩ := Prod.mk.inj hbuild
    obtain ⟨⟨federation, hs, -⟩, hw⟩ := Workspace.buildFederated_eq_ok hb
    have hgraph : w'.graph = st.workspace.graph := by rw [hw, Workspace.freezeAll_graph]
    refine ⟨fun s' hs' => ?_, fun g => ⟨?_, by simp⟩⟩
    · obtain rfl := Except.ok.inj hs'
      refine ⟨?_, ?_, fun id => ?_⟩
      · rw [after, if_pos hn, perform, hb]
        rfl
      · rw [hgraph, hw]
        exact Workspace.freezeAll_freezes fun id hid => hclosed.lt_of_mem_elements hid
      · rw [hgraph]
        exact Schema.mem_elements_iff hclosed.graph hstarts hextra hs
    · rw [← Workspace.buildFederated_eq_error_iff, hb]
      simp

/-- `building_freezes` at the session with the labels, for a version in order and for one that is not: the
label of the type is frozen, and that of the argument of the declared directive is not. -/
theorem building_freezes_labelled :
    Reachable { workspace := preparedWorkspace } ∧
      canName { workspace := preparedWorkspace }
        (.buildFederated labelledRoots none (.text "2.3") none) = true ∧
      (Effect.buildFederated labelledRoots none (.text "2.3") none).on preparedWorkspace =
        (.ok labelledSchema, labelledWorkspace) ∧
      labelledSchema.elements labelledWorkspace.graph = [0] ∧
      preparedWorkspace.Freezes [0] labelledWorkspace ∧
      canName { workspace := preparedWorkspace }
        (.buildFederated labelledRoots none (.text "2.x") none) = true ∧
      (Effect.buildFederated labelledRoots none (.text "2.x") none).on preparedWorkspace =
        (.error (.invalidVersion (.text "2.x")), preparedWorkspace) := by
  have hn : canName { workspace := preparedWorkspace }
      (.buildFederated labelledRoots none (.text "2.3") none) = true := by decide
  have hn' : canName { workspace := preparedWorkspace }
      (.buildFederated labelledRoots none (.text "2.x") none) = true := by decide
  have hbuild : (Effect.buildFederated labelledRoots none (.text "2.3") none).on preparedWorkspace =
      (.ok labelledSchema, labelledWorkspace) := by
    rw [Effect.buildFederated_on, prepared_built]
    rfl
  have helements : labelledSchema.elements labelledWorkspace.graph = [0] := by decide
  obtain ⟨hbuilt, -⟩ := building_freezes prepared_reachable hn hbuild
  obtain ⟨-, hfreezes, -⟩ := hbuilt labelledSchema rfl
  rw [helements] at hfreezes
  -- of the other version nothing is known but what reading it gives
  cases hbuild' : (Effect.buildFederated labelledRoots none (.text "2.x") none).on preparedWorkspace with
  | mk given w =>
    obtain ⟨-, hfailed⟩ := building_freezes prepared_reachable hn' hbuild'
    obtain ⟨herror, hsame⟩ := hfailed (.invalidVersion (.text "2.x"))
    obtain rfl := herror.mpr (Or.inl (by rfl))
    obtain ⟨rfl, -⟩ := hsame rfl
    exact ⟨prepared_reachable, hn, hbuild, helements, hfreezes, hn', rfl⟩

end Session
end Subgraph
