import Subgraph.Proofs.Schema.Contents
import Subgraph.Proofs.Workspace.Attachment

/-!
# `Workspace.Growth` — what later calls leave as it is

Calls add catalogs, elements and types, and change annotations. Nothing is ever taken away, and frozen
annotations stay what they are: that is the relation `Later`, which every call keeps
(`perform_later`), and an element that has them refuses every directive (`addDirective_frozen`).
`Change` says once what a call can do to elements, so that nothing else about calls has to open them.

The freeze of a schema reaches an element iff it is one of those that are named
(`annotations_freezeAll`), which takes that the element is there; in a `Closed` workspace it is, so
building a schema freezes exactly its elements (`buildFederated_annotations`). What a workspace `Holds`
of a schema is what building it establishes (`buildFederated_holds`) and growth keeps
(`Holds.later`): its types are in the graph, and if it is federated its elements are frozen.
-/

namespace Subgraph

/-- An element with its annotations frozen. -/
def Element.freeze (e : Element) : Element := { e with annotations := e.annotations.freeze }

namespace Workspace

/-- `w'` comes after `w`: types and elements are still there, and what was frozen is the same. -/
structure Later (w w' : Workspace) : Prop where
  types : w.graph.Extends w'.graph
  elements : w.elements.size ≤ w'.elements.size
  frozen : ∀ id, (w.annotations id).frozen = true → w'.annotations id = w.annotations id

variable {w w' w'' : Workspace}

theorem Later.refl (w : Workspace) : w.Later w where
  types := .refl _
  elements := Nat.le_refl _
  frozen := fun _ _ => rfl

theorem Later.trans (h : w.Later w') (h' : w'.Later w'') : w.Later w'' where
  types := h.types.trans h'.types
  elements := Nat.le_trans h.elements h'.elements
  frozen := by
    intro id hid
    have hsame : w'.annotations id = w.annotations id := h.frozen id hid
    rw [h'.frozen id (by rw [hsame]; exact hid), hsame]

/-! ## Changes of elements -/

/-- Other annotations are those of the element that is named, if there is one, and of no other. -/
theorem annotations_setAnnotations (w : Workspace) (id k : ElementId) (a : Annotations) :
    (w.setAnnotations id a).annotations k =
      if k = id ∧ id < w.elements.size then a else w.annotations k := by
  unfold annotations setAnnotations
  rw [Array.getElem?_modify]
  by_cases hk : id = k
  · subst hk
    by_cases hlt : id < w.elements.size
    · simp [hlt]
    · simp [hlt]
  · rw [if_neg hk, if_neg (fun h => hk h.1.symm)]

/-- What a call can do to elements: nothing, construct one, or change annotations that are not
frozen. -/
inductive Change (w w' : Workspace) : Prop where
  | none (he : w'.elements = w.elements)
  | construct (e : Element) (he : w'.elements = w.elements.push e)
  | annotate (id : ElementId) (a : Annotations) (he : w'.elements = (w.setAnnotations id a).elements)
    (hfrozen : (w.annotations id).frozen = true → a = w.annotations id)

/-- No change of elements takes one away or touches what is frozen. -/
theorem Change.later (h : Change w w') (hg : w.graph.Extends w'.graph) : w.Later w' := by
  cases h with
  | none he =>
    refine ⟨hg, Nat.le_of_eq (by rw [he]), fun id _ => ?_⟩
    rw [annotations, annotations, he]
  | construct e he =>
    refine ⟨hg, ?_, fun id hid => ?_⟩
    · rw [he, Array.size_push]
      exact Nat.le_succ _
    · -- the new element comes under an index that had none, and nothing is frozen there
      have hne : id ≠ w.elements.size := by
        rintro rfl
        simp [annotations] at hid
      rw [annotations, annotations, he, Array.getElem?_push, if_neg hne]
  | annotate id a he hfrozen =>
    have hsame : ∀ k, w'.annotations k = (w.setAnnotations id a).annotations k := by
      intro k
      rw [annotations, annotations, he]
    refine ⟨hg, ?_, fun k hk => ?_⟩
    · rw [he]
      simp [setAnnotations]
    · rw [hsame, annotations_setAnnotations]
      split
      · next hid =>
        rw [hid.1] at hk ⊢
        exact hfrozen hk
      · rfl

theorem registerIn_elements {id : CatalogId} {d : Definition} (h : w.registerIn id d = .ok w') :
    w'.elements = w.elements ∧ w'.graph = w.graph := by
  unfold registerIn at h
  split at h
  · injection h with h
    rw [← h]
    exact ⟨rfl, rfl⟩
  · split at h
    · injection h with h
      rw [← h]
      exact ⟨rfl, rfl⟩
    · exact absurd h (by simp)

theorem extendCatalog_elements {id k : CatalogId} {ds : List Definition}
    (h : w.extendCatalog id ds = .ok (w', k)) :
    w'.elements = w.elements ∧ w'.graph = w.graph := by
  unfold extendCatalog at h
  split at h
  · injection h with h
    injection h with h
    rw [← h]
    exact ⟨rfl, rfl⟩
  · exact absurd h (by simp)

theorem addElement_elements {l : Location} {o : Options CatalogId} {id : ElementId}
    (h : w.addElement l o = .ok (w', id)) :
    (∃ e, w'.elements = w.elements.push e) ∧ w'.graph = w.graph := by
  unfold addElement at h
  simp only at h
  split at h
  · injection h with h
    injection h with h
    rw [← h]
    exact ⟨⟨_, rfl⟩, rfl⟩
  · exact absurd h (by simp)

/-- A directive is attached only where the annotations are not frozen. -/
theorem attach_open {c : Catalog} {l : Location} {a a' : Annotations} {d : Directive}
    (h : a.attach c l d = .ok a') : a.frozen = false := by
  unfold Annotations.attach at h
  split at h
  · exact absurd h (by simp)
  · split at h
    · exact absurd h (by simp)
    · split at h
      · exact absurd h (by simp)
      · unfold Annotations.append at h
        split at h
        · exact absurd h (by simp)
        · next hfrozen => simpa using hfrozen

theorem attach_change {id : ElementId} {d : Directive} (h : w.attach id d = .ok w') :
    Change w w' ∧ w'.graph = w.graph := by
  unfold attach at h
  split at h
  · injection h with h
    rw [← h]
    exact ⟨.none rfl, rfl⟩
  · next e he =>
    split at h
    · next a ha =>
      injection h with h
      rw [← h]
      refine ⟨.annotate id a rfl fun hfrozen => ?_, rfl⟩
      have hopen : (w.annotations id).frozen = false := by
        rw [annotations, he]
        exact attach_open ha
      rw [hopen] at hfrozen
      exact absurd hfrozen (by simp)
    · exact absurd h (by simp)

/-- An element with frozen annotations refuses every directive. -/
theorem addDirective_frozen {id : ElementId} (h : (w.annotations id).frozen = true)
    (d : LooseDirective) : ∃ f, w.addDirective id d = .error f := by
  cases hadd : w.addDirective id d with
  | error f => exact ⟨f, rfl⟩
  | ok p =>
    -- a directive that is attached finds its element there, and open
    obtain ⟨d', -, hadd⟩ := bind_eq_ok.mp hadd
    obtain ⟨w', hattach, -⟩ := bind_eq_ok.mp hadd
    unfold attach at hattach
    cases he : w.elements[id]? with
    | none => simp [annotations, he] at h
    | some e =>
      simp only [he] at hattach
      cases ha : e.annotations.attach (w.catalog e.catalog) e.location d' with
      | error f => rw [ha] at hattach; exact absurd hattach (by simp)
      | ok a =>
        have hopen : (w.annotations id).frozen = false := by
          rw [annotations, he]
          exact attach_open ha
        rw [hopen] at h
        exact absurd h (by simp)

/-- **What a call can do.** Types are not its business, and of elements it makes one of three
changes. -/
theorem perform_change {a : Action} (h : w.perform a = .ok w') :
    Change w w' ∧ w'.graph = w.graph := by
  cases a with
  | create ds =>
    obtain ⟨c, -, rfl⟩ := map_eq_ok.mp h
    exact ⟨.none rfl, rfl⟩
  | register id d =>
    obtain ⟨he, hg⟩ := registerIn_elements h
    exact ⟨.none he, hg⟩
  | extend id ds =>
    obtain ⟨⟨w₁, k⟩, hx, rfl⟩ := map_eq_ok.mp h
    obtain ⟨he, hg⟩ := extendCatalog_elements hx
    exact ⟨.none he, hg⟩
  | construct l tags inaccessible authenticated ds catalog =>
    obtain ⟨o, -, h⟩ := bind_eq_ok.mp h
    obtain ⟨⟨w₁, k⟩, hx, rfl⟩ := map_eq_ok.mp h
    obtain ⟨⟨e, he⟩, hg⟩ := addElement_elements hx
    exact ⟨.construct e he, hg⟩
  | attach id d =>
    obtain ⟨⟨w₁, d'⟩, hx, rfl⟩ := map_eq_ok.mp h
    obtain ⟨d₁, -, hx⟩ := bind_eq_ok.mp hx
    obtain ⟨w₂, hx, hx'⟩ := bind_eq_ok.mp hx
    injection hx' with hx'
    injection hx' with hw
    exact hw ▸ attach_change hx
  | freeze id =>
    injection h with h
    subst h
    refine ⟨.annotate id (w.annotations id).freeze rfl fun hfrozen => ?_, rfl⟩
    unfold Annotations.freeze
    rw [← hfrozen]

/-- **Every call leads to a later workspace.** -/
theorem perform_later {a : Action} (h : w.perform a = .ok w') : w.Later w' := by
  obtain ⟨hchange, hg⟩ := perform_change h
  exact hchange.later (hg ▸ .refl _)

/-- A workspace with other types comes later if its graph extends the old one. -/
theorem later_of_graph {g : TypeGraph} (hg : w.graph.Extends g) : w.Later { w with graph := g } := by
  have hchange : Change w { w with graph := g } := .none rfl
  exact hchange.later hg

/-! ## Freezing -/

/-- Freezing an element leaves the others as they are. -/
theorem freeze_elements (w : Workspace) (id k : ElementId) :
    (w.freeze id).elements[k]? =
      if k = id then w.elements[k]?.map Element.freeze else w.elements[k]? := by
  unfold freeze setAnnotations
  rw [Array.getElem?_modify]
  by_cases hk : k = id
  · subst hk
    rw [if_pos rfl, if_pos rfl]
    cases he : w.elements[k]? with
    | none => rfl
    | some e => simp [annotations, he, Element.freeze]
  · rw [if_neg hk, if_neg (Ne.symm hk)]

/-- **What freezing several elements does:** those of them that are there are frozen, with the
directives that they had; nothing else changes. One that comes twice is frozen as it is. -/
theorem freezeAll_elements (w : Workspace) (ids : List ElementId) (k : ElementId) :
    (w.freezeAll ids).elements[k]? =
      if k ∈ ids then w.elements[k]?.map Element.freeze else w.elements[k]? := by
  unfold freezeAll
  induction ids generalizing w with
  | nil => simp
  | cons id ids ih =>
    rw [List.foldl_cons, ih, freeze_elements]
    have htwice : ∀ e : Element, e.freeze.freeze = e.freeze := fun _ => rfl
    by_cases hid : k = id
    · subst hid
      cases w.elements[k]? <;> simp [htwice]
    · simp [hid]

/-- The annotations after it. -/
theorem annotations_freezeAll (w : Workspace) (ids : List ElementId) (k : ElementId) :
    (w.freezeAll ids).annotations k =
      if k ∈ ids ∧ k < w.elements.size then (w.annotations k).freeze else w.annotations k := by
  rw [annotations, annotations, freezeAll_elements]
  by_cases hk : k ∈ ids
  · by_cases hlt : k < w.elements.size
    · simp [hk, hlt, Element.freeze]
    · simp [hk, hlt]
  · simp [hk]

/-- Freezing changes neither types nor catalogs, and keeps annotations in order. -/
theorem freezeAll_sound (h : w.Sound) (ids : List ElementId) : (w.freezeAll ids).Sound := by
  unfold freezeAll
  induction ids generalizing w with
  | nil => exact h
  | cons id ids ih => exact ih (freeze_sound h id)

theorem freezeAll_graph (w : Workspace) (ids : List ElementId) :
    (w.freezeAll ids).graph = w.graph := by
  unfold freezeAll
  induction ids generalizing w with
  | nil => rfl
  | cons id ids ih => exact ih (w.freeze id)

theorem freezeAll_catalogs (w : Workspace) (ids : List ElementId) :
    (w.freezeAll ids).catalogs = w.catalogs := by
  unfold freezeAll
  induction ids generalizing w with
  | nil => rfl
  | cons id ids ih => exact ih (w.freeze id)

theorem freeze_size (w : Workspace) (id : ElementId) :
    (w.freeze id).elements.size = w.elements.size := by
  simp [freeze, setAnnotations]

theorem freezeAll_size (w : Workspace) (ids : List ElementId) :
    (w.freezeAll ids).elements.size = w.elements.size := by
  unfold freezeAll
  induction ids generalizing w with
  | nil => rfl
  | cons id ids ih => rw [List.foldl_cons, ih, freeze_size]

theorem freezeAll_later (w : Workspace) (ids : List ElementId) : w.Later (w.freezeAll ids) := by
  refine ⟨freezeAll_graph w ids ▸ .refl _, Nat.le_of_eq (freezeAll_size w ids).symm, fun k hk => ?_⟩
  rw [annotations_freezeAll]
  split
  · unfold Annotations.freeze
    rw [← hk]
  · rfl

/-! ## Closed workspaces -/

/-- No type refers to a type or an element that is not there. -/
structure Closed (w : Workspace) : Prop where
  graph : w.graph.Closed
  parts : ∀ id t, w.graph.type? id = some t →
    ∀ part ∈ t.parts, ∀ e, part.element = some e → e < w.elements.size

theorem initial_closed : Closed {} := by
  refine ⟨TypeGraph.initial_closed, fun id t ht part hpart e he => ?_⟩
  -- built-in types are not annotated
  have hall : ∀ t ∈ BuiltIn.types, ∀ part ∈ t.parts, part.element = none := by decide +kernel
  have htypes : BuiltIn.types.toArray[id]? = some t := ht
  rw [List.getElem?_toArray] at htypes
  rw [hall t (List.mem_of_getElem? htypes) part hpart] at he
  exact absurd he (by simp)

/-- Growth that leaves the types alone keeps a workspace closed. -/
theorem Closed.of_graph_eq (h : w.Closed) (hg : w'.graph = w.graph)
    (hsize : w.elements.size ≤ w'.elements.size) : w'.Closed := by
  refine ⟨hg ▸ h.graph, fun id t ht part hpart e he => ?_⟩
  rw [hg] at ht
  exact Nat.lt_of_lt_of_le (h.parts id t ht part hpart e he) hsize

/-- The elements of a schema are there. -/
theorem Closed.lt_of_mem_elements (h : w.Closed) {s : Schema} {id : ElementId}
    (hid : id ∈ s.elements w.graph) : id < w.elements.size := by
  obtain ⟨part, hpart, he⟩ := Schema.mem_elements.mp hid
  obtain ⟨t, ht, hpart⟩ := List.mem_flatMap.mp hpart
  obtain ⟨⟨p, -, hp⟩, -⟩ := Schema.mem_definedTypes.mp ht
  exact h.parts p.2 t hp part hpart id he

/-! ## Schemas that are held -/

/-- What a workspace holds of a schema: all that it names is in the graph, and the elements of a
federated one are frozen. -/
structure Holds (w : Workspace) (s : Schema) : Prop where
  within : s.Within w.graph
  frozen : s.federation.isSome = true →
    ∀ id ∈ s.elements w.graph, (w.annotations id).frozen = true

/-- **A workspace goes on holding what it holds.** -/
theorem Holds.later {s : Schema} (hs : w.Holds s) (h : w.Later w') : w'.Holds s := by
  refine ⟨hs.within.extends h.types, fun hf id hid => ?_⟩
  rw [Schema.elements_eq hs.within h.types] at hid
  have hold : (w.annotations id).frozen = true := hs.frozen hf id hid
  rw [h.frozen id hold]
  exact hold

/-- Another version makes no difference to what is held. -/
theorem Holds.of_contents {s s' : Schema} (hs : w.Holds s) (h : s'.contents = s.contents)
    (hf : s'.federation.isSome = s.federation.isSome) : w.Holds s' := by
  refine ⟨hs.within.of_contents h, fun hfed id hid => ?_⟩
  rw [Schema.elements_of_contents h] at hid
  exact hs.frozen (hf ▸ hfed) id hid

/-- Building a federated schema reads the version, assembles the schema with it, and freezes the
elements of the schema. -/
theorem exists_target_of_buildFederated {roots : Roots} {description : Option String}
    {version : Value} {catalog : Option CatalogId} {s : Schema}
    (h : w.buildFederated roots description version catalog = .ok (w', s)) :
    ∃ target, Target.initial version = .ok target ∧
      w.assemble roots description (some ⟨target, catalog.getD standardCatalog⟩) = .ok s ∧
      w' = w.freezeAll (s.elements w.graph) := by
  unfold buildFederated at h
  split at h
  · exact absurd h (by simp)
  · next target htarget =>
    split at h
    · exact absurd h (by simp)
    · next s₁ hs₁ =>
      injection h with h
      injection h with hw hs
      subst hs
      exact ⟨target, htarget, hs₁, hw.symm⟩

/-- What building a federated schema does: the schema is assembled, and its elements are frozen. -/
theorem buildFederated_eq_ok {roots : Roots} {description : Option String} {version : Value}
    {catalog : Option CatalogId} {s : Schema}
    (h : w.buildFederated roots description version catalog = .ok (w', s)) :
    (∃ federation, w.assemble roots description (some federation) = .ok s ∧
      s.federation = some federation) ∧ w' = w.freezeAll (s.elements w.graph) := by
  obtain ⟨target, -, hs, hw⟩ := exists_target_of_buildFederated h
  exact ⟨⟨_, hs, Schema.federation_of_assemble hs⟩, hw⟩

/-- Building a federated schema freezes its elements and leaves all others as they are. -/
theorem buildFederated_annotations (hw : w.Closed) {roots : Roots} {description : Option String}
    {version : Value} {catalog : Option CatalogId} {s : Schema}
    (h : w.buildFederated roots description version catalog = .ok (w', s)) (id : ElementId) :
    w'.annotations id =
      if id ∈ s.elements w'.graph then (w.annotations id).freeze else w.annotations id := by
  obtain ⟨-, rfl⟩ := buildFederated_eq_ok h
  rw [freezeAll_graph, annotations_freezeAll]
  -- what a closed workspace has in a schema is there to be frozen
  have hiff : (id ∈ s.elements w.graph ∧ id < w.elements.size) ↔ id ∈ s.elements w.graph :=
    ⟨fun hid => hid.1, fun hid => ⟨hid, hw.lt_of_mem_elements hid⟩⟩
  simp only [hiff]

/-- **Building a federated schema freezes all of its elements.** -/
theorem buildFederated_holds (hw : w.Closed) {roots : Roots} {description : Option String}
    {version : Value} {catalog : Option CatalogId} {s : Schema}
    (hstarts : ∀ k ∈ roots.starts, w.graph.Has k) (hextra : ∀ k ∈ roots.extra, w.graph.Has k)
    (h : w.buildFederated roots description version catalog = .ok (w', s)) : w'.Holds s := by
  have hannotations := buildFederated_annotations hw h
  obtain ⟨⟨federation, hs, -⟩, rfl⟩ := buildFederated_eq_ok h
  have hwithin : s.Within w.graph := Schema.within_of_assemble hs hstarts hextra
  refine ⟨by rw [freezeAll_graph]; exact hwithin, fun _ id hid => ?_⟩
  rw [hannotations id, if_pos hid]
  rfl

/-- A plain schema has no element that must be frozen. -/
theorem buildPlain_holds {roots : Roots} {description : Option String} {s : Schema}
    (hstarts : ∀ k ∈ roots.starts, w.graph.Has k) (hextra : ∀ k ∈ roots.extra, w.graph.Has k)
    (h : w.buildPlain roots description = .ok s) : w.Holds s := by
  refine ⟨Schema.within_of_assemble h hstarts hextra, fun hf => ?_⟩
  rw [Schema.federation_of_assemble h] at hf
  exact absurd hf (by simp)

end Workspace
end Subgraph
