import Subgraph.Proofs.Catalog.Lookup
import Subgraph.Proofs.Failure.Chain
import Subgraph.Workspace.Basic

/-!
# `Workspace.Attachment` — what a catalog allowed stays allowed

Elements share catalogs, and catalogs go on growing while elements that use them exist. A directive is
checked once, when it is attached; nothing looks at it again until it is printed. This module shows
that one look is enough: along every run of creating and extending catalogs, registering definitions,
constructing elements, attaching directives and freezing, every attached directive has a definition in
the catalog of its element, the definition allows the place, and a directive that is not repeatable is
alone of its name (`run_admitted`).

The invariant is `Sound`. It has one ingredient per way in: a change of a catalog only ever `Keeps` its
definitions, and a change of annotations goes through `Annotations.attach`, which checks what
`Admitted` demands (`attach_admitted`). Options that are skipped attach nothing.
-/

namespace Subgraph

/-! ## Annotations in order with a catalog -/

/-- The annotations of an element at a place are in order with a catalog: every directive has a
definition, the definition allows the place, and without leave to repeat it the directive is the only
one of its name. -/
def Annotations.Admitted (c : Catalog) (l : Location) (a : Annotations) : Prop :=
  ∀ d ∈ a.directives, ∃ definition, c.find? d.name = some definition ∧
    definition.allows l = true ∧ (definition.repeatable = false → a.names.count d.name = 1)

namespace Annotations

theorem empty_admitted (c : Catalog) (l : Location) : Admitted c l {} := by
  intro d hd
  exact absurd hd (by simp)

/-- Freezing changes no directive. -/
theorem freeze_admitted {c : Catalog} {l : Location} {a : Annotations} (h : a.Admitted c l) :
    a.freeze.Admitted c l := h

/-- What one catalog admits, every catalog does that keeps its definitions. -/
theorem Admitted.of_keeps {c c' : Catalog} {l : Location} {a : Annotations} (h : a.Admitted c l)
    (hk : c.Keeps c') : a.Admitted c' l := by
  intro d hd
  obtain ⟨definition, hf, hrest⟩ := h d hd
  exact ⟨definition, hk _ _ hf, hrest⟩

/-- What a successful attachment says: the three checks passed, and the directive stands at the
end. -/
theorem attach_eq_ok {c : Catalog} {l : Location} {a a' : Annotations} {d : Directive}
    (h : a.attach c l d = .ok a') :
    ∃ definition, c.find? d.name = some definition ∧ definition.allows l = true ∧
      (definition.repeatable = false → d.name ∉ a.names) ∧
      a'.directives = a.directives ++ [d] := by
  unfold attach at h
  cases hl : c.lookup d.name with
  | error f => rw [hl] at h; exact absurd h (by simp)
  | ok definition =>
    rw [hl] at h
    refine ⟨definition, Catalog.lookup_eq_ok_iff.mp hl, ?_⟩
    by_cases ha : definition.allows l = true
    · by_cases hr : (!definition.repeatable && a.contains d.name) = true
      · simp [ha, hr] at h
      · refine ⟨ha, ?_, ?_⟩
        · intro hrep hmem
          exact hr (by simpa [hrep, Annotations.contains] using hmem)
        · simp only [ha, Bool.not_true, Bool.false_eq_true, if_false, if_neg hr, append] at h
          split at h
          · exact absurd h (by simp)
          · injection h with h
            rw [← h]
    · simp [ha] at h

/-- **Attaching keeps annotations in order.** The new directive passed the checks; of the old ones, none
that must be alone of its name has got company, since the new one would have been refused. -/
theorem attach_admitted {c : Catalog} {l : Location} {a a' : Annotations} {d : Directive}
    (h : a.Admitted c l) (ha : a.attach c l d = .ok a') : a'.Admitted c l := by
  obtain ⟨definition, hf, hallow, hfresh, hdirs⟩ := attach_eq_ok ha
  have hnames : a'.names = a.names ++ [d.name] := by simp [names, hdirs]
  intro e he
  rw [hdirs, List.mem_append, List.mem_singleton] at he
  rcases he with he | rfl
  · -- an old directive: the new one has another name, or it would be a repetition
    obtain ⟨definition', hf', hallow', hone⟩ := h e he
    refine ⟨definition', hf', hallow', fun hrep => ?_⟩
    have hne : d.name ≠ e.name := by
      intro hname
      rw [← hname, hf] at hf'
      injection hf' with hf'
      have hmem : e.name ∈ a.names := List.mem_map.mpr ⟨e, he, rfl⟩
      exact hfresh (hf' ▸ hrep) (hname ▸ hmem)
    rw [hnames, List.count_append, hone hrep, List.count_singleton]
    simp [hne]
  · refine ⟨definition, hf, hallow, fun hrep => ?_⟩
    rw [hnames, List.count_append, List.count_eq_zero_of_not_mem (hfresh hrep)]
    simp

/-- Attaching several directives keeps annotations in order. -/
theorem attachAll_admitted {c : Catalog} {l : Location} {ds : List Directive} {a a' : Annotations}
    (h : a.Admitted c l) (ha : a.attachAll c l ds = .ok a') : a'.Admitted c l := by
  induction ds generalizing a with
  | nil =>
    injection ha with ha
    exact ha ▸ h
  | cons d ds ih =>
    rw [attachAll] at ha
    cases hd : a.attach c l d with
    | error f => rw [hd] at ha; exact absurd ha (by simp)
    | ok b =>
      rw [hd] at ha
      exact ih (attach_admitted h hd) ha

end Annotations

namespace Options

variable {κ : Type}

/-- Attaching shorthand directives keeps annotations in order: one that may not stand at the place is
left out, and the annotations stay as they are. -/
theorem attachShorthand_admitted {c : Catalog} {l : Location} {ds : List Directive}
    {a a' : Annotations} (h : a.Admitted c l) (ha : attachShorthand c l a ds = .ok a') :
    a'.Admitted c l := by
  induction ds generalizing a with
  | nil =>
    injection ha with ha
    exact ha ▸ h
  | cons d ds ih =>
    rw [attachShorthand] at ha
    cases hl : c.lookup d.name with
    | error f => rw [hl] at ha; exact absurd ha (by simp)
    | ok definition =>
      simp only [hl] at ha
      split at ha
      · cases hd : a.attach c l d with
        | error f => rw [hd] at ha; exact absurd ha (by simp)
        | ok b =>
          rw [hd] at ha
          exact ih (Annotations.attach_admitted h hd) ha
      · exact ih h ha

/-- The options of loose values refer to the catalog that is given. -/
theorem ofValues_catalog {tags inaccessible authenticated : Value} {ds : List Directive}
    {catalog : Option κ} {o : Options κ}
    (h : ofValues tags inaccessible authenticated ds catalog = .ok o) : o.catalog = catalog := by
  unfold ofValues at h
  split at h
  · split at h
    · injection h with h
      rw [← h]
    · exact absurd h (by simp)
  · injection h with h
    rw [← h]

/-- The annotations of a new element are in order with its catalog. -/
theorem annotate_admitted {o : Options κ} {c : Catalog} {l : Location} {a : Annotations}
    (h : o.annotate c l = .ok a) : a.Admitted c l := by
  unfold annotate at h
  obtain ⟨shorthand, -, h⟩ := bind_eq_ok.mp h
  obtain ⟨b, hb, h⟩ := bind_eq_ok.mp h
  exact Annotations.attachAll_admitted
    (attachShorthand_admitted (Annotations.empty_admitted c l) hb) h

end Options

/-! ## Runs

A program holds catalogs and elements and calls them in any order. A call can only name what is there.
One that fails changes nothing, which is also what becomes of a construction that the host refuses. -/

/-- A call of a program that holds catalogs and elements. -/
inductive Action where
  | create (definitions : List Definition)
  | register (catalog : CatalogId) (d : Definition)
  | extend (catalog : CatalogId) (definitions : List Definition)
  | construct (location : Location) (tags inaccessible authenticated : Value)
      (directives : List Directive) (catalog : Option CatalogId)
  | attach (element : ElementId) (d : LooseDirective)
  | freeze (element : ElementId)

namespace Workspace

/-- The workspace after a call that succeeds. -/
def perform (w : Workspace) : Action → Except Failure Workspace
  | .create ds => (Catalog.ofDefinitions ds).map fun c => (w.addCatalog c).1
  | .register id d => w.registerIn id d
  | .extend id ds => (w.extendCatalog id ds).map (·.1)
  | .construct l tags inaccessible authenticated ds catalog => do
    let o ← Options.ofValues tags inaccessible authenticated ds catalog
    (w.addElement l o).map (·.1)
  | .attach id d => (w.addDirective id d).map (·.1)
  | .freeze id => .ok (w.freeze id)

/-- Whether the catalogs and elements that a call names are there. -/
def canName (w : Workspace) : Action → Bool
  | .create _ => true
  | .register id _ | .extend id _ => id < w.catalogs.size
  | .construct _ _ _ _ _ catalog => catalog.all (· < w.catalogs.size)
  | .attach id _ | .freeze id => id < w.elements.size

/-- The workspace after a call, whether it succeeds or fails. -/
def after (w : Workspace) (a : Action) : Workspace :=
  if w.canName a then (w.perform a).toOption.getD w else w

/-- The workspace after a sequence of calls, at first with nothing but the standard catalog. -/
def run (actions : List Action) : Workspace := actions.foldl after {}

/-! ## The invariant -/

/-- Every element uses a catalog that is there, and its annotations are in order with it. -/
structure Sound (w : Workspace) : Prop where
  standard_there : standardCatalog < w.catalogs.size
  elements_admitted : ∀ (id : ElementId) (e : Element), w.elements[id]? = some e →
    e.catalog < w.catalogs.size ∧ e.annotations.Admitted (w.catalog e.catalog) e.location

/-- At first there is no element. -/
theorem initial_sound : Sound {} := by
  refine ⟨by decide, fun id e h => ?_⟩
  exact absurd h (by simp)

/-- **Frame.** A change of catalogs that keeps what they find keeps the invariant. -/
theorem Sound.of_catalogs {w w' : Workspace} (h : w.Sound) (he : w'.elements = w.elements)
    (hk : ∀ id < w.catalogs.size, id < w'.catalogs.size ∧ (w.catalog id).Keeps (w'.catalog id)) :
    w'.Sound := by
  refine ⟨(hk _ h.standard_there).1, fun id e hid => ?_⟩
  obtain ⟨hlt, hadm⟩ := h.elements_admitted id e (he ▸ hid)
  obtain ⟨hlt', hkeep⟩ := hk _ hlt
  exact ⟨hlt', hadm.of_keeps hkeep⟩

theorem addCatalog_sound {w : Workspace} (h : w.Sound) (c : Catalog) : (w.addCatalog c).1.Sound := by
  refine h.of_catalogs rfl fun id hid => ?_
  have hsame : (w.addCatalog c).1.catalog id = w.catalog id := by
    simp only [catalog, addCatalog, Array.getElem?_push]
    rw [if_neg (by omega)]
  refine ⟨?_, hsame ▸ Catalog.Keeps.refl _⟩
  simp only [addCatalog, Array.size_push]
  omega

theorem registerIn_sound {w w' : Workspace} (h : w.Sound) {id : CatalogId} {d : Definition}
    (hr : w.registerIn id d = .ok w') : w'.Sound := by
  unfold registerIn at hr
  cases hc : w.catalogs[id]? with
  | none =>
    rw [hc] at hr
    injection hr with hr
    exact hr ▸ h
  | some c =>
    simp only [hc] at hr
    cases hreg : c.register d with
    | error f => rw [hreg] at hr; exact absurd hr (by simp)
    | ok c' =>
      rw [hreg] at hr
      injection hr with hr
      subst hr
      refine h.of_catalogs rfl fun k hk => ⟨by simpa using hk, ?_⟩
      by_cases hkid : id = k
      · -- the catalog that is registered in
        subst hkid
        have hnew : (w.catalogs.setIfInBounds id c')[id]? = some c' := by
          simp [hk]
        simp only [catalog, hc, hnew, Option.getD_some]
        exact Catalog.register_keeps hreg
      · have hold : (w.catalogs.setIfInBounds id c')[k]? = w.catalogs[k]? :=
          Array.getElem?_setIfInBounds_ne hkid
        simp only [catalog, hold]
        exact Catalog.Keeps.refl _

theorem addElement_sound {w w' : Workspace} (h : w.Sound) {l : Location} {o : Options CatalogId}
    {id : ElementId} (ho : ∀ k, o.catalog = some k → k < w.catalogs.size)
    (ha : w.addElement l o = .ok (w', id)) : w'.Sound := by
  have hlt : o.catalog.getD standardCatalog < w.catalogs.size := by
    cases hc : o.catalog with
    | none => exact h.standard_there
    | some k => exact ho k hc
  unfold addElement at ha
  cases hann : o.annotate (w.catalog (o.catalog.getD standardCatalog)) l with
  | error f => simp only [hann] at ha; exact absurd ha (by simp)
  | ok a =>
    simp only [hann, Except.ok.injEq, Prod.mk.injEq] at ha
    obtain ⟨rfl, -⟩ := ha
    refine ⟨h.standard_there, fun k e hk => ?_⟩
    rw [Array.getElem?_push] at hk
    split at hk
    · injection hk with hk
      subst hk
      exact ⟨hlt, Options.annotate_admitted hann⟩
    · exact h.elements_admitted k e hk

/-- **Frame.** Other annotations of one element that are in order as well keep the invariant. -/
theorem setAnnotations_sound {w : Workspace} (h : w.Sound) {id : ElementId} {a : Annotations}
    (ha : ∀ e, w.elements[id]? = some e → a.Admitted (w.catalog e.catalog) e.location) :
    (w.setAnnotations id a).Sound := by
  refine ⟨h.standard_there, fun k e hk => ?_⟩
  simp only [setAnnotations, Array.getElem?_modify] at hk
  split at hk
  · next hid =>
    obtain ⟨e₀, he₀, rfl⟩ := Option.map_eq_some_iff.mp hk
    subst hid
    exact ⟨(h.elements_admitted id e₀ he₀).1, ha e₀ he₀⟩
  · exact h.elements_admitted k e hk

theorem attach_sound {w w' : Workspace} (h : w.Sound) {id : ElementId} {d : Directive}
    (ha : w.attach id d = .ok w') : w'.Sound := by
  unfold attach at ha
  cases he : w.elements[id]? with
  | none =>
    rw [he] at ha
    injection ha with ha
    exact ha ▸ h
  | some e =>
    simp only [he] at ha
    cases hann : e.annotations.attach (w.catalog e.catalog) e.location d with
    | error f => rw [hann] at ha; exact absurd ha (by simp)
    | ok a =>
      rw [hann] at ha
      injection ha with ha
      subst ha
      refine setAnnotations_sound h fun e' he' => ?_
      rw [he] at he'
      injection he' with he'
      exact he' ▸ Annotations.attach_admitted (h.elements_admitted id e he).2 hann

theorem freeze_sound {w : Workspace} (h : w.Sound) (id : ElementId) : (w.freeze id).Sound := by
  refine setAnnotations_sound h fun e he => ?_
  have hann : w.annotations id = e.annotations := by simp [annotations, he]
  rw [hann]
  exact Annotations.freeze_admitted (h.elements_admitted id e he).2

/-! ## Steps and runs -/

/-- Every call that succeeds keeps the invariant. -/
theorem perform_sound {w w' : Workspace} (h : w.Sound) {a : Action} (hn : w.canName a = true)
    (hp : w.perform a = .ok w') : w'.Sound := by
  cases a with
  | create ds =>
    obtain ⟨c, -, rfl⟩ := map_eq_ok.mp hp
    exact addCatalog_sound h c
  | register id d => exact registerIn_sound h hp
  | extend id ds =>
    obtain ⟨⟨w₁, k⟩, hx, rfl⟩ := map_eq_ok.mp hp
    unfold extendCatalog at hx
    cases hc : (w.catalog id).extended ds with
    | error f => rw [hc] at hx; exact absurd hx (by simp)
    | ok c =>
      simp only [hc, Except.ok.injEq] at hx
      exact hx ▸ addCatalog_sound h c
  | construct l tags inaccessible authenticated ds catalog =>
    obtain ⟨o, ho, hp⟩ := bind_eq_ok.mp hp
    obtain ⟨⟨w₁, k⟩, hx, rfl⟩ := map_eq_ok.mp hp
    refine addElement_sound h (fun k hk => ?_) hx
    rw [Options.ofValues_catalog ho] at hk
    simpa [canName, hk] using hn
  | attach id d =>
    obtain ⟨⟨w₁, d'⟩, hx, rfl⟩ := map_eq_ok.mp hp
    obtain ⟨d₁, -, hx⟩ := bind_eq_ok.mp hx
    obtain ⟨w₂, hx, hx'⟩ := bind_eq_ok.mp hx
    injection hx' with hx'
    injection hx' with hw
    exact hw ▸ attach_sound h hx
  | freeze id =>
    injection hp with hp
    exact hp ▸ freeze_sound h id

/-- Every call keeps the invariant: one that fails changes nothing. -/
theorem after_sound {w : Workspace} (h : w.Sound) (a : Action) : (w.after a).Sound := by
  unfold after
  split
  · next hn =>
    cases hp : w.perform a with
    | error f => exact h
    | ok w' => exact perform_sound h hn hp
  · exact h

/-- The invariant holds after every run. -/
theorem run_sound (actions : List Action) : (run actions).Sound := by
  unfold run
  suffices hall : ∀ w : Workspace, w.Sound → (actions.foldl after w).Sound from hall {} initial_sound
  induction actions with
  | nil => exact fun w hw => hw
  | cons a as ih => exact fun w hw => ih (w.after a) (after_sound hw a)

/-- **What a catalog allowed stays allowed.** After every run, each directive of each element has a
definition in the catalog of the element as it is now; that definition allows the place of the element;
and a directive whose definition is not repeatable is the only one of its name there. -/
theorem run_admitted (actions : List Action) (id : ElementId) (e : Element)
    (he : (run actions).elements[id]? = some e) (d : Directive)
    (hd : d ∈ e.annotations.directives) :
    ∃ definition, ((run actions).catalog e.catalog).lookup d.name = .ok definition ∧
      definition.allows e.location = true ∧
      (definition.repeatable = false → e.annotations.names.count d.name = 1) := by
  obtain ⟨definition, hf, hrest⟩ := ((run_sound actions).elements_admitted id e he).2 d hd
  exact ⟨definition, Catalog.lookup_eq_ok_iff.mpr hf, hrest⟩

/-- A run in which a catalog goes on growing behind an element that uses it: the second attachment of
`key`, the second registration of `key`, and the attachment after the freeze are refused. -/
def growingRun : List Action :=
  [.extend standardCatalog [⟨"key", ⟨[2], "2.0"⟩, [.object], false⟩],
    .construct .object (.list [.text "a", .text "b"]) (.bool true) .null [] (some 1),
    .register 1 ⟨"note", ⟨[2, 1], "2.1"⟩, [.object], true⟩,
    .attach 0 ⟨.text "key", .null⟩,
    .attach 0 ⟨.text "key", .null⟩,
    .register 1 ⟨"key", ⟨[2], "2.0"⟩, [], true⟩,
    .attach 0 ⟨.text "note", .null⟩,
    .freeze 0,
    .attach 0 ⟨.text "note", .null⟩]

/-- The element after that run. -/
def growingElement : Element where
  location := .object
  catalog := 1
  annotations :=
    ⟨[⟨"tag", [⟨"name", .text "a"⟩]⟩, ⟨"tag", [⟨"name", .text "b"⟩]⟩, ⟨"inaccessible", []⟩,
      ⟨"key", []⟩, ⟨"note", []⟩], true⟩

/-- `run_admitted` at the run above, for the directive whose second attachment was refused. -/
theorem run_admitted_growing :
    (run growingRun).elements[0]? = some growingElement ∧
      (⟨"key", []⟩ : Directive) ∈ growingElement.annotations.directives ∧
      ∃ definition, ((run growingRun).catalog growingElement.catalog).lookup "key" = .ok definition ∧
        definition.allows growingElement.location = true ∧
        (definition.repeatable = false → growingElement.annotations.names.count "key" = 1) := by
  have he : (run growingRun).elements[0]? = some growingElement := by rfl
  have hd : (⟨"key", []⟩ : Directive) ∈ growingElement.annotations.directives := by
    simp [growingElement]
  exact ⟨he, hd, run_admitted growingRun 0 growingElement he _ hd⟩

end Workspace
end Subgraph
