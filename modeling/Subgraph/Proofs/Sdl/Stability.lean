import Subgraph.Proofs.Schema.Contents
import Subgraph.Sdl.Document

/-!
# `Sdl.Stability` — a document depends on its schema alone

Printing looks types up by their indices and directives up by the elements of parts. A workspace that
has grown gives the same answers to both, as far as the schema reaches: types under old indices are the
same (`TypeGraph.Extends`), and every type that is reached was there (`TypeGraph.Closed`). So the
document is the same, whether it is a text or a failure (`documentAt_congr`).

The module follows the printers from the default values up. Each of them has one lemma here, named for
what is written, with the old graph on the right. The printers of types need to know of the two graphs
only what they write alike (`Alike`), and of two decorations that they agree on the parts of the type
(`decoratedType_congr`).
-/

namespace Subgraph

variable {g g' : TypeGraph}

namespace Sdl

open TypeGraph (nameOf_eq map_nameOf_eq refText_eq type?_eq)

/-! ## Default values -/

theorem leafLiteral_eq (hg : g.Extends g') {id : TypeId} (hid : g.Has id) (v : Value) :
    leafLiteral g' id v = leafLiteral g id v := by
  rw [leafLiteral, leafLiteral, type?_eq hg hid]

theorem inputFieldsOf?_eq (hg : g.Extends g') {id : TypeId} (hid : g.Has id) :
    inputFieldsOf? g' id = inputFieldsOf? g id := by
  rw [inputFieldsOf?, inputFieldsOf?, type?_eq hg hid]

/-- In a closed graph the fields of an input object have types that are there. -/
theorem has_of_inputFieldsOf? (hc : g.Closed) {id : TypeId} {fields : List InputValue}
    (h : inputFieldsOf? g id = some fields) : ∀ f ∈ fields, g.Has f.type.base := by
  unfold inputFieldsOf? at h
  cases ht : g.type? id with
  | none => rw [ht] at h; exact absurd h (by simp)
  | some t =>
    simp only [ht] at h
    cases hb : t.body with
    | inputObject oneOf fields' =>
      rw [hb] at h
      injection h with h
      subst h
      intro f hf
      have hmem : f ∈ t.body.inputFields := by
        rw [hb]
        exact hf
      exact hc id t ht _ (.inputField hmem)
    | _ => rw [hb] at h; exact absurd h (by simp)

/-- The items of a list type are of the type below its wrappers. -/
theorem base_of_itemType? {r item : TypeRef} (h : itemType? r = some item) :
    item.base = r.base := by
  unfold itemType? at h
  split at h
  · next of hof =>
    injection h with h
    subst h
    -- at most the mark that forbids null stands around the list
    cases r with
    | named id => exact absurd hof (by simp [nullable])
    | list of' =>
      injection hof with hof
      rw [hof, TypeRef.base]
    | nonNull of' =>
      rw [nullable] at hof
      rw [hof, TypeRef.base, TypeRef.base]
  · exact absurd h (by simp)

-- along the values, as they are defined
mutual
/-- The literal of a default value is the same. -/
theorem defaultLiteral_eq (hg : g.Extends g') (hc : g.Closed) {r : TypeRef} (hr : g.Has r.base)
    (v : Value) : defaultLiteral g' r v = defaultLiteral g r v := by
  cases v with
  | null => cases r <;> rfl
  | list items | tuple items =>
    rw [defaultLiteral, defaultLiteral]
    cases hitem : itemType? r with
    | none => exact leafLiteral_eq hg hr _
    | some item =>
      have hbase : g.Has item.base := base_of_itemType? hitem ▸ hr
      have hitems := itemLiterals_eq hg hc hbase items
      simp only [hitems]
  | dict entries =>
    rw [defaultLiteral, defaultLiteral, inputFieldsOf?_eq hg hr]
    cases hfields : inputFieldsOf? g r.base with
    | none => exact leafLiteral_eq hg hr _
    | some fields =>
      have hentries := entryLiterals_eq hg hc (has_of_inputFieldsOf? hc hfields) entries
      simp only [hentries]
  | _ =>
    rw [defaultLiteral, defaultLiteral]
    exact leafLiteral_eq hg hr _

theorem itemLiterals_eq (hg : g.Extends g') (hc : g.Closed) {r : TypeRef} (hr : g.Has r.base)
    (vs : List Value) : itemLiterals g' r vs = itemLiterals g r vs := by
  cases vs with
  | nil => rw [itemLiterals, itemLiterals]
  | cons v vs =>
    have hv := defaultLiteral_eq hg hc hr v
    have hvs := itemLiterals_eq hg hc hr vs
    rw [itemLiterals, itemLiterals, hv, hvs]

theorem entryLiterals_eq (hg : g.Extends g') (hc : g.Closed) {fields : List InputValue}
    (hf : ∀ f ∈ fields, g.Has f.type.base) (es : List (Value × Value)) :
    entryLiterals g' fields es = entryLiterals g fields es := by
  match es with
  | [] => rw [entryLiterals, entryLiterals]
  | (k, v) :: es =>
    have hes := entryLiterals_eq hg hc hf es
    cases k with
    | text name =>
      rw [entryLiterals, entryLiterals, hes]
      cases hfound : fields.find? fun f => f.name == name with
      | none => rfl
      | some f =>
        have hbase : g.Has f.type.base := hf f (List.mem_of_find?_eq_some hfound)
        have hv := defaultLiteral_eq hg hc hbase v
        simp only [hv]
    | _ => simpa only [entryLiterals] using hes
end

/-! ## Parts of types -/

/-- Items whose texts are the same are written the same. -/
theorem eachText_congr {α : Type} {text text' : Bool → α → Except Failure String} {xs : List α}
    (h : ∀ x ∈ xs, ∀ first, text' first x = text first x) (first : Bool) :
    eachText text' first xs = eachText text first xs := by
  induction xs generalizing first with
  | nil => rfl
  | cons x xs ih =>
    rw [List.forall_mem_cons] at h
    rw [eachText, eachText, h.1 first, ih h.2]

theorem inputValueText_eq (hg : g.Extends g') (hc : g.Closed) {a : InputValue}
    (ha : g.Has a.type.base) : inputValueText g' a = inputValueText g a := by
  have hdefault : defaultText g' a = defaultText g a := by
    unfold defaultText
    cases a.default with
    | none => rfl
    | some v =>
      have hv := defaultLiteral_eq hg hc ha v
      simp only [hv]
  rw [inputValueText, inputValueText, hdefault, refText_eq hg ha]

/-- Arguments are written the same if each of them is. -/
theorem argumentsText_congr {as : List InputValue}
    (has : ∀ a ∈ as, inputValueText g' a = inputValueText g a) (indent : String) :
    argumentsText g' indent as = argumentsText g indent as := by
  have hinline : eachText (fun _ a => inputValueText g' a) true as =
      eachText (fun _ a => inputValueText g a) true as :=
    eachText_congr (fun a ha _ => has a ha) true
  have hline : ∀ a ∈ as, ∀ first : Bool,
      (do let t ← inputValueText g' a
          .ok (description a.description ("  " ++ indent) first ++ ("  " ++ indent) ++ t)) =
      (do let t ← inputValueText g a
          .ok (description a.description ("  " ++ indent) first ++ ("  " ++ indent) ++ t)) := by
    intro a ha first
    rw [has a ha]
  simp only [argumentsText, hinline, eachText_congr hline]

/-- Two graphs write a field alike: the type that it has, and its arguments. -/
def FieldAlike (g g' : TypeGraph) (f : Field) : Prop :=
  g'.refText f.type = g.refText f.type ∧
    ∀ a ∈ f.arguments, inputValueText g' a = inputValueText g a

theorem fieldText_congr {f : Field} (hf : FieldAlike g g' f) (first : Bool) :
    fieldText g' first f = fieldText g first f := by
  rw [fieldText, fieldText, argumentsText_congr hf.2, hf.1]

theorem inputFieldText_congr {f : InputValue} (hf : inputValueText g' f = inputValueText g f)
    (first : Bool) : inputFieldText g' first f = inputFieldText g first f := by
  rw [inputFieldText, inputFieldText, hf]

/-! ## Parts with directives

The two decorations have to agree on the parts that are written, and on no other. -/

variable {of of' : Decoration}

theorem decoratedInputValue_congr {a : InputValue} (ha : inputValueText g' a = inputValueText g a)
    (hof : of' a.element = of a.element) :
    decoratedInputValue g' of' a = decoratedInputValue g of a := by
  rw [decoratedInputValue, decoratedInputValue, ha, hof]

theorem decoratedArguments_congr {as : List InputValue}
    (has : ∀ a ∈ as, inputValueText g' a = inputValueText g a)
    (hof : ∀ a ∈ as, of' a.element = of a.element) :
    decoratedArguments g' of' as = decoratedArguments g of as := by
  have hvalue : ∀ a ∈ as, decoratedInputValue g' of' a = decoratedInputValue g of a :=
    fun a ha => decoratedInputValue_congr (has a ha) (hof a ha)
  have hinline : eachText (fun _ a => decoratedInputValue g' of' a) true as =
      eachText (fun _ a => decoratedInputValue g of a) true as :=
    eachText_congr (fun a ha _ => hvalue a ha) true
  have hline : ∀ a ∈ as, ∀ first : Bool,
      (do let t ← decoratedInputValue g' of' a
          .ok (description a.description "    " first ++ "    " ++ t)) =
      (do let t ← decoratedInputValue g of a
          .ok (description a.description "    " first ++ "    " ++ t)) := by
    intro a ha first
    rw [hvalue a ha]
  rw [decoratedArguments, decoratedArguments, hinline, eachText_congr hline]

theorem decoratedField_congr {f : Field} (hf : FieldAlike g g' f)
    (hof : ∀ part ∈ f.parts, of' part.element = of part.element) (first : Bool) :
    decoratedField g' of' first f = decoratedField g of first f := by
  rw [Field.parts, List.forall_mem_cons, List.forall_mem_map] at hof
  rw [decoratedField, decoratedField, decoratedArguments_congr hf.2 hof.2, hof.1, hf.1]

theorem decoratedInputField_congr {f : InputValue} (hf : inputValueText g' f = inputValueText g f)
    (hof : of' f.element = of f.element) (first : Bool) :
    decoratedInputField g' of' first f = decoratedInputField g of first f := by
  rw [decoratedInputField, decoratedInputField, decoratedInputValue_congr hf hof]

/-! ## Types -/

/-- Two graphs write a type alike: the names of the types that it refers to, and its default values. -/
structure Alike (g g' : TypeGraph) (t : TypeDef) : Prop where
  interfaces : t.body.interfaces.map g'.nameOf = t.body.interfaces.map g.nameOf
  members : t.body.members.map g'.nameOf = t.body.members.map g.nameOf
  fields : ∀ f ∈ t.body.fields, FieldAlike g g' f
  inputFields : ∀ f ∈ t.body.inputFields, inputValueText g' f = inputValueText g f

namespace Alike

/-- The interfaces of a type are written the same. -/
theorem implementsText {t : TypeDef} (h : Alike g g' t) {ids : List TypeId}
    (hids : t.body.interfaces = ids) : Sdl.implementsText g' ids = Sdl.implementsText g ids := by
  have hnames := h.interfaces
  rw [hids] at hnames
  rw [Sdl.implementsText, Sdl.implementsText, hnames]

/-- The members of a union are written the same. -/
theorem membersText {t : TypeDef} (h : Alike g g' t) {ids : List TypeId}
    (hids : t.body.members = ids) : Sdl.membersText g' ids = Sdl.membersText g ids := by
  have hnames := h.members
  rw [hids] at hnames
  rw [Sdl.membersText, Sdl.membersText, hnames]

theorem refl (g : TypeGraph) (t : TypeDef) : Alike g g t :=
  ⟨rfl, rfl, fun _ _ => ⟨rfl, fun _ _ => rfl⟩, fun _ _ => rfl⟩

end Alike

/-- A graph that has grown writes a type alike whose references were there. -/
theorem alike_of_covers (hg : g.Extends g') (hc : g.Closed) {t : TypeDef} (ht : g.Covers t) :
    Alike g g' t where
  interfaces := map_nameOf_eq hg fun id hid => ht id (.interface hid)
  members := map_nameOf_eq hg fun id hid => ht id (.member hid)
  fields := by
    intro f hf
    refine ⟨refText_eq hg (ht _ (.field hf)), fun a ha => ?_⟩
    exact inputValueText_eq hg hc (ht _ (.argument hf ha))
  inputFields := fun _ hf => inputValueText_eq hg hc (ht _ (.inputField hf))

/-- A type is written the same. -/
theorem typeText_congr {t : TypeDef} (ht : Alike g g' t) : typeText g' t = typeText g t := by
  unfold typeText
  cases hb : t.body with
  | scalar url => rfl
  | enum values => rfl
  | union members =>
    have hmembers : membersText g' members = membersText g members :=
      ht.membersText (by rw [hb]; rfl)
    simp only [hmembers]
  | object interfaces fields | interface interfaces fields =>
    have hinterfaces : implementsText g' interfaces = implementsText g interfaces :=
      ht.implementsText (by rw [hb]; rfl)
    have hfields : ∀ f ∈ fields, FieldAlike g g' f := fun f hf => ht.fields f (by rwa [hb])
    have htexts := eachText_congr (fun f hf => fieldText_congr (hfields f hf)) true
    simp only [htexts, hinterfaces]
  | inputObject oneOf fields =>
    have hfields : ∀ f ∈ fields, inputValueText g' f = inputValueText g f :=
      fun f hf => ht.inputFields f (by rwa [hb])
    have htexts := eachText_congr (fun f hf => inputFieldText_congr (hfields f hf)) true
    simp only [htexts]

/-- A type is written the same with directives, if those behind its parts are the same. -/
theorem decoratedType_congr {t : TypeDef} (ht : Alike g g' t)
    (hof : ∀ part ∈ t.parts, of' part.element = of part.element) :
    decoratedType g' of' t = decoratedType g of t := by
  rw [TypeDef.parts, List.forall_mem_cons] at hof
  obtain ⟨hown, hparts⟩ := hof
  unfold decoratedType
  cases hb : t.body with
  | scalar url => simp only [decoratedScalar, hown]
  | union members =>
    have hmembers : membersText g' members = membersText g members :=
      ht.membersText (by rw [hb]; rfl)
    simp only [decoratedUnion, hown, hmembers]
  | enum values =>
    rw [hb, TypeBody.parts, List.forall_mem_map] at hparts
    have hvalue : ∀ v ∈ values, ∀ first,
        decoratedEnumValue of' first v = decoratedEnumValue of first v := by
      intro v hv first
      have hbehind : of' v.element = of v.element := hparts v hv
      rw [decoratedEnumValue, decoratedEnumValue, hbehind]
    simp only [decoratedEnum, hown, eachText_congr hvalue]
  | object interfaces fields | interface interfaces fields =>
    rw [hb, TypeBody.parts] at hparts
    have hinterfaces : implementsText g' interfaces = implementsText g interfaces :=
      ht.implementsText (by rw [hb]; rfl)
    have hfields : ∀ f ∈ fields, FieldAlike g g' f := fun f hf => ht.fields f (by rwa [hb])
    have htexts := eachText_congr (fun f hf => decoratedField_congr (hfields f hf)
      fun part hpart => hparts part (List.mem_flatMap.mpr ⟨f, hf, hpart⟩)) true
    simp only [decoratedObject, hown, htexts, hinterfaces]
  | inputObject oneOf fields =>
    rw [hb, TypeBody.parts, List.forall_mem_map] at hparts
    have hfields : ∀ f ∈ fields, inputValueText g' f = inputValueText g f :=
      fun f hf => ht.inputFields f (by rwa [hb])
    have htexts := eachText_congr
      (fun f hf => decoratedInputField_congr (hfields f hf) (hparts f hf)) true
    simp only [decoratedInputObject, hown, htexts]

/-! ## Documents -/

/-- A declared directive is written the same. -/
theorem directiveText_eq (hg : g.Extends g') (hc : g.Closed) {d : DirectiveDeclaration}
    (hd : ∀ a ∈ d.arguments, g.Has a.type.base) : directiveText g' d = directiveText g d := by
  rw [directiveText, directiveText,
    argumentsText_congr fun a ha => inputValueText_eq hg hc (hd a ha)]

/-- The root types of a schema are there. -/
theorem has_of_rootTypes {s : Schema} (hs : s.Within g) : ∀ r ∈ rootTypes s, g.Has r.2 := by
  intro r hr
  apply hs.roots
  simp only [rootTypes, List.mem_append, List.mem_map] at hr
  simp only [Schema.rootIds, List.mem_append]
  rcases hr with (⟨id, hid, rfl⟩ | ⟨id, hid, rfl⟩) | ⟨id, hid, rfl⟩
  · exact Or.inl (Or.inl hid)
  · exact Or.inl (Or.inr hid)
  · exact Or.inr hid

/-- The definition of a schema is written the same. -/
theorem schemaDefinition_eq (hg : g.Extends g') {s : Schema} (hs : s.Within g) :
    schemaDefinition g' s = schemaDefinition g s := by
  have hnames : ∀ r ∈ rootTypes s, g'.nameOf r.2 = g.nameOf r.2 :=
    fun r hr => nameOf_eq hg (has_of_rootTypes hs r hr)
  have hcommon : hasCommonRootNames g' s = hasCommonRootNames g s := by
    unfold hasCommonRootNames
    rw [Bool.eq_iff_iff, List.all_eq_true, List.all_eq_true]
    exact forall₂_congr fun r hr => by rw [hnames r hr]
  have hlines : ((rootTypes s).map fun r => "  " ++ r.1 ++ ": " ++ g'.nameOf r.2) =
      (rootTypes s).map fun r => "  " ++ r.1 ++ ": " ++ g.nameOf r.2 :=
    List.map_congr_left fun r hr => by rw [hnames r hr]
  rw [schemaDefinition, schemaDefinition, hcommon, hlines]

/-- A document is written the same, if its types are. -/
theorem document_eq (hg : g.Extends g') (hc : g.Closed) {s : Schema} (hs : s.Within g)
    {text text' : TypeDef → Except Failure String}
    (htext : ∀ t ∈ s.definedTypes g, text' t = text t) :
    document g' s text' = document g s text := by
  have hdirectives : (statedDirectives s).mapM (directiveText g') =
      (statedDirectives s).mapM (directiveText g) :=
    mapM_congr fun d hd => directiveText_eq hg hc (hs.arguments d (List.mem_filter.mp hd).1)
  rw [document, document, hdirectives, Schema.definedTypes_eq hs hg, mapM_congr htext,
    schemaDefinition_eq hg hs]

theorem plainDocument_eq (hg : g.Extends g') (hc : g.Closed) {s : Schema} (hs : s.Within g) :
    plainDocument g' s = plainDocument g s :=
  document_eq hg hc hs fun _ ht =>
    typeText_congr (alike_of_covers hg hc (Schema.covers_of_closed hc ht))

/-- Types refer to types of the same names. -/
theorem checkReferences_eq (hg : g.Extends g') (hc : g.Closed) {s : Schema} (hs : s.Within g) :
    s.checkReferences g' = s.checkReferences g := by
  have hnames : s.referencedNames g' = s.referencedNames g := by
    unfold Schema.referencedNames
    rw [Schema.definedTypes_eq hs hg]
    refine List.flatMap_congr fun t ht => map_nameOf_eq hg fun id hid => ?_
    exact Schema.covers_of_closed hc ht id (TypeDef.mem_referenced.mp hid)
  rw [Schema.checkReferences, Schema.checkReferences, hnames]

variable {w w' : Workspace} {s : Schema} {c : Catalog} {v : Version}

/-- The same directives are attached within the schema. -/
theorem attached_eq (hg : w.graph.Extends w'.graph) (hs : s.Within w.graph)
    (hd : ∀ part ∈ s.parts w.graph, w'.directivesOf part.element = w.directivesOf part.element) :
    w'.attached s = w.attached s := by
  unfold Workspace.attached
  rw [Schema.parts_eq hs hg]
  exact List.flatMap_congr hd

/-- A type is active for the same directives, and written the same with them. -/
theorem federationTypeText_eq (hg : w.graph.Extends w'.graph) (hc : w.graph.Closed) {t : TypeDef}
    (ht : w.graph.Covers t)
    (hd : ∀ part ∈ t.parts, w'.directivesOf part.element = w.directivesOf part.element) :
    hasActive w' c v t = hasActive w c v t ∧
      federationTypeText w' c v t = federationTypeText w c v t := by
  have hactive : hasActive w' c v t = hasActive w c v t := by
    unfold hasActive
    rw [Bool.eq_iff_iff, List.any_eq_true, List.any_eq_true]
    refine exists_congr fun part => and_congr_right fun hpart => ?_
    rw [hd part hpart]
  have hof : ∀ part ∈ t.parts,
      decoration w' c v part.element = decoration w c v part.element := by
    intro part hpart
    rw [decoration, decoration, hd part hpart]
  refine ⟨hactive, ?_⟩
  have halike : Alike w.graph w'.graph t := alike_of_covers hg hc ht
  rw [federationTypeText, federationTypeText, hactive, decoratedType_congr halike hof,
    typeText_congr halike]

/-- **A document depends on its schema alone:** in a workspace that has the same types under the old
indices and the same directives on the parts of the schema, the outcome is the same. -/
theorem documentAt_congr (hg : w.graph.Extends w'.graph) (hc : w.graph.Closed)
    (hs : s.Within w.graph)
    (hd : ∀ part ∈ s.parts w.graph, w'.directivesOf part.element = w.directivesOf part.element) :
    documentAt w' s c v = documentAt w s c v := by
  have htypes : ∀ t ∈ s.definedTypes w.graph, hasActive w' c v t = hasActive w c v t ∧
      federationTypeText w' c v t = federationTypeText w c v t := by
    intro t ht
    refine federationTypeText_eq hg hc (Schema.covers_of_closed hc ht) fun part hpart => ?_
    exact hd part (List.mem_flatMap.mpr ⟨t, ht, hpart⟩)
  have hany : (s.definedTypes w'.graph).any (hasActive w' c v) =
      (s.definedTypes w.graph).any (hasActive w c v) := by
    rw [Schema.definedTypes_eq hs hg, Bool.eq_iff_iff, List.any_eq_true, List.any_eq_true]
    refine exists_congr fun t => and_congr_right fun ht => ?_
    rw [(htypes t ht).1]
  have hbody : federationBody w' s c v = federationBody w s c v := by
    rw [federationBody, federationBody, hany, plainDocument_eq hg hc hs,
      document_eq hg hc hs fun t ht => (htypes t ht).2]
  have hcheck : w'.checkDirectives s c = w.checkDirectives s c := by
    rw [Workspace.checkDirectives, Workspace.checkDirectives, Workspace.unknownDirective?_eq,
      Workspace.unknownDirective?_eq, attached_eq hg hs hd]
  rw [documentAt, documentAt, checkReferences_eq hg hc hs, hcheck, hbody,
    plainDocument_eq hg hc hs]

/-- The outcome is the same in particular where the elements of the schema have the same annotations. -/
theorem documentAt_eq_of_annotations (hg : w.graph.Extends w'.graph) (hc : w.graph.Closed)
    (hs : s.Within w.graph)
    (h : ∀ e ∈ s.elements w.graph, w'.annotations e = w.annotations e) :
    documentAt w' s c v = documentAt w s c v := by
  refine documentAt_congr hg hc hs fun part hpart => ?_
  cases he : part.element with
  | none => rfl
  | some e =>
    have hmem : e ∈ s.elements w.graph := Schema.mem_elements.mpr ⟨part, hpart, he⟩
    rw [Workspace.directivesOf, Workspace.directivesOf, h e hmem]

/-- With a catalog and a version given, a document depends on the contents of its schema alone. -/
theorem documentAt_of_contents {s' : Schema} (h : s'.contents = s.contents) (w : Workspace)
    (c : Catalog) (v : Version) : documentAt w s' c v = documentAt w s c v := by
  have hcontents : documentAt w s'.contents c v = documentAt w s.contents c v := by rw [h]
  exact hcontents

end Sdl
end Subgraph
