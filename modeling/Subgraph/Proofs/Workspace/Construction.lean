import Subgraph.Proofs.Directive.Spelling
import Subgraph.Proofs.Workspace.Attachment
import Subgraph.Schema.Declaration

/-!
# `Workspace.Construction` — constructing with options is adding one by one

There are two ways to annotate an element: by the options that it is constructed with, and by adding
directives to it afterwards. They are of different leniency. What the options say in short is left out
where the catalog does not allow it, while a directive that is added, or given as such, must be allowed.

An `Attempt` says which of the two a directive is, and `Options.attempts` lists what options stand for.
Constructing an element with options then is constructing it without any and making these attempts, one
after the other, each through `Workspace.addDirective` (`addElement_eq`). This holds of constructions with
a catalog that is there, and of declared elements, whose catalog is made with them and whose host has
checks of its own (`construct_one_by_one`).
-/

namespace Subgraph

/-! ## Labels -/

/-- What the item of a tag option says: a text says itself, and a record what stands under `name`. -/
inductive Says : Value → Value → Prop where
  | text (s : String) : Says (.text s) (.text s)
  | record {entries : List (Value × Value)} {label : Value}
    (h : Value.lookup? entries "name" = some label) : Says (.dict entries) label

/-- The labels that a tag option states: none if it counts as false, and otherwise one for each item. -/
def StatesLabels (tags : Value) (labels : List Value) : Prop :=
  (tags.isTrue = false ∧ labels = []) ∨
    (tags.isTrue = true ∧ ∃ items, tags.items? = some items ∧ List.Forall₂ Says items labels)

/-! ## Attempts -/

/-- A directive that is to be attached to an element: said in short, or given as such. -/
inductive Attempt where
  | shorthand (d : Directive)
  | explicit (d : Directive)

/-- A directive as it is added to an element: by its name, and its arguments as a sequence. -/
def Directive.loose (d : Directive) : LooseDirective :=
  ⟨.text d.name, .tuple (d.arguments.map fun a => .argument a.name a.value)⟩

namespace Options

/-- The directive of a label. -/
def labelDirective (label : Value) : Directive := ⟨"tag", [⟨"name", label⟩]⟩

/-- What is said in short: a label for each tag, and the two marks as far as they are set. -/
def short (labels : List Value) (inaccessible authenticated : Bool) : List Directive :=
  labels.map labelDirective ++ (if inaccessible then [⟨"inaccessible", []⟩] else []) ++
    (if authenticated then [⟨"authenticated", []⟩] else [])

/-- What options stand for, in order: what is said in short, and the directives given as such. -/
def attempts (labels : List Value) (inaccessible authenticated : Bool) (ds : List Directive) :
    List Attempt :=
  (short labels inaccessible authenticated).map .shorthand ++ ds.map .explicit

end Options

namespace Workspace

/-- An attempt at an element. What is said in short is looked up in the catalog of the element, is left
out where it may not stand, and is added otherwise; what is given as such is added. -/
def attempt (w : Workspace) (id : ElementId) : Attempt → Except Failure Workspace
  | .explicit d => (w.addDirective id d.loose).map (·.1)
  | .shorthand d =>
    match w.elements[id]? with
    | none => .ok w
    | some e => do
      let definition ← (w.catalog e.catalog).lookup d.name
      if definition.allows e.location then (w.addDirective id d.loose).map (·.1) else .ok w

/-- Attempts at an element, one after the other. -/
def attemptAll (w : Workspace) (id : ElementId) (attempts : List Attempt) :
    Except Failure Workspace :=
  attempts.foldlM (fun w a => w.attempt id a) w

/-- A workspace with one more element, whose annotations are given. -/
def withElement (w : Workspace) (l : Location) (k : CatalogId) (a : Annotations) : Workspace :=
  { w with elements := w.elements.push ⟨l, k, a⟩ }

end Workspace

/-! ## What is declared is read back -/

/-- A directive is read back from how it is added. -/
theorem Directive.read_loose (d : Directive) : d.loose.read = .ok d := by
  have hlist : Argument.listOf d.loose.arguments = .ok d.arguments := Argument.listOf_asItems d.arguments
  rw [LooseDirective.read, hlist]
  rfl

/-- What an item says is its label. -/
theorem Says.tagDirective_eq {item label : Value} (h : Says item label) :
    Options.tagDirective item = .ok (Options.labelDirective label) := by
  cases h with
  | text s => rfl
  | record hname =>
    rw [Options.tagDirective, Options.label, hname]
    rfl

/-- The labels of items become the directives of the items. -/
theorem Options.tagDirectives_eq {items labels : List Value} (h : List.Forall₂ Says items labels) :
    items.mapM Options.tagDirective = .ok (labels.map Options.labelDirective) := by
  refine mapM_eq_ok_iff.mpr (List.forall₂_map_right_iff.mpr ?_)
  exact h.imp fun _ _ hsays => hsays.tagDirective_eq

/-- The first of several directives that are said in short, and then the others. -/
theorem Options.attachShorthand_cons (c : Catalog) (l : Location) (a : Annotations) (d : Directive)
    (ds : List Directive) :
    Options.attachShorthand c l a (d :: ds) =
      Options.attachShorthand c l a [d] >>= fun a' => Options.attachShorthand c l a' ds := by
  simp only [Options.attachShorthand]
  cases c.lookup d.name with
  | error f => rfl
  | ok definition =>
    dsimp only
    split
    · cases a.attach c l d with
      | error f => rfl
      | ok a' => rfl
    · rfl

namespace Workspace

variable {w : Workspace} {l : Location} {k : CatalogId} {a : Annotations}

/-! ## The last element -/

/-- The last element of a workspace. -/
theorem withElement_getElem? : (w.withElement l k a).elements[w.elements.size]? = some ⟨l, k, a⟩ :=
  Array.getElem?_push_size

/-- Other annotations of the last element. -/
theorem setAnnotations_withElement (a' : Annotations) :
    (w.withElement l k a).setAnnotations w.elements.size a' = w.withElement l k a' := by
  have helements : (w.elements.push ⟨l, k, a⟩).modify w.elements.size
      (fun e => { e with annotations := a' }) = w.elements.push ⟨l, k, a'⟩ := by
    refine Array.ext_getElem? fun i => ?_
    rw [Array.getElem?_modify, Array.getElem?_push, Array.getElem?_push]
    by_cases hi : w.elements.size = i
    · simp [hi]
    · simp [hi, Ne.symm hi]
  unfold setAnnotations withElement
  rw [helements]

/-- Adding to the last element is attaching to its annotations. -/
theorem addDirective_withElement (d : Directive) :
    ((w.withElement l k a).addDirective w.elements.size d.loose).map (·.1) =
      (a.attach (w.catalog k) l d).map (w.withElement l k) := by
  have hcatalog : (w.withElement l k a).catalog k = w.catalog k := rfl
  rw [addDirective, Directive.read_loose, ok_bind, attach, withElement_getElem?]
  simp only [hcatalog]
  cases a.attach (w.catalog k) l d with
  | error f => rfl
  | ok a' => exact congrArg Except.ok (setAnnotations_withElement a')

/-- What is said in short, at the last element. -/
theorem attempt_shorthand (d : Directive) :
    (w.withElement l k a).attempt w.elements.size (.shorthand d) =
      (Options.attachShorthand (w.catalog k) l a [d]).map (w.withElement l k) := by
  have hcatalog : (w.withElement l k a).catalog k = w.catalog k := rfl
  rw [attempt, withElement_getElem?]
  simp only [hcatalog, addDirective_withElement, Options.attachShorthand]
  cases (w.catalog k).lookup d.name with
  | error f => rfl
  | ok definition =>
    rw [ok_bind]
    dsimp only
    split
    · cases a.attach (w.catalog k) l d with
      | error f => rfl
      | ok a' => rfl
    · rfl

/-! ## Attempts in a row -/

/-- What is said in short is attached one after the other, and what follows is attempted after that. -/
theorem attemptAll_shorthand (ds : List Directive) (rest : List Attempt) :
    (w.withElement l k a).attemptAll w.elements.size (ds.map .shorthand ++ rest) =
      Options.attachShorthand (w.catalog k) l a ds >>= fun a' =>
        (w.withElement l k a').attemptAll w.elements.size rest := by
  induction ds generalizing a with
  | nil => rfl
  | cons d ds ih =>
    rw [attemptAll, List.map_cons, List.cons_append, List.foldlM_cons, attempt_shorthand,
      Options.attachShorthand_cons (w.catalog k) l a d ds]
    cases Options.attachShorthand (w.catalog k) l a [d] with
    | error f => rfl
    | ok a' => exact ih

/-- What is given as such is attached one after the other. -/
theorem attemptAll_explicit (ds : List Directive) :
    (w.withElement l k a).attemptAll w.elements.size (ds.map .explicit) =
      (a.attachAll (w.catalog k) l ds).map (w.withElement l k) := by
  induction ds generalizing a with
  | nil => rfl
  | cons d ds ih =>
    rw [attemptAll, List.map_cons, List.foldlM_cons, attempt, addDirective_withElement,
      Annotations.attachAll]
    cases a.attach (w.catalog k) l d with
    | error f => rfl
    | ok a' => exact ih

/-! ## Construction -/

/-- **Constructing an element with options is constructing it without any and attempting, one after the
other, what the options stand for.** -/
theorem addElement_eq {o : Options CatalogId} {labels : List Value}
    (h : List.Forall₂ Says o.tags labels) :
    w.addElement l o =
      ((w.withElement l (o.catalog.getD standardCatalog) {}).attemptAll w.elements.size
        (Options.attempts labels o.inaccessible o.authenticated o.directives)).map
          (·, w.elements.size) := by
  generalize hk : o.catalog.getD standardCatalog = k
  have hshort : o.shorthand = .ok (Options.short labels o.inaccessible o.authenticated) := by
    rw [Options.shorthand, Options.tagDirectives_eq h]
    rfl
  have hannotate : o.annotate (w.catalog k) l =
      Options.attachShorthand (w.catalog k) l {}
          (Options.short labels o.inaccessible o.authenticated) >>= fun a =>
        a.attachAll (w.catalog k) l o.directives := by
    rw [Options.annotate, hshort, ok_bind]
  rw [Options.attempts, attemptAll_shorthand, addElement, hk]
  simp only [attemptAll_explicit, hannotate]
  cases Options.attachShorthand (w.catalog k) l {}
      (Options.short labels o.inaccessible o.authenticated) with
  | error f => rfl
  | ok a =>
    simp only [ok_bind]
    cases a.attachAll (w.catalog k) l o.directives with
    | error f => rfl
    | ok a' => rfl

/-! ## Declared elements -/

/-- The options that are declared: the directives are read, the catalog is made, the rest is told
apart. -/
theorem options_eq (w : Workspace) (m : Marking) :
    Building.options m w =
      m.directives.mapM LooseDirective.read >>= fun ds =>
        Building.catalog? m.catalog w >>= fun p =>
          (Options.ofValues m.tags m.inaccessible m.authenticated ds p.1).map (·, p.2) := by
  simp only [Building.options, bind, StateT.bind, Building.of]
  cases m.directives.mapM LooseDirective.read with
  | error f => rfl
  | ok ds => rfl

/-- The element that is declared: its options are told apart, its host makes its checks, and then it is
made. -/
theorem element_eq (w : Workspace) (l : Location) (m : Marking)
    (checks : Workspace → Except TypeGraph.Fault Unit) :
    Building.element l (some m) checks w =
      Building.options m w >>= fun p =>
        (checks p.2).mapError .typeGraph >>= fun _ =>
          (p.2.addElement l p.1).map fun q => (some q.2, q.1) := by
  cases hoptions : Building.options m w with
  | error f =>
    simp only [Building.element, bind, StateT.bind, hoptions]
    rfl
  | ok p =>
    -- what follows the options hands the workspace on, and takes that of the new element in the end
    have hrest : ∀ (checked : Except Failure Unit) (added : Except Failure (Workspace × ElementId)),
        ((checked.map (·, p.2)).bind fun x => (added.map (·, x.2)).bind fun y =>
            .ok (some y.1.2, y.1.1)) =
          checked.bind fun _ => added.map fun q => (some q.2, q.1) := by
      intro checked added
      cases checked <;> cases added <;> rfl
    simp only [Building.element, bind, StateT.bind, hoptions]
    exact hrest _ _

/-- A tag option that states labels is told apart, whatever the other options are. -/
theorem ofValues_of_statesLabels {tags : Value} {labels : List Value} (h : StatesLabels tags labels) :
    ∃ items, List.Forall₂ Says items labels ∧
      ∀ (inaccessible authenticated : Value) (ds : List Directive) (catalog : Option CatalogId),
        Options.ofValues tags inaccessible authenticated ds catalog =
          .ok ⟨items, inaccessible.isTrue, authenticated.isTrue, ds, catalog⟩ := by
  rcases h with ⟨hfalse, rfl⟩ | ⟨htrue, items, hitems, hsays⟩
  · refine ⟨[], .nil, fun _ _ _ _ => ?_⟩
    rw [Options.ofValues, if_neg (by simp [hfalse])]
  · refine ⟨items, hsays, fun _ _ _ _ => ?_⟩
    rw [Options.ofValues, if_pos htrue, hitems]

/-- A declared element without options is the last one of the workspace, with the catalog that was made
for it and nothing attached. -/
theorem element_bare {w w₁ : Workspace} {l : Location} {plan : Option CatalogPlan} {id : ElementId}
    {checks : Workspace → Except TypeGraph.Fault Unit}
    (h : Building.element l (some { catalog := plan }) checks w = .ok (some id, w₁)) :
    ∃ k w₀, Building.catalog? plan w = .ok (k, w₀) ∧ checks w₀ = .ok () ∧
      id = w₀.elements.size ∧ w₁ = w₀.withElement l (k.getD standardCatalog) {} := by
  rw [element_eq] at h
  obtain ⟨⟨o, w₀⟩, hoptions, h⟩ := bind_eq_ok.mp h
  obtain ⟨⟨⟩, hchecked, h⟩ := bind_eq_ok.mp h
  rw [options_eq] at hoptions
  obtain ⟨ds, hds, hoptions⟩ := bind_eq_ok.mp hoptions
  obtain ⟨⟨k, w₀'⟩, hcatalog, hoptions⟩ := bind_eq_ok.mp hoptions
  -- there is nothing to read, so that the options are empty
  injection hds with hds
  subst hds
  injection hoptions with hoptions
  injection hoptions with ho hw
  subst ho hw
  injection h with h
  injection h with hid hw₁
  injection hid with hid
  refine ⟨k, w₀', hcatalog, ?_, hid.symm, hw₁.symm⟩
  cases hchecks : checks w₀' with
  | error f => rw [hchecks] at hchecked; exact absurd hchecked (by simp [Except.mapError])
  | ok => rfl

/-- **Constructing with options is adding one by one.** Let the items of the tag option be texts or
records with a name. An element with these options, at any place and with any catalog, then is the element
without options after the attempts that the options stand for: a label for each tag, the two marks as far
as they are set, each left out where the catalog does not allow it, and the directives given as such,
none of which is left out. So one is there iff the other is, with the same directives. The same holds of
a declared element whose host makes its checks. Where attempts fail, they fail with the failure of the
first that does. -/
theorem construct_one_by_one {tags : Value} {labels : List Value} (htags : StatesLabels tags labels)
    (l : Location) (inaccessible authenticated : Value) (ds : List Directive) :
    (∀ (w : Workspace) (catalog : Option CatalogId), ∃ w₁,
      w.perform (.construct l .null .null .null [] catalog) = .ok w₁ ∧
        w₁.elements = w.elements.push ⟨l, catalog.getD standardCatalog, {}⟩ ∧
        w.perform (.construct l tags inaccessible authenticated ds catalog) =
          w₁.attemptAll w.elements.size
            (Options.attempts labels inaccessible.isTrue authenticated.isTrue ds)) ∧
    (∀ (w w₁ : Workspace) (id : ElementId) (checks : Workspace → Except TypeGraph.Fault Unit)
      (given : List LooseDirective) (plan : Option CatalogPlan),
      given.mapM LooseDirective.read = .ok ds →
      Building.element l (some { catalog := plan }) checks w = .ok (some id, w₁) →
        Building.element l (some ⟨tags, inaccessible, authenticated, given, plan⟩) checks w =
          (w₁.attemptAll id
            (Options.attempts labels inaccessible.isTrue authenticated.isTrue ds)).map (some id, ·)) ∧
    ∀ (w₁ : Workspace) (id : ElementId) (f : Failure),
      w₁.attemptAll id (Options.attempts labels inaccessible.isTrue authenticated.isTrue ds) =
          .error f ↔
        ∃ before a after w₂,
          Options.attempts labels inaccessible.isTrue authenticated.isTrue ds =
              before ++ a :: after ∧
            w₁.attemptAll id before = .ok w₂ ∧ w₂.attempt id a = .error f := by
  obtain ⟨items, hsays, hoptions⟩ := ofValues_of_statesLabels htags
  refine ⟨fun w catalog => ⟨w.withElement l (catalog.getD standardCatalog) {}, rfl, rfl, ?_⟩,
    fun w w₁ id checks given plan hgiven hbare => ?_, fun w₁ id f => foldlM_eq_error⟩
  · rw [perform, hoptions, ok_bind, addElement_eq hsays]
    cases attemptAll _ _ _ <;> rfl
  · obtain ⟨k, w₀, hcatalog, hchecks, rfl, rfl⟩ := element_bare hbare
    have hread : Building.options ⟨tags, inaccessible, authenticated, given, plan⟩ w =
        .ok (⟨items, inaccessible.isTrue, authenticated.isTrue, ds, k⟩, w₀) := by
      rw [options_eq, hgiven, ok_bind, hcatalog, ok_bind, hoptions]
      rfl
    rw [element_eq, hread, ok_bind, hchecks, addElement_eq hsays]
    dsimp only
    cases attemptAll _ _ _ <;> rfl

/-- Two tags, one of them a record. -/
def mixedTags : Value := .list [.text "a", .dict [(.text "name", .text "b")]]

/-- `construct_one_by_one` at an argument, where the mark `authenticated` may not stand and is left out:
first with one more label given as such, and then with a mark for the second time, which is refused before
the unknown directive behind it is looked up. -/
theorem construct_one_by_one_mixed :
    StatesLabels mixedTags [.text "a", .text "b"] ∧
      (∃ w₁, perform {} (.construct .argumentDefinition .null .null .null [] none) = .ok w₁ ∧
        perform {} (.construct .argumentDefinition mixedTags (.int 1) (.text "yes")
            [⟨"tag", [⟨"name", .text "c"⟩]⟩] none) =
          w₁.attemptAll 0 (Options.attempts [.text "a", .text "b"] true true
            [⟨"tag", [⟨"name", .text "c"⟩]⟩])) ∧
      (perform {} (.construct .argumentDefinition mixedTags (.int 1) (.text "yes")
          [⟨"tag", [⟨"name", .text "c"⟩]⟩] none)).map (fun w => (w.annotations 0).names) =
        .ok ["tag", "tag", "inaccessible", "tag"] ∧
      (∃ w₁, perform {} (.construct .argumentDefinition .null .null .null [] none) = .ok w₁ ∧
        ∃ before a after w₂,
          Options.attempts [.text "a", .text "b"] true true
              [⟨"inaccessible", []⟩, ⟨"unknown", []⟩] = before ++ a :: after ∧
            w₁.attemptAll 0 before = .ok w₂ ∧
            w₂.attempt 0 a = .error (.notRepeatable "inaccessible")) ∧
      Building.element .argumentDefinition (some {}) (fun _ => .ok ()) {} =
        .ok (some 0, withElement {} .argumentDefinition standardCatalog {}) ∧
      Building.element .argumentDefinition
          (some { tags := mixedTags, directives := [⟨.text "inaccessible", .null⟩] })
          (fun _ => .ok ()) {} =
        ((withElement {} .argumentDefinition standardCatalog {}).attemptAll 0
          (Options.attempts [.text "a", .text "b"] false false [⟨"inaccessible", []⟩])).map
            (some 0, ·) := by
  have htags : StatesLabels mixedTags [.text "a", .text "b"] :=
    Or.inr ⟨rfl, _, rfl, .cons (.text "a") (.cons (.record rfl) .nil)⟩
  have hbare : Building.element .argumentDefinition (some {}) (fun _ => .ok ()) {} =
      .ok (some 0, withElement {} .argumentDefinition standardCatalog {}) := by rfl
  obtain ⟨hadds, -, -⟩ := construct_one_by_one htags .argumentDefinition (.int 1) (.text "yes")
    [⟨"tag", [⟨"name", .text "c"⟩]⟩]
  obtain ⟨w₁, hw₁, -, hadded⟩ := hadds {} none
  obtain ⟨hfails, -, hfirst⟩ := construct_one_by_one htags .argumentDefinition (.int 1) (.text "yes")
    [⟨"inaccessible", []⟩, ⟨"unknown", []⟩]
  obtain ⟨w₂, hw₂, -, hfailed⟩ := hfails {} none
  have hrefused : perform {} (.construct .argumentDefinition mixedTags (.int 1) (.text "yes")
      [⟨"inaccessible", []⟩, ⟨"unknown", []⟩] none) = .error (.notRepeatable "inaccessible") := by rfl
  obtain ⟨-, hdeclared, -⟩ := construct_one_by_one htags .argumentDefinition .null .null
    [⟨"inaccessible", []⟩]
  exact ⟨htags, ⟨w₁, hw₁, hadded⟩, rfl, ⟨w₂, hw₂, (hfirst w₂ 0 _).mp (hfailed.symm.trans hrefused)⟩,
    hbare, hdeclared {} _ 0 _ [⟨.text "inaccessible", .null⟩] none rfl hbare⟩

end Workspace
end Subgraph
