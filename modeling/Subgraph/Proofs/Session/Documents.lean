import Subgraph.Proofs.Sdl.Outcome
import Subgraph.Proofs.Sdl.Stability
import Subgraph.Proofs.Session.Runs

/-!
# `Session.Documents` — the documents of a session and the annotations they show

A document is written from a schema, a catalog and the annotations of the elements of the schema, and
from nothing else. Three facts about the sessions that a program can reach follow from that and from the
invariant of a run:

* a federated schema is fixed once it has been built: its elements refuse every further directive, and
  its document is the same after any further calls (`built_schema_fixed`);
* a directive that is attached passed the catalog of its element, so printing with a catalog that
  knows as much never meets an unknown one (`unknown_directive_unreachable`);
* the elements of the types of a schema are frozen, checked and printed, each of them; no other
  element is, and that leaves out the arguments of the directives that a schema declares
  (`document_accounts_for_elements`).
-/

namespace Subgraph

namespace Session

open Sdl

variable {st : Session}

/-! ## A session

The session at which the facts below are shown: it has a schema of two types, one of them annotated,
with a directive of its own whose argument is annotated as well. -/

/-- An object type with a label. -/
def labelledType : TypeDef :=
  ⟨"Query", .object [] [⟨"a", .named BuiltIn.int, [], none, none, none⟩], none, some 0⟩

/-- An enumeration without annotations. -/
def colourType : TypeDef := ⟨"Colour", .enum [⟨"RED", .null, none, none, none⟩], none, none⟩

/-- A directive with an argument that has a label and is a colour. -/
def paintDirective : DirectiveDeclaration :=
  ⟨"paint", [.fieldDefinition], [⟨"in", .named 14, none, none, none, some 1⟩], false, none, none⟩

/-- What the schema is built from. -/
def labelledRoots : Roots where
  query := some 13
  declarations := DirectiveDeclaration.specified ++ [paintDirective]

/-- The calls before the schema is built. -/
def preparingCalls : List Call :=
  [.act (.construct .object (.list [.text "x"]) .null .null [] none),
    .act (.construct .argumentDefinition (.list [.text "y"]) .null .null [] none),
    .declare [labelledType, colourType]]

/-- An element with a label. -/
def labelledElement (l : Location) (label : String) (frozen : Bool) : Element :=
  ⟨l, Workspace.standardCatalog, ⟨[⟨"tag", [⟨"name", .text label⟩]⟩], frozen⟩⟩

/-- The workspace before the schema is built. -/
def preparedWorkspace : Workspace where
  elements :=
    #[labelledElement .object "x" false, labelledElement .argumentDefinition "y" false]
  graph := ⟨(BuiltIn.types ++ [labelledType, colourType]).toArray⟩

/-- The workspace after it: of the two labels, that of the type is frozen. -/
def labelledWorkspace : Workspace :=
  { preparedWorkspace with
    elements :=
      #[labelledElement .object "x" true, labelledElement .argumentDefinition "y" false] }

/-- The schema. -/
def labelledSchema : Schema where
  typeMap :=
    [("Query", 13), ("Int", 1), ("Boolean", 3), ("String", 0), ("Colour", 14), ("__Schema", 5),
      ("__Type", 8), ("__TypeKind", 12), ("__Field", 9), ("__InputValue", 10), ("__EnumValue", 11),
      ("__Directive", 6), ("__DirectiveLocation", 7)]
  query := some 13
  declarations := labelledRoots.declarations
  federation := some { target := ⟨some ⟨[2, 3], "2.3"⟩⟩ }

/-- The session after it. -/
def labelledSession : Session := ⟨labelledWorkspace, #[labelledSchema]⟩

theorem prepared_reachable : Reachable { workspace := preparedWorkspace } := ⟨preparingCalls, rfl⟩

/-- What the types of its workspace refer to, by their indices. -/
def preparedSteps : List (List TypeId) :=
  [[], [], [], [], [], [0, 8, 8, 8, 8, 6], [0, 0, 3, 7, 10, 3], [],
    [12, 0, 0, 0, 9, 3, 8, 8, 11, 3, 10, 3, 8, 3], [0, 0, 10, 3, 8, 3, 0], [0, 0, 8, 0, 3, 0],
    [0, 0, 3, 0], [], [1], []]

theorem prepared_steps : ∀ id ∈ List.range 15,
    preparedWorkspace.graph.steps id = (preparedSteps.getD id []).map .ok :=
  List.map_inj_left.mp (by rfl)

theorem prepared_types :
    preparedWorkspace.graph.typesFrom labelledRoots =
      .ok [13, 1, 3, 0, 14, 5, 8, 12, 9, 10, 11, 6, 7] := by
  have hstarts : labelledRoots.starts = [13, 3, 3, 0, 0, 14, 5] := by rfl
  have hextra : labelledRoots.extra = [] := by rfl
  have hunseen : ∀ seen, preparedWorkspace.graph.unseen seen =
      [0, 1, 2, 3, 4, 5, 6, 7, 8, 9, 10, 11, 12, 13, 14].filter fun id => !seen.contains id := by
    intro seen
    rfl
  simp [TypeGraph.typesFrom, TypeGraph.collectExtra, TypeGraph.collectAgain, TypeGraph.collectAll,
    TypeGraph.collect, TypeGraph.walk, hstarts, hextra, hunseen, prepared_steps, preparedSteps]

theorem prepared_built :
    preparedWorkspace.buildFederated labelledRoots none (.text "2.3") none =
      .ok (labelledWorkspace, labelledSchema) := by
  have htarget : Target.initial (.text "2.3") = .ok ⟨some ⟨[2, 3], "2.3"⟩⟩ := by rfl
  simp only [Workspace.buildFederated, Workspace.assemble, htarget, prepared_types]
  rfl

theorem labelled_reachable : labelledSession.Reachable := by
  refine ⟨preparingCalls ++ [.buildFederated labelledRoots none (.text "2.3") none], ?_⟩
  have hprepared : run {} preparingCalls = { workspace := preparedWorkspace } := by rfl
  have hsplit : run {} (preparingCalls ++ [.buildFederated labelledRoots none (.text "2.3") none]) =
      (run {} preparingCalls).after (.buildFederated labelledRoots none (.text "2.3") none) := rfl
  rw [hsplit, hprepared]
  simp only [after, perform, prepared_built]
  rfl

/-- Calls that try to change the schema. -/
def meddlingCalls : List Call :=
  [.act (.attach 0 ⟨.text "inaccessible", .null⟩), .act (.attach 1 ⟨.text "inaccessible", .null⟩),
    .choose 0 (.text "2.0")]

/-! ## Fixed schemas -/

/-- An attempt on a frozen element leaves a session as it is. -/
theorem after_attach_frozen {id : ElementId} (h : (st.workspace.annotations id).frozen = true)
    (d : LooseDirective) : st.after (.act (.attach id d)) = st := by
  obtain ⟨f, hf⟩ := Workspace.addDirective_frozen h d
  have hperform : st.perform (.act (.attach id d)) = .error f := by
    rw [perform, Workspace.perform, hf]
    rfl
  exact after_of_error hperform

/-- **A federated schema is fixed once it has been built.** Whatever calls follow, the schema is there
with the same elements, every element has kept its directives and refuses any other, and with a given
catalog at a given version the document is the same. -/
theorem built_schema_fixed (h : st.Reachable) {id : SchemaId} {s : Schema}
    (hs : st.schemas[id]? = some s) (hf : s.federation.isSome = true) (calls : List Call) :
    ∃ s', (st.run calls).schemas[id]? = some s' ∧
      s'.elements (st.run calls).workspace.graph = s.elements st.workspace.graph ∧
      (∀ e ∈ s.elements st.workspace.graph,
        (st.run calls).workspace.annotations e = st.workspace.annotations e ∧
        ∀ d : LooseDirective, (∃ f, (st.run calls).workspace.addDirective e d = .error f) ∧
          (st.run calls).after (.act (.attach e d)) = st.run calls) ∧
      ∀ (c : Catalog) (v : Version),
        federationDocument (st.run calls).workspace s' (some c) (some v) =
          federationDocument st.workspace s (some c) (some v) := by
  have hw : st.WellFormed := h.wellFormed
  have hlater : st.Later (st.run calls) := h.later calls
  have hwithin : s.Within st.workspace.graph := (hw.holds id s hs).within
  obtain ⟨s', hs', hsame⟩ := hlater.schemas id s hs
  have hfrozen : ∀ e ∈ s.elements st.workspace.graph, (st.workspace.annotations e).frozen = true :=
    (hw.holds id s hs).frozen hf
  have hkept : ∀ e ∈ s.elements st.workspace.graph,
      (st.run calls).workspace.annotations e = st.workspace.annotations e :=
    fun e he => hlater.workspace.frozen e (hfrozen e he)
  refine ⟨s', hs', ?_, fun e he => ?_, fun c v => ?_⟩
  · rw [Schema.elements_of_contents hsame, Schema.elements_eq hwithin hlater.workspace.types]
  · have hstill : ((st.run calls).workspace.annotations e).frozen = true := by
      rw [hkept e he]
      exact hfrozen e he
    exact ⟨hkept e he, fun d =>
      ⟨Workspace.addDirective_frozen hstill d, after_attach_frozen hstill d⟩⟩
  · -- another version may have been chosen for the schema, which is not the one that is asked for
    have hcontents : documentAt (st.run calls).workspace s' c v =
        documentAt (st.run calls).workspace s c v := documentAt_of_contents hsame _ c v
    have hdocument : documentAt (st.run calls).workspace s c v = documentAt st.workspace s c v :=
      documentAt_eq_of_annotations hlater.workspace.types hw.closed.graph hwithin hkept
    exact hcontents.trans hdocument

/-- `built_schema_fixed` at the labelled schema, after calls that try to change it. -/
theorem built_schema_fixed_labelled :
    labelledSession.Reachable ∧ labelledSession.schemas[0]? = some labelledSchema ∧
      labelledSchema.federation.isSome = true ∧
      (0 : ElementId) ∈ labelledSchema.elements labelledWorkspace.graph ∧
      (labelledSession.run meddlingCalls).workspace.annotations 0 =
        ⟨[⟨"tag", [⟨"name", .text "x"⟩]⟩], true⟩ ∧
      ∃ s', (labelledSession.run meddlingCalls).schemas[0]? = some s' ∧
        federationDocument (labelledSession.run meddlingCalls).workspace s' (some .standard)
            (some ⟨[2, 3], "2.3"⟩) =
          federationDocument labelledWorkspace labelledSchema (some .standard)
            (some ⟨[2, 3], "2.3"⟩) := by
  have hs : labelledSession.schemas[0]? = some labelledSchema := by rfl
  have hf : labelledSchema.federation.isSome = true := by rfl
  have hmem : (0 : ElementId) ∈ labelledSchema.elements labelledWorkspace.graph := by decide
  obtain ⟨s', hs', -, helements, hdocument⟩ :=
    built_schema_fixed labelled_reachable hs hf meddlingCalls
  obtain ⟨hkept, -⟩ := helements 0 hmem
  exact ⟨labelled_reachable, hs, hf, hmem, hkept, s', hs', hdocument .standard ⟨[2, 3], "2.3"⟩⟩

end Session

/-! ## Known directives -/

namespace Workspace

variable {w : Workspace} {s : Schema} {c : Catalog}

/-- `c` knows every name that a catalog of an element of the schema knows. -/
def CoveredBy (w : Workspace) (s : Schema) (c : Catalog) : Prop :=
  ∀ id ∈ s.elements w.graph, ∀ e, w.elements[id]? = some e →
    ∀ n, (w.catalog e.catalog).contains n = true → c.contains n = true

/-- What the catalogs of the elements admitted, a catalog knows that covers them. -/
theorem Sound.known (hw : w.Sound) (hc : w.CoveredBy s c) : w.Known s c := by
  intro d hd
  obtain ⟨part, hpart, hd⟩ := List.mem_flatMap.mp hd
  cases hid : part.element with
  | none => rw [hid] at hd; exact absurd hd (by simp [directivesOf])
  | some id =>
    rw [hid, directivesOf, annotations] at hd
    cases he : w.elements[id]? with
    | none => rw [he] at hd; exact absurd hd (by simp)
    | some e =>
      rw [he] at hd
      obtain ⟨-, hadmitted⟩ := hw.elements_admitted id e he
      obtain ⟨definition, hfound, -⟩ := hadmitted d hd
      have hmem : id ∈ s.elements w.graph := Schema.mem_elements.mpr ⟨part, hpart, hid⟩
      exact hc id hmem e he d.name (Catalog.contains_of_find? hfound)

/-- A catalog that keeps the one catalog of all elements covers them. -/
theorem coveredBy_of_keeps {k : CatalogId}
    (hk : ∀ id ∈ s.elements w.graph, ∀ e, w.elements[id]? = some e → e.catalog = k)
    (hc : (w.catalog k).Keeps c) : w.CoveredBy s c := by
  intro id hid e he n hn
  rw [hk id hid e he] at hn
  exact hc.contains hn

end Workspace

namespace Session

open Sdl

variable {st : Session}

/-- **Behind the gate of attachment no unknown directive is met.** In every session that a program can
reach, printing any schema at any version with a catalog that knows what the catalogs of its elements
know does not fail on an unknown directive. If all elements use one catalog, that is so of every
catalog that it becomes by registrations or that is made of it by an extension. -/
theorem unknown_directive_unreachable (h : st.Reachable) (s : Schema) (version : Option Version) :
    (∀ catalog : Option Catalog,
      st.workspace.CoveredBy s (catalog.getD (ownCatalog st.workspace s)) →
      ∀ n, federationDocument st.workspace s catalog version ≠ .error (.unknownDirective n)) ∧
    ∀ k : CatalogId,
      (∀ id ∈ s.elements st.workspace.graph, ∀ e, st.workspace.elements[id]? = some e →
        e.catalog = k) →
      ∀ (ds : List Definition) (c : Catalog),
        (st.workspace.catalog k).registerAll ds = .ok c ∨
          (st.workspace.catalog k).extended ds = .ok c →
        ∀ n, federationDocument st.workspace s (some c) version ≠ .error (.unknownDirective n) := by
  have hsound : st.workspace.Sound := h.wellFormed.sound
  have hcovered : ∀ catalog : Option Catalog,
      st.workspace.CoveredBy s (catalog.getD (ownCatalog st.workspace s)) →
      ∀ n, federationDocument st.workspace s catalog version ≠ .error (.unknownDirective n) :=
    fun catalog hc n => documentAt_ne_unknown (hsound.known hc) n
  refine ⟨hcovered, fun k hk ds c hgrown => hcovered (some c) ?_⟩
  have hdefinitions : c.definitions = (st.workspace.catalog k).definitions ++ ds :=
    hgrown.elim Catalog.registerAll_definitions Catalog.extended_definitions
  have hkeeps : (st.workspace.catalog k).Keeps c := by
    apply Catalog.keeps_of_subset
    rw [hdefinitions]
    exact List.subset_append_left _ _
  exact Workspace.coveredBy_of_keeps hk hkeeps

/-- `unknown_directive_unreachable` at the labelled schema, with a catalog that has one definition
more. -/
theorem unknown_directive_unreachable_labelled :
    labelledSession.Reachable ∧
      (∀ id ∈ labelledSchema.elements labelledWorkspace.graph, ∀ e,
        labelledWorkspace.elements[id]? = some e → e.catalog = Workspace.standardCatalog) ∧
      ∃ c, Catalog.standard.extended [⟨"key", ⟨[2], "2.0"⟩, [.object], true⟩] = .ok c ∧
        ∀ n, federationDocument labelledWorkspace labelledSchema (some c) none ≠
          .error (.unknownDirective n) := by
  have hstandard : ∀ id ∈ labelledSchema.elements labelledWorkspace.graph, ∀ e,
      labelledWorkspace.elements[id]? = some e → e.catalog = Workspace.standardCatalog := by
    intro id hid e he
    have helements : labelledSchema.elements labelledWorkspace.graph = [0] := by decide
    rw [helements, List.mem_singleton] at hid
    subst hid
    injection he with he
    rw [← he]
    rfl
  have hextended : ∃ c, Catalog.standard.extended [⟨"key", ⟨[2], "2.0"⟩, [.object], true⟩] = .ok c :=
    ⟨_, rfl⟩
  obtain ⟨c, hc⟩ := hextended
  obtain ⟨-, hgrown⟩ := unknown_directive_unreachable labelled_reachable labelledSchema none
  exact ⟨labelled_reachable, hstandard, c, hc, hgrown _ hstandard _ c (Or.inr hc)⟩

/-! ## Elements that are reached -/

/-- The document of a schema does not depend on annotations of other elements. -/
theorem documentAt_setAnnotations (hw : st.WellFormed) {s : Schema} (hs : st.workspace.Holds s)
    {e : ElementId} (he : e ∉ s.elements st.workspace.graph) (a : Annotations) (c : Catalog)
    (v : Version) :
    documentAt (st.workspace.setAnnotations e a) s c v = documentAt st.workspace s c v := by
  refine documentAt_eq_of_annotations (.refl _) hw.closed.graph hs.within fun id hid => ?_
  have hne : id ≠ e := by
    rintro rfl
    exact he hid
  rw [Workspace.annotations_setAnnotations, if_neg fun h => hne h.1]

/-- **Which elements a schema accounts for.** Building a federated schema freezes the elements of its
types and leaves all others as they are. Whatever calls follow, the elements of its types stay frozen;
printing fails on an unknown directive, references being resolved, iff one of them carries one; and from
version `2.0` on the active directives of each of them stand in its place. All other elements are left
out, among them those of the arguments of declared directives: whatever they carry, the document is the
same. -/
theorem document_accounts_for_elements (h : st.Reachable) {roots : Roots}
    {description : Option String} {version : Value} {catalog : Option CatalogId} {w : Workspace}
    {s : Schema}
    (hn : st.canName (.buildFederated roots description version catalog) = true)
    (hb : st.workspace.buildFederated roots description version catalog = .ok (w, s)) :
    (∀ e, w.annotations e =
      if e ∈ s.elements w.graph then (st.workspace.annotations e).freeze
      else st.workspace.annotations e) ∧
    ∀ (calls : List Call) (w' : Workspace),
      (run ⟨w, st.schemas.push s⟩ calls).workspace = w' →
      (∀ e ∈ s.elements w.graph, (w'.annotations e).frozen = true) ∧
      ∀ (c : Catalog) (v : Version),
        (s.Resolved w'.graph →
          ((∃ n, documentAt w' s c v = .error (.unknownDirective n)) ↔
            ∃ part ∈ s.parts w.graph, ∃ d ∈ w'.directivesOf part.element,
              c.contains d.name = false)) ∧
        (∀ text, v.isFederation2 = true → documentAt w' s c v = .ok text →
          ∃ behind : Part → String,
            text = joinHeader (linkHeader c v) ((bodyLayout w' s c v).fill behind) ∧
            (bodyLayout w' s c v).parts.Perm (s.parts w.graph) ∧
            ∀ part ∈ s.parts w.graph,
              directiveTexts ((w'.directivesOf part.element).filter (c.isActive v)) =
                .ok (behind part)) ∧
        ∀ e ∉ s.elements w.graph, ∀ a : Annotations,
          documentAt (w'.setAnnotations e a) s c v = documentAt w' s c v := by
  have hperform : st.perform (.buildFederated roots description version catalog) =
      .ok ⟨w, st.schemas.push s⟩ := by rw [perform, hb]; rfl
  obtain ⟨hw, -⟩ := perform_step h.wellFormed hn hperform
  have hs : (st.schemas.push s)[st.schemas.size]? = some s := by simp
  have hf : s.federation.isSome = true := by
    obtain ⟨⟨federation, -, hfederation⟩, -⟩ := Workspace.buildFederated_eq_ok hb
    rw [hfederation]
    rfl
  refine ⟨Workspace.buildFederated_annotations h.wellFormed.closed hb, ?_⟩
  rintro calls w' rfl
  -- the schema is seen from the end of the run, where its parts are those that it was built with
  obtain ⟨hw', hlater⟩ := run_step hw calls
  have hholds : w.Holds s := hw.holds _ s hs
  have hwithin : s.Within w.graph := hholds.within
  have hparts := Schema.parts_eq hwithin hlater.workspace.types
  have helements := Schema.elements_eq hwithin hlater.workspace.types
  have hholds' := hholds.later hlater.workspace
  refine ⟨fun e he => ?_, fun c v => ⟨fun hr => ?_, fun text hv htext => ?_, fun e he a => ?_⟩⟩
  · exact hholds'.frozen hf e (by rw [helements]; exact he)
  · rw [exists_documentAt_unknown_iff hr, hparts]
  · obtain ⟨behind, hfill, hplaces, hbehind⟩ := exists_behind_of_documentAt hv htext
    rw [hparts] at hplaces hbehind
    exact ⟨behind, hfill, hplaces, hbehind⟩
  · exact documentAt_setAnnotations hw' hholds' (by rw [helements]; exact he) a c v

/-- The document of the labelled schema: the label of the argument is not shown. -/
def labelledText : String :=
  joinHeader (linkHeader .standard ⟨[2, 3], "2.3"⟩)
    "directive @paint(in: Colour) on FIELD_DEFINITION\n
type Query @tag(name: \"x\") \x7b\n  a: Int\n\x7d\n\nenum Colour \x7b\n  RED\n\x7d"

/-- `document_accounts_for_elements` at the labelled schema: its declared directive has an argument with a
label, which is neither frozen nor checked nor shown. -/
theorem document_accounts_for_elements_labelled :
    Reachable { workspace := preparedWorkspace } ∧
      canName { workspace := preparedWorkspace }
        (.buildFederated labelledRoots none (.text "2.3") none) = true ∧
      preparedWorkspace.buildFederated labelledRoots none (.text "2.3") none =
        .ok (labelledWorkspace, labelledSchema) ∧
      paintDirective ∈ labelledSchema.declarations ∧
      (∃ a ∈ paintDirective.arguments, a.element = some 1) ∧
      labelledWorkspace.annotations 1 = ⟨[⟨"tag", [⟨"name", .text "y"⟩]⟩], false⟩ ∧
      documentAt labelledWorkspace labelledSchema .standard ⟨[2, 3], "2.3"⟩ = .ok labelledText ∧
      documentAt (labelledWorkspace.setAnnotations 1 ⟨[⟨"unknown", []⟩], false⟩) labelledSchema
        .standard ⟨[2, 3], "2.3"⟩ = .ok labelledText := by
  have hn : canName { workspace := preparedWorkspace }
      (.buildFederated labelledRoots none (.text "2.3") none) = true := by decide
  have hprint : documentAt labelledWorkspace labelledSchema .standard ⟨[2, 3], "2.3"⟩ =
      .ok labelledText := by rfl
  have hother : (1 : ElementId) ∉ labelledSchema.elements labelledWorkspace.graph := by decide
  obtain ⟨hbuilt, hlater⟩ := document_accounts_for_elements prepared_reachable hn prepared_built
  have hkept := hbuilt 1
  rw [if_neg hother] at hkept
  obtain ⟨-, hdocument⟩ := hlater [] labelledWorkspace rfl
  obtain ⟨-, -, hsame⟩ := hdocument .standard ⟨[2, 3], "2.3"⟩
  have hargument : ∃ a ∈ paintDirective.arguments, a.element = some 1 := ⟨_, List.mem_cons_self, rfl⟩
  exact ⟨prepared_reachable, hn, prepared_built, List.mem_append_right _ (List.mem_singleton.mpr rfl),
    hargument, hkept, hprint, (hsame 1 hother _).trans hprint⟩

end Session
end Subgraph
