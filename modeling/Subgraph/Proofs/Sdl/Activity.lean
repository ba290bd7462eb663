import Mathlib.Data.List.Permutation
import Subgraph.Proofs.Catalog.Eligible
import Subgraph.Proofs.Sdl.Imports
import Subgraph.Proofs.Sdl.Outcome
import Subgraph.Proofs.Sdl.Stability

/-!
# `Sdl.Activity` — the body depends on the active directives alone

A catalog and a version reach the body of a document by one question, asked of every directive that is
attached within the schema: is it active? Places, repeatability, first versions and the way in which a
version is written have no other part in it. So two catalogs at two versions that give the same answers
(`SameActive`) give the same body, or fail in the same way (`documentAt_of_sameActive`). They do so in
particular if their headers import the same names (`document_depends_on_imports`).
-/

namespace Subgraph
namespace Sdl

/-- Two catalogs, each at a version, know every directive that is attached within a schema, and the
same of them are active. -/
structure SameActive (w : Workspace) (s : Schema) (c : Catalog) (v : Version) (c' : Catalog)
    (v' : Version) : Prop where
  known : w.Known s c
  known' : w.Known s c'
  active : ∀ d ∈ w.attached s, c.isActive v d = c'.isActive v' d

variable {w : Workspace} {s : Schema} {c c' : Catalog} {v v' : Version}

/-- Catalogs whose headers import the same names have the same directives active. -/
theorem sameActive_of_imports (hk : w.Known s c) (hk' : w.Known s c')
    (h : ∀ n, n ∈ linkImports c v ↔ n ∈ linkImports c' v') : SameActive w s c v c' v' where
  known := hk
  known' := hk'
  active := by
    intro d _
    rw [Bool.eq_iff_iff, isActive_iff_mem_linkImports, isActive_iff_mem_linkImports]
    exact h _

namespace SameActive

/-- Behind a part of the schema stands the same. -/
theorem decoration_eq (h : SameActive w s c v c' v') {part : Part}
    (hpart : part ∈ s.parts w.graph) :
    decoration w c v part.element = decoration w c' v' part.element := by
  have hfilter : (w.directivesOf part.element).filter (c.isActive v) =
      (w.directivesOf part.element).filter (c'.isActive v') := by
    refine List.filter_congr fun d hd => ?_
    exact h.active d (List.mem_flatMap.mpr ⟨part, hpart, hd⟩)
  rw [Sdl.decoration_eq (h.known.of_part hpart), Sdl.decoration_eq (h.known'.of_part hpart), hfilter]

/-- The same types have an active directive. -/
theorem hasActive_eq (h : SameActive w s c v c' v') {t : TypeDef} (ht : t ∈ s.definedTypes w.graph) :
    hasActive w c v t = hasActive w c' v' t := by
  unfold hasActive
  rw [Bool.eq_iff_iff, List.any_eq_true, List.any_eq_true]
  refine exists_congr fun part => and_congr_right fun hpart => ?_
  have hmem : part ∈ s.parts w.graph := List.mem_flatMap.mpr ⟨t, ht, hpart⟩
  rw [List.any_eq_true, List.any_eq_true]
  refine exists_congr fun d => and_congr_right fun hd => ?_
  rw [h.active d (List.mem_flatMap.mpr ⟨part, hmem, hd⟩)]

/-- A type of the schema is written the same, whichever printer it is sent through. -/
theorem typeText_eq (h : SameActive w s c v c' v') {t : TypeDef} (ht : t ∈ s.definedTypes w.graph) :
    federationTypeText w c v t = federationTypeText w c' v' t := by
  have hof : ∀ part ∈ t.parts,
      decoration w c v part.element = decoration w c' v' part.element := by
    intro part hpart
    exact h.decoration_eq (List.mem_flatMap.mpr ⟨t, ht, hpart⟩)
  rw [federationTypeText, federationTypeText, h.hasActive_eq ht,
    decoratedType_congr (.refl w.graph t) hof]

/-- **The body is the same, be it a text or a failure.** -/
theorem body_eq (h : SameActive w s c v c' v') :
    federationBody w s c v = federationBody w s c' v' := by
  rw [federationBody_eq, federationBody_eq]
  exact document_congr w.graph fun t ht => h.typeText_eq ht

end SameActive

/-- From version `2.0` on, documents with the same directives active are one body behind two headers, or
they are one failure. -/
theorem documentAt_of_sameActive (h : SameActive w s c v c' v') (hv : v.isFederation2 = true)
    (hv' : v'.isFederation2 = true) :
    ∃ body : Except Failure String,
      documentAt w s c v = body.map (joinHeader (linkHeader c v)) ∧
      documentAt w s c' v' = body.map (joinHeader (linkHeader c' v')) := by
  cases hcheck : s.checkReferences w.graph with
  | error f =>
    -- the first check asks for neither a catalog nor a version
    exact ⟨.error f, documentAt_of_unresolved hcheck, documentAt_of_unresolved hcheck⟩
  | ok =>
    have hr : s.Resolved w.graph := Schema.checkReferences_eq_ok.mp hcheck
    refine ⟨federationBody w s c v, ?_, ?_⟩
    · rw [documentAt_of_known hr h.known, if_pos hv]
    · rw [documentAt_of_known hr h.known', if_pos hv', h.body_eq]

/-! ## Spellings of a version -/

/-- The header behind the address of the specification: the names that are imported. -/
def importList (c : Catalog) (v : Version) : String :=
  "\", import: [" ++ ", ".intercalate ((linkImports c v).map fun name => "\"" ++ name ++ "\"") ++ "])"

/-- The beginning of a header, up to the address of the specification and with it. -/
def linkStart (v : Version) : String := "extend schema\n  @link(url: \"" ++ specificationUrl v

theorem linkHeader_eq (c : Catalog) (v : Version) :
    linkHeader c v = linkStart v ++ importList c v := by
  unfold linkHeader linkStart importList
  rw [String.append_assoc, String.append_assoc, String.append_assoc, String.append_assoc,
    String.append_assoc]

/-- A longer header is a header before what follows it. -/
theorem joinHeader_append (start header body : String) :
    joinHeader (start ++ header) body = start ++ joinHeader header body := by
  unfold joinHeader
  split
  · rfl
  · simp only [String.append_assoc]

/-- Versions that compare as equal import the same names, in the same order. -/
theorem linkImports_congr (h : v.order v' = .eq) (c : Catalog) :
    linkImports c v = linkImports c v' := by
  have heligible : c.eligible v = c.eligible v' := by
    unfold Catalog.eligible
    simp only [Version.le_congr_right h]
  rw [linkImports, linkImports, heligible]

/-- Versions that compare as equal have the same directives active. -/
theorem isActive_congr (h : v.order v' = .eq) (c : Catalog) (d : Directive) :
    c.isActive v d = c.isActive v' d := by
  unfold Catalog.isActive
  simp only [Version.le_congr_right h]

/-- A document depends on the spelling of its version in the address of the specification only. -/
theorem exists_rest_of_documentAt (w : Workspace) (s : Schema) (c : Catalog)
    (hv : v.isFederation2 = true) :
    ∃ rest : Except Failure String, ∀ v' : Version, v'.order v = .eq →
      documentAt w s c v' = rest.map (linkStart v' ++ ·) := by
  cases hcheck : s.checkReferences w.graph with
  | error f => exact ⟨.error f, fun v' _ => documentAt_of_unresolved hcheck⟩
  | ok =>
    have hr : s.Resolved w.graph := Schema.checkReferences_eq_ok.mp hcheck
    cases hknown : w.checkDirectives s c with
    | error f => exact ⟨.error f, fun v' _ => documentAt_of_unknown hr hknown⟩
    | ok =>
      have hk : w.Known s c := Workspace.checkDirectives_eq_ok.mp hknown
      refine ⟨(federationBody w s c v).map (joinHeader (importList c v)), fun v' h => ?_⟩
      have hv' : v'.isFederation2 = true := by
        rw [Version.isFederation2, Version.le_congr_right h]
        exact hv
      have hsame : SameActive w s c v' c v := ⟨hk, hk, fun d _ => isActive_congr h c d⟩
      have hlist : importList c v' = importList c v := by
        rw [importList, importList, linkImports_congr h c]
      rw [documentAt_of_known hr hk, if_pos hv', hsame.body_eq, linkHeader_eq, hlist]
      cases federationBody w s c v with
      | error f => rfl
      | ok body => exact congrArg Except.ok (joinHeader_append (linkStart v') _ body)

/-! ## The statement -/

/-- **The body depends on version and catalog through the imported names alone.** From version `2.0` on,
take two catalogs that know every directive attached within the schema, each at a version. If their
headers import the same names, in whatever order, then both documents are there and have one body, or
they fail in one way. Versions that compare as equal give documents that differ in the address of the
specification and nowhere else, or one failure. -/
theorem document_depends_on_imports (w : Workspace) (s : Schema) :
    (∀ (c c' : Catalog) (v v' : Version),
      v.isFederation2 = true → v'.isFederation2 = true → w.Known s c → w.Known s c' →
      (∀ n, n ∈ linkImports c v ↔ n ∈ linkImports c' v') →
      ∃ body : Except Failure String,
        documentAt w s c v = body.map (joinHeader (linkHeader c v)) ∧
        documentAt w s c' v' = body.map (joinHeader (linkHeader c' v'))) ∧
    ∀ (c : Catalog) (v : Version), v.isFederation2 = true →
      ∃ rest : Except Failure String, ∀ v' : Version, v'.order v = .eq →
        documentAt w s c v' =
          rest.map fun r => "extend schema\n  @link(url: \"" ++ specificationUrl v' ++ r := by
  refine ⟨fun c c' v v' hv hv' hk hk' himports => ?_, fun c v hv => ?_⟩
  · exact documentAt_of_sameActive (sameActive_of_imports hk hk' himports) hv hv'
  · exact exists_rest_of_documentAt w s c hv

/-- A catalog that defines the names of the standard one at other versions, in another order, at other
places and for other repetitions. -/
def shiftedCatalog : Catalog where
  definitions :=
    [⟨"tag", ⟨[2], "2"⟩, [.scalar], false⟩, ⟨"inaccessible", ⟨[2, 1], "2.1.0"⟩, [], true⟩,
      ⟨"authenticated", ⟨[3], "3"⟩, [], true⟩]
  distinct := by decide

/-- `document_depends_on_imports` at a schema with three directives, of which either catalog has two
active; and for `2.0` and `2.0.0`. -/
theorem document_depends_on_imports_shifted :
    Version.isFederation2 ⟨[2, 3], "2.3"⟩ = true ∧ Version.isFederation2 ⟨[2, 4], "2.4"⟩ = true ∧
      mixedWorkspace.Known mixedSchema .standard ∧ mixedWorkspace.Known mixedSchema shiftedCatalog ∧
      linkImports .standard ⟨[2, 3], "2.3"⟩ = ["@inaccessible", "@tag"] ∧
      linkImports shiftedCatalog ⟨[2, 4], "2.4"⟩ = ["@tag", "@inaccessible"] ∧
      documentAt mixedWorkspace mixedSchema .standard ⟨[2, 3], "2.3"⟩ = .ok mixedText ∧
      (∃ body : Except Failure String,
        documentAt mixedWorkspace mixedSchema .standard ⟨[2, 3], "2.3"⟩ =
          body.map (joinHeader (linkHeader .standard ⟨[2, 3], "2.3"⟩)) ∧
        documentAt mixedWorkspace mixedSchema shiftedCatalog ⟨[2, 4], "2.4"⟩ =
          body.map (joinHeader (linkHeader shiftedCatalog ⟨[2, 4], "2.4"⟩))) ∧
      Version.parse (.text "2.0.0") = .ok ⟨[2], "2.0.0"⟩ ∧
      ∃ rest : Except Failure String,
        documentAt mixedWorkspace mixedSchema .standard ⟨[2], "2.0"⟩ =
          rest.map (fun r => "extend schema\n  @link(url: \"" ++ specificationUrl ⟨[2], "2.0"⟩ ++ r) ∧
        documentAt mixedWorkspace mixedSchema .standard ⟨[2], "2.0.0"⟩ =
          rest.map (fun r =>
            "extend schema\n  @link(url: \"" ++ specificationUrl ⟨[2], "2.0.0"⟩ ++ r) := by
  have hv : Version.isFederation2 ⟨[2, 3], "2.3"⟩ = true := by decide
  have hv' : Version.isFederation2 ⟨[2, 4], "2.4"⟩ = true := by decide
  have hk : mixedWorkspace.Known mixedSchema .standard := by decide
  have hk' : mixedWorkspace.Known mixedSchema shiftedCatalog := by decide
  have hnames : linkImports .standard ⟨[2, 3], "2.3"⟩ = ["@inaccessible", "@tag"] := by cbv
  have hnames' : linkImports shiftedCatalog ⟨[2, 4], "2.4"⟩ = ["@tag", "@inaccessible"] := by cbv
  have himports : ∀ n, n ∈ linkImports .standard ⟨[2, 3], "2.3"⟩ ↔
      n ∈ linkImports shiftedCatalog ⟨[2, 4], "2.4"⟩ := by
    intro n
    rw [hnames, hnames', List.mem_pair, List.mem_pair, or_comm]
  obtain ⟨hbodies, hspellings⟩ := document_depends_on_imports mixedWorkspace mixedSchema
  obtain ⟨rest, hrest⟩ := hspellings .standard ⟨[2], "2.0"⟩ (by decide)
  exact ⟨hv, hv', hk, hk', hnames, hnames', by rfl, hbodies _ _ _ _ hv hv' hk hk' himports, by rfl, rest,
    hrest ⟨[2], "2.0"⟩ (by decide), hrest ⟨[2], "2.0.0"⟩ (by decide)⟩

end Sdl
end Subgraph
