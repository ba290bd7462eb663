import Subgraph.Proofs.Sdl.Body

/-!
# `Sdl.Imports` — the body uses what the header imports

The header of a document names the directives that the catalog has at the version; the body shows
directives behind the parts of types. This module shows that the two agree: behind every part stand
those of its directives whose names the header imports, all of them, in the order of their attachment
and with all their arguments (`document_prints_imported`). What stands between the places is the text
that the types have without directives, so no other directive of the catalog is shown anywhere.
-/

namespace Subgraph
namespace Sdl

open Layout

variable {w : Workspace} {s : Schema} {c : Catalog} {v : Version}

/-- The directives whose names are imported at a version, in the given order. -/
def imported (c : Catalog) (v : Version) (ds : List Directive) : List Directive :=
  ds.filter fun d => decide ("@" ++ d.name ∈ linkImports c v)

/-- The imported directives are the active ones. -/
theorem imported_eq_active (ds : List Directive) : imported c v ds = ds.filter (c.isActive v) := by
  refine List.filter_congr fun d _ => ?_
  rw [Bool.eq_iff_iff, decide_eq_true_iff]
  exact isActive_iff_mem_linkImports.symm

/-- What stands behind a part whose directives are known: the texts of the imported ones. -/
theorem decoration_eq_imported {part : Part} {text : String}
    (hk : ∀ d ∈ w.directivesOf part.element, c.contains d.name = true)
    (h : decoration w c v part.element = .ok text) :
    ∃ texts, (imported c v (w.directivesOf part.element)).mapM Directive.text? = .ok texts ∧
      text = String.join (texts.map (" " ++ ·)) := by
  rw [decoration_eq hk, ← imported_eq_active, directiveTexts_eq] at h
  obtain ⟨texts, htexts, htext⟩ := map_eq_ok.mp h
  exact ⟨texts, htexts, htext.symm⟩

/-- **A document shows the directives that it imports.** A document from version `2.0` on is a header and
a layout with one place for every part. Without what is in the places it is the plain text of the
types; in the place of a part are the imported ones of its directives, in order. -/
theorem document_prints_imported {text : String} (hv : v.isFederation2 = true)
    (h : documentAt w s c v = .ok text) :
    ∃ behind : Part → String,
      text = joinHeader (linkHeader c v) ((bodyLayout w s c v).fill behind) ∧
      document w.graph s (fun t => typeText w.graph (printedForm w c v t)) =
        .ok (bodyLayout w s c v).bare ∧
      (bodyLayout w s c v).parts.Perm (s.parts w.graph) ∧
      ∀ part ∈ s.parts w.graph, ∃ texts,
        (imported c v (w.directivesOf part.element)).mapM Directive.text? = .ok texts ∧
          behind part = String.join (texts.map (" " ++ ·)) := by
  obtain ⟨hk, body, hbody, rfl⟩ := exists_body_of_documentAt hv h
  obtain ⟨hplaces, hplain, rfl⟩ := (body_laid hk).ok hbody
  refine ⟨textBehind (decoration w c v), rfl, hplain, bodyLayout_parts, fun part hpart => ?_⟩
  have hplace : part ∈ (bodyLayout w s c v).parts := bodyLayout_parts.mem_iff.mpr hpart
  exact decoration_eq_imported (hk.of_part hpart) (hplaces part hplace)

/-- A type with a directive that the standard catalog does not have at version `2.3`, behind one that it
has, and with directives on a field and its argument. -/
def mixedType : TypeDef :=
  ⟨"Query",
    .object []
      [⟨"a", .named BuiltIn.int, [⟨"i", .named BuiltIn.int, some (.int 3), none, none, some 2⟩], none,
        none, some 1⟩],
    none, some 0⟩

/-- The workspace of that type. -/
def mixedWorkspace : Workspace where
  elements :=
    #[⟨.object, Workspace.standardCatalog,
        ⟨[⟨"tag", [⟨"name", .text "x"⟩]⟩, ⟨"authenticated", []⟩, ⟨"tag", [⟨"name", .text "y"⟩]⟩],
          true⟩⟩,
      ⟨.fieldDefinition, Workspace.standardCatalog, ⟨[⟨"inaccessible", []⟩], true⟩⟩,
      ⟨.argumentDefinition, Workspace.standardCatalog,
        ⟨[⟨"tag", [⟨"name", .text "z"⟩]⟩], true⟩⟩]
  graph := ⟨(BuiltIn.types ++ [mixedType]).toArray⟩

/-- The schema of that type. -/
def mixedSchema : Schema where
  typeMap := [("Query", 13), ("Int", BuiltIn.int)]
  query := some 13

/-- Its document at version `2.3`: the second directive of the type is left out. -/
def mixedText : String :=
  joinHeader (linkHeader .standard ⟨[2, 3], "2.3"⟩)
    "type Query @tag(name: \"x\") @tag(name: \"y\") \x7b
  a(i: Int = 3 @tag(name: \"z\")): Int @inaccessible\n\x7d"

/-- `document_prints_imported` at that schema, for the part that is the type itself. -/
theorem document_prints_imported_mixed :
    Version.isFederation2 ⟨[2, 3], "2.3"⟩ = true ∧
      documentAt mixedWorkspace mixedSchema .standard ⟨[2, 3], "2.3"⟩ = .ok mixedText ∧
      ∃ behind : Part → String,
        mixedText = joinHeader (linkHeader .standard ⟨[2, 3], "2.3"⟩)
          ((bodyLayout mixedWorkspace mixedSchema .standard ⟨[2, 3], "2.3"⟩).fill behind) ∧
        ∃ texts,
          (imported .standard ⟨[2, 3], "2.3"⟩
            [⟨"tag", [⟨"name", .text "x"⟩]⟩, ⟨"authenticated", []⟩,
              ⟨"tag", [⟨"name", .text "y"⟩]⟩]).mapM Directive.text? = .ok texts ∧
          behind ⟨.object, some 0⟩ = String.join (texts.map (" " ++ ·)) := by
  have hv : Version.isFederation2 ⟨[2, 3], "2.3"⟩ = true := by decide
  have hprint : documentAt mixedWorkspace mixedSchema .standard ⟨[2, 3], "2.3"⟩ =
      .ok mixedText := by rfl
  have hpart : (⟨.object, some 0⟩ : Part) ∈ mixedSchema.parts mixedWorkspace.graph := by decide
  obtain ⟨behind, htext, -, -, hbehind⟩ := document_prints_imported hv hprint
  exact ⟨hv, hprint, behind, htext, hbehind _ hpart⟩

end Sdl
end Subgraph
