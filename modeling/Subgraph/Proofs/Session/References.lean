import Subgraph.Proofs.Schema.Contents
import Subgraph.Proofs.Sdl.Mentions
import Subgraph.Proofs.Session.Documents

/-!
# `Session.References` — which references of a document are settled

Types can be removed from a schema by their names after it has been built, and then other types may
still refer to them. Printing checks the references of the types that the schema states. So in a
document that is printed whatever these types refer to is registered, and hence built in or stated in
the document itself. Two more places of a document name types, and they are not checked: the arguments
of declared directives, and the definition of the schema. `printed_references` says that these are the
only gaps.
-/

namespace Subgraph
namespace Session

open Sdl

variable {st : Session}

/-- **Which references of a document are settled.** A schema has been built, and types of it may have
been removed. Printing fails on a type that is not registered iff a type that the schema states refers
to one. Otherwise the document mentions what its pieces name; of that, whatever is registered is
built in or stated by the document, and what is not registered is the type of an argument of a declared
directive, or a root type that the definition of the schema names. -/
theorem printed_references (h : st.Reachable) {id : SchemaId} {built s : Schema}
    {names : List String} (hbuilt : st.schemas[id]? = some built)
    (hs : built.removeTypes names = .ok s) (c : Catalog) (v : Version) :
    ((∃ n, documentAt st.workspace s c v = .error (.unresolvedType n)) ↔
      ∃ t ∈ s.definedTypes st.workspace.graph, ∃ k, t.Refers k ∧
        s.find? (st.workspace.graph.nameOf k) = none) ∧
    ∀ text, documentAt st.workspace s c v = .ok text →
      (v.isFederation2 = false →
        text = spelled st.workspace.graph (piecesAt st.workspace s c v)) ∧
      (v.isFederation2 = true → ∃ behind : Part → String,
        text = joinHeader (linkHeader c v) ((bodyLayout st.workspace s c v).fill behind) ∧
        (bodyLayout st.workspace s c v).bare =
          spelled st.workspace.graph (piecesAt st.workspace s c v)) ∧
      (∀ k, k ∈ named (piecesAt st.workspace s c v) ↔ Mentions st.workspace.graph s k) ∧
      ∀ k ∈ named (piecesAt st.workspace s c v),
        (s.find? (st.workspace.graph.nameOf k) ≠ none ∧
          (st.workspace.graph.nameOf k ∈ BuiltIn.names ∨
            ∃ t ∈ s.definedTypes st.workspace.graph, t.name = st.workspace.graph.nameOf k)) ∨
        (s.find? (st.workspace.graph.nameOf k) = none ∧
          ((∃ d ∈ statedDirectives s, ∃ a ∈ d.arguments, a.type.base = k) ∨
            (schemaDefinition st.workspace.graph s).isSome = true ∧
              ∃ r ∈ rootTypes s, r.2 = k)) := by
  refine ⟨exists_documentAt_unresolved_iff, fun text htext => ?_⟩
  obtain ⟨hbelow, hfrom⟩ := documentAt_spelled htext
  refine ⟨hbelow, hfrom, fun k => mem_named_piecesAt, fun k hk => ?_⟩
  have hwithin : s.Within st.workspace.graph := (h.wellFormed.holds id built hbuilt).within.removeTypes hs
  by_cases hregistered : s.find? (st.workspace.graph.nameOf k) = none
  · right
    refine ⟨hregistered, ?_⟩
    cases mem_named_piecesAt.mp hk with
    | type ht hrefers =>
      -- a document is printed only if the references of its types are registered
      have hfails : ∃ n, documentAt st.workspace s c v = .error (.unresolvedType n) :=
        exists_documentAt_unresolved_iff.mpr ⟨_, ht, k, hrefers, hregistered⟩
      obtain ⟨n, hn⟩ := hfails
      rw [htext] at hn
      exact absurd hn (by simp)
    | argument hd ha => exact Or.inl ⟨_, hd, _, ha, rfl⟩
    | root hdefined hr => exact Or.inr ⟨hdefined, _, hr, rfl⟩
  · left
    exact ⟨hregistered, hwithin.stated hregistered⟩

/-- The labelled schema without its enumeration. -/
def colourlessSchema : Schema :=
  { labelledSchema with typeMap := labelledSchema.typeMap.filter fun p => p.1 != "Colour" }

/-- Its document, in which the declared directive goes on naming the enumeration. -/
def colourlessText : String :=
  joinHeader (linkHeader .standard ⟨[2, 3], "2.3"⟩)
    "directive @paint(in: Colour) on FIELD_DEFINITION\n
type Query @tag(name: \"x\") \x7b\n  a: Int\n\x7d"

/-- `printed_references` at the labelled schema without its enumeration, which is printed although it
mentions a type that is not registered. -/
theorem printed_references_colourless :
    labelledSession.Reachable ∧ labelledSession.schemas[0]? = some labelledSchema ∧
      labelledSchema.removeTypes ["Colour"] = .ok colourlessSchema ∧
      documentAt labelledWorkspace colourlessSchema .standard ⟨[2, 3], "2.3"⟩ = .ok colourlessText ∧
      (14 : TypeId) ∈ named (piecesAt labelledWorkspace colourlessSchema .standard ⟨[2, 3], "2.3"⟩) ∧
      labelledWorkspace.graph.nameOf 14 = "Colour" ∧ colourlessSchema.find? "Colour" = none ∧
      ¬ ∃ n, documentAt labelledWorkspace colourlessSchema .standard ⟨[2, 3], "2.3"⟩ =
        .error (.unresolvedType n) := by
  have hs : labelledSession.schemas[0]? = some labelledSchema := by rfl
  have hremoved : labelledSchema.removeTypes ["Colour"] = .ok colourlessSchema := by rfl
  have hprint : documentAt labelledWorkspace colourlessSchema .standard ⟨[2, 3], "2.3"⟩ =
      .ok colourlessText := by rfl
  obtain ⟨-, hdocument⟩ :=
    printed_references labelled_reachable hs hremoved .standard ⟨[2, 3], "2.3"⟩
  obtain ⟨-, -, hnamed, -⟩ := hdocument colourlessText hprint
  have hstated : paintDirective ∈ statedDirectives colourlessSchema := by
    exact List.mem_filter.mpr ⟨List.mem_append_right _ (List.mem_singleton.mpr rfl), by rfl⟩
  have hmentioned := (hnamed 14).mpr (.argument hstated List.mem_cons_self)
  have hno : ¬ ∃ n, documentAt labelledWorkspace colourlessSchema .standard ⟨[2, 3], "2.3"⟩ =
      .error (.unresolvedType n) := by
    rintro ⟨n, hn⟩
    rw [hprint] at hn
    exact absurd hn (by simp)
  exact ⟨labelled_reachable, hs, hremoved, hprint, hmentioned, by rfl, by decide, hno⟩

end Session
end Subgraph
