import Subgraph.Proofs.Schema.Checks
import Subgraph.Proofs.Sdl.Applied
import Subgraph.Proofs.Sdl.Decoration

/-!
# `Sdl.Body` — what follows the header is one layout, filled

A body is printed in one of three ways: as the plain document if no directive is active, and else type
by type, each with directives or without. This module shows that the choice does not matter for the
directives: the body always is `bodyLayout`, with the text of the active directives in the place of
every part (`body_laid`, and `exists_behind_of_documentAt` for documents). What the choice does matter
for is the mark `@oneOf`, which the printer with directives forgets; `printedForm` is the type as it is
printed in the end.
-/

namespace Subgraph

namespace Sdl

open Layout

variable {w : Workspace} {s : Schema} {c : Catalog} {v : Version}

/-- From version `2.0` on, a document that is printed has passed the check of its directives, and is a
header and a body. -/
theorem exists_body_of_documentAt {text : String} (hv : v.isFederation2 = true)
    (h : documentAt w s c v = .ok text) :
    w.Known s c ∧ ∃ body, federationBody w s c v = .ok body ∧
      text = joinHeader (linkHeader c v) body := by
  unfold documentAt at h
  obtain ⟨⟨⟩, -, h⟩ := bind_eq_ok.mp h
  obtain ⟨⟨⟩, hk, h⟩ := bind_eq_ok.mp h
  rw [if_pos hv] at h
  obtain ⟨body, hbody, h⟩ := bind_eq_ok.mp h
  injection h with h
  exact ⟨Workspace.checkDirectives_eq_ok.mp hk, body, hbody, h.symm⟩

/-- Below version `2.0` a document is the plain one. -/
theorem plainDocument_of_documentAt {text : String} (hv : v.isFederation2 = false)
    (h : documentAt w s c v = .ok text) : plainDocument w.graph s = .ok text := by
  unfold documentAt at h
  obtain ⟨⟨⟩, -, h⟩ := bind_eq_ok.mp h
  obtain ⟨⟨⟩, -, h⟩ := bind_eq_ok.mp h
  rwa [if_neg (by simp [hv])] at h

/-! ## Types in a body -/

variable (w s c v)

/-- A type as it is printed: with directives on it or its parts, an input object loses its mark. -/
def printedForm (t : TypeDef) : TypeDef := if hasActive w c v t then t.withoutOneOf else t

/-- The layout of a body. -/
def bodyLayout : Layout :=
  documentLayout w.graph s fun t => typeLayout w.graph (printedForm w c v t)

variable {w s c v}

/-- Printing a type takes its mark or leaves it as it is. -/
theorem printedForm_eq_or (t : TypeDef) :
    printedForm w c v t = t.withoutOneOf ∨ printedForm w c v t = t := by
  unfold printedForm
  split
  · exact Or.inl rfl
  · exact Or.inr rfl

theorem printedForm_parts (t : TypeDef) : (printedForm w c v t).parts = t.parts := by
  rcases printedForm_eq_or (w := w) (c := c) (v := v) t with h | h
  · rw [h, t.withoutOneOf_parts]
  · rw [h]

/-- **Every part of a schema has exactly one place in its body.** -/
theorem bodyLayout_parts : (bodyLayout w s c v).parts.Perm (s.parts w.graph) := by
  refine documentLayout_parts w.graph s fun t => ?_
  rw [← printedForm_parts t]
  exact typeLayout_parts w.graph _

/-- What stands behind a part whose directives are known: the texts of the active ones. -/
theorem decoration_eq {part : Part}
    (h : ∀ d ∈ w.directivesOf part.element, c.contains d.name = true) :
    decoration w c v part.element =
      directiveTexts ((w.directivesOf part.element).filter (c.isActive v)) :=
  appliedText_eq h

/-- Nothing stands behind the parts of a type on which no directive is active. -/
theorem decoration_eq_blank {t : TypeDef} {part : Part} (ht : hasActive w c v t = false)
    (hp : part ∈ t.parts) (h : ∀ d ∈ w.directivesOf part.element, c.contains d.name = true) :
    decoration w c v part.element = .ok "" := by
  have hnone : (w.directivesOf part.element).filter (c.isActive v) = [] := by
    rw [List.filter_eq_nil_iff]
    unfold hasActive at ht
    rw [List.any_eq_false] at ht
    simpa using ht part hp
  rw [decoration_eq h, hnone]
  rfl

/-- A type in a body fills its layout, whichever printer it is sent through. -/
theorem federationType_laid {t : TypeDef}
    (h : ∀ p ∈ t.parts, ∀ d ∈ w.directivesOf p.element, c.contains d.name = true) :
    Laid (decoration w c v) (typeText w.graph (printedForm w c v t))
      (typeLayout w.graph (printedForm w c v t)) (federationTypeText w c v t) := by
  unfold federationTypeText printedForm
  by_cases ht : hasActive w c v t = true
  · rw [if_pos ht, if_pos ht, decoratedType_eq]
    exact type_laid w.graph _ _
  · -- the printer without directives leaves places empty that have nothing to show
    rw [if_neg ht, if_neg ht]
    refine typeText_laid w.graph _ fun p hp => ?_
    have hpt : p ∈ t.parts := (typeLayout_parts w.graph t).mem_iff.mp hp
    exact decoration_eq_blank (by simpa using ht) hpt (h p hpt)

/-! ## Bodies -/

/-- Printing type by type gives the plain document where no directive is active. -/
theorem federationBody_eq :
    federationBody w s c v = document w.graph s (federationTypeText w c v) := by
  unfold federationBody plainDocument
  split
  · rfl
  · next h =>
    have hplain : ∀ t ∈ s.definedTypes w.graph, typeText w.graph t = federationTypeText w c v t := by
      intro t ht
      have hoff : hasActive w c v t = false := by
        simp only [List.any_eq_true, not_exists, not_and] at h
        simpa using h t ht
      rw [federationTypeText, hoff]
      rfl
    exact document_congr w.graph hplain

/-- **A body is its layout, with the active directives of every part in its place.** -/
theorem body_laid (hk : w.Known s c) :
    Laid (decoration w c v) (document w.graph s fun t => typeText w.graph (printedForm w c v t))
      (bodyLayout w s c v) (federationBody w s c v) := by
  rw [federationBody_eq]
  refine document_laid w.graph _ fun t ht => federationType_laid fun p hp => ?_
  exact hk.of_part (List.mem_flatMap.mpr ⟨t, ht, hp⟩)

/-- From version `2.0` on, a document that is printed has the active directives of every part in the place
of the part. -/
theorem exists_behind_of_documentAt {text : String} (hv : v.isFederation2 = true)
    (h : documentAt w s c v = .ok text) :
    ∃ behind : Part → String,
      text = joinHeader (linkHeader c v) ((bodyLayout w s c v).fill behind) ∧
      (bodyLayout w s c v).parts.Perm (s.parts w.graph) ∧
      ∀ part ∈ s.parts w.graph,
        directiveTexts ((w.directivesOf part.element).filter (c.isActive v)) = .ok (behind part) := by
  obtain ⟨hk, body, hbody, rfl⟩ := exists_body_of_documentAt hv h
  obtain ⟨hplaces, -, rfl⟩ := (body_laid hk).ok hbody
  refine ⟨textBehind (decoration w c v), rfl, bodyLayout_parts, fun part hpart => ?_⟩
  have hplace : part ∈ (bodyLayout w s c v).parts := bodyLayout_parts.mem_iff.mpr hpart
  rw [← decoration_eq (hk.of_part hpart)]
  exact hplaces part hplace

end Sdl
end Subgraph
