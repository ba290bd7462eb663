import Subgraph.Proofs.Sdl.Mark
import Subgraph.Proofs.Sdl.Refusal

/-!
# `Sdl.Outcome` — when and how printing fails

Printing a schema runs two checks, then writes. This module says exactly what comes out
(`document_outcome`): the first name that is not registered; else the first attached directive that the
catalog lacks, at every version; else, below version `2.0`, the plain document; and from there on a
failure iff an argument of an active directive has no literal or the plain document fails, which it does
on default values that their types cannot represent (`unprintable_default`). Whatever writing touches
the checks have gone through before, so writing never fails in their way.
-/

namespace Subgraph
namespace Sdl

variable {w : Workspace} {s : Schema} {c : Catalog} {v : Version}

/-! ## Behind the checks -/

/-- The first check decides. -/
theorem documentAt_of_unresolved {f : Failure} (h : s.checkReferences w.graph = .error f) :
    documentAt w s c v = .error f := by
  rw [documentAt, h]
  rfl

/-- Behind the first check the second decides. -/
theorem documentAt_of_unknown {f : Failure} (hr : s.Resolved w.graph)
    (h : w.checkDirectives s c = .error f) : documentAt w s c v = .error f := by
  rw [documentAt, Schema.checkReferences_eq_ok.mpr hr, h]
  rfl

/-- Behind both checks the version decides what is written. -/
theorem documentAt_of_known (hr : s.Resolved w.graph) (hk : w.Known s c) :
    documentAt w s c v =
      if v.isFederation2 = true then (federationBody w s c v).map (joinHeader (linkHeader c v))
      else plainDocument w.graph s := by
  rw [documentAt, Schema.checkReferences_eq_ok.mpr hr, Workspace.checkDirectives_eq_ok.mpr hk,
    ok_bind, ok_bind]
  split
  · cases federationBody w s c v <;> rfl
  · rfl

/-! ## Failures of a body -/

/-- `f` is how making a literal fails for an argument of a directive that is attached within the schema
and active at the version. -/
def Rejected (w : Workspace) (s : Schema) (c : Catalog) (v : Version) (f : Failure) : Prop :=
  ∃ d ∈ w.attached s, c.isActive v d = true ∧ ∃ a ∈ d.arguments, literalText a.value = .error f

/-- A schema is refused type by type as printed iff its plain document is, in the same way. -/
theorem printed_sameFailure :
    SameFailure (document w.graph s fun t => typeText w.graph (printedForm w c v t))
      (plainDocument w.graph s) :=
  document_sameFailure fun t _ => printedForm_sameFailure t

/-- A body fails on an argument of an active directive or as the plain document does. -/
theorem federationBody_eq_error (hk : w.Known s c) {f : Failure}
    (h : federationBody w s c v = .error f) :
    Rejected w s c v f ∨ plainDocument w.graph s = .error f := by
  rcases (body_laid hk).error h with hplain | ⟨part, hpart, hf⟩
  · exact Or.inr ((printed_sameFailure f).mp hplain)
  · have hmem : part ∈ s.parts w.graph := bodyLayout_parts.mem_iff.mp hpart
    rw [decoration_eq (hk.of_part hmem)] at hf
    obtain ⟨d, hd, hargument⟩ := directiveTexts_eq_error hf
    obtain ⟨hd, hactive⟩ := List.mem_filter.mp hd
    exact Or.inl ⟨d, List.mem_flatMap.mpr ⟨part, hmem, hd⟩, hactive, hargument⟩

/-- A body that is there shows every argument of its active directives. -/
theorem not_rejected_of_body (hk : w.Known s c) {body : String}
    (h : federationBody w s c v = .ok body) (f : Failure) : ¬ Rejected w s c v f := by
  rintro ⟨d, hd, hactive, a, ha, hf⟩
  obtain ⟨part, hpart, hd⟩ := List.mem_flatMap.mp hd
  obtain ⟨hplaces, -, -⟩ := (body_laid hk).ok h
  have hplace := hplaces part (bodyLayout_parts.mem_iff.mpr hpart)
  rw [decoration_eq (hk.of_part hpart)] at hplace
  obtain ⟨l, hl⟩ := exists_literal_of_directiveTexts hplace (List.mem_filter.mpr ⟨hd, hactive⟩) ha
  exact absurd hf (by simp [hl])

/-- A body is there only if the plain document is. -/
theorem exists_plain_of_body (hk : w.Known s c) {body : String}
    (h : federationBody w s c v = .ok body) : ∃ text, plainDocument w.graph s = .ok text := by
  obtain ⟨-, hplain, -⟩ := (body_laid hk).ok h
  exact printed_sameFailure.exists_ok hplain

/-- A body fails iff an argument of an active directive has no literal or the plain document fails. -/
theorem federationBody_fails_iff (hk : w.Known s c) :
    (∃ f, federationBody w s c v = .error f) ↔
      (∃ f, Rejected w s c v f) ∨ ∃ f, plainDocument w.graph s = .error f := by
  constructor
  · rintro ⟨f, hf⟩
    exact (federationBody_eq_error hk hf).imp (fun h => ⟨f, h⟩) fun h => ⟨f, h⟩
  · intro h
    cases hbody : federationBody w s c v with
    | error f => exact ⟨f, rfl⟩
    | ok body =>
      rcases h with ⟨f, hf⟩ | ⟨f, hf⟩
      · exact absurd hf (not_rejected_of_body hk hbody f)
      · obtain ⟨text, htext⟩ := exists_plain_of_body hk hbody
        exact absurd hf (by simp [htext])

/-- Behind the checks a document fails on a value. -/
theorem documentAt_failsOnly (hr : s.Resolved w.graph) (hk : w.Known s c) :
    FailsOnly Failure.OfValue (documentAt w s c v) := by
  have hplain := plainDocument_failsOnly w.graph s
  rw [documentAt_of_known hr hk]
  split
  · refine FailsOnly.map (fun f hf => ?_) _
    rcases federationBody_eq_error hk hf with ⟨d, -, -, a, -, ha⟩ | hf
    · exact literalText_failsOnly a.value f ha
    · exact hplain f hf
  · exact hplain

/-! ## The failures of the checks -/

/-- Behind the first check, a document that fails in the way of a check fails in that of the second. -/
theorem checkDirectives_of_documentAt (hr : s.Resolved w.graph) {n : String} {f : Failure}
    (hf : f = .unresolvedType n ∨ f = .unknownDirective n) (h : documentAt w s c v = .error f) :
    w.checkDirectives s c = .error f := by
  cases hcheck : w.checkDirectives s c with
  | error f' =>
    rw [documentAt_of_unknown hr hcheck] at h
    injection h with h
    rw [h]
  | ok =>
    -- behind both checks only a value can be the cause
    have hk := Workspace.checkDirectives_eq_ok.mp hcheck
    have hne := (documentAt_failsOnly hr hk f h).ne_check n
    rcases hf with hf | hf
    · exact absurd hf hne.1
    · exact absurd hf hne.2

/-- A type that is not registered is the outcome iff it is the first. -/
theorem documentAt_eq_unresolved {n : String} :
    documentAt w s c v = .error (.unresolvedType n) ↔
      IsFirst (fun n => s.find? n = none) (s.referencedNames w.graph) n := by
  constructor
  · intro h
    cases hcheck : s.checkReferences w.graph with
    | error f =>
      rw [documentAt_of_unresolved hcheck] at h
      injection h with h
      obtain ⟨m, hm, hfirst⟩ := Schema.checkReferences_eq_error.mp hcheck
      injection h.symm.trans hm with hm
      exact hm ▸ hfirst
    | ok =>
      have hr := Schema.checkReferences_eq_ok.mp hcheck
      have hunknown := checkDirectives_of_documentAt hr (Or.inl rfl) h
      obtain ⟨d, hd, -⟩ := Workspace.checkDirectives_eq_error.mp hunknown
      exact absurd hd (by simp)
  · intro h
    exact documentAt_of_unresolved (Schema.checkReferences_eq_error.mpr ⟨n, rfl, h⟩)

/-- An unknown directive is the outcome, behind the first check, iff it is the first. -/
theorem documentAt_eq_unknown {n : String} (hr : s.Resolved w.graph) :
    documentAt w s c v = .error (.unknownDirective n) ↔
      ∃ d, d.name = n ∧
        IsFirst (fun d : Directive => c.contains d.name = false) (w.attached s) d := by
  constructor
  · intro h
    have hunknown := checkDirectives_of_documentAt hr (Or.inr rfl) h
    obtain ⟨d, hd, hfirst⟩ := Workspace.checkDirectives_eq_error.mp hunknown
    injection hd with hd
    exact ⟨d, hd.symm, hfirst⟩
  · rintro ⟨d, rfl, hfirst⟩
    exact documentAt_of_unknown hr (Workspace.checkDirectives_eq_error.mpr ⟨d, rfl, hfirst⟩)

/-- Some type that is not registered is the outcome iff a type of the schema refers to one. -/
theorem exists_documentAt_unresolved_iff :
    (∃ n, documentAt w s c v = .error (.unresolvedType n)) ↔
      ∃ t ∈ s.definedTypes w.graph, ∃ id, t.Refers id ∧ s.find? (w.graph.nameOf id) = none := by
  simp only [documentAt_eq_unresolved]
  rw [exists_isFirst_iff]
  constructor
  · rintro ⟨n, hn, habsent⟩
    obtain ⟨t, ht, id, hrefers, rfl⟩ := Schema.mem_referencedNames.mp hn
    exact ⟨t, ht, id, hrefers, habsent⟩
  · rintro ⟨t, ht, id, hrefers, habsent⟩
    exact ⟨_, Schema.mem_referencedNames.mpr ⟨t, ht, id, hrefers, rfl⟩, habsent⟩

/-- Some unknown directive is the outcome, behind the first check, iff a part has one. -/
theorem exists_documentAt_unknown_iff (hr : s.Resolved w.graph) :
    (∃ n, documentAt w s c v = .error (.unknownDirective n)) ↔
      ∃ part ∈ s.parts w.graph, ∃ d ∈ w.directivesOf part.element, c.contains d.name = false := by
  have hfirst : (∃ d, IsFirst (fun d : Directive => c.contains d.name = false) (w.attached s) d) ↔
      ∃ d ∈ w.attached s, c.contains d.name = false := exists_isFirst_iff
  simp only [documentAt_eq_unknown hr]
  constructor
  · rintro ⟨n, d, -, hd⟩
    obtain ⟨d', hd', hunknown⟩ := hfirst.mp ⟨d, hd⟩
    obtain ⟨part, hpart, hd'⟩ := List.mem_flatMap.mp hd'
    exact ⟨part, hpart, d', hd', hunknown⟩
  · rintro ⟨part, hpart, d, hd, hunknown⟩
    obtain ⟨e, he⟩ := hfirst.mpr ⟨d, List.mem_flatMap.mpr ⟨part, hpart, hd⟩, hunknown⟩
    exact ⟨e.name, e, rfl, he⟩

/-- A document with a catalog that knows every directive does not fail on an unknown one. -/
theorem documentAt_ne_unknown (hk : w.Known s c) (n : String) :
    documentAt w s c v ≠ .error (.unknownDirective n) := by
  intro h
  cases hcheck : s.checkReferences w.graph with
  | error f =>
    rw [documentAt_of_unresolved hcheck] at h
    obtain ⟨m, rfl, -⟩ := Schema.checkReferences_eq_error.mp hcheck
    exact absurd h (by simp)
  | ok =>
    have hr : s.Resolved w.graph := Schema.checkReferences_eq_ok.mp hcheck
    obtain ⟨part, hpart, d, hd, hunknown⟩ := (exists_documentAt_unknown_iff hr).mp ⟨n, h⟩
    rw [hk.of_part hpart d hd] at hunknown
    exact absurd hunknown (by simp)

/-- Behind the checks a document from version `2.0` on fails iff its body does, and as it does. -/
theorem documentAt_eq_error_iff (hr : s.Resolved w.graph) (hk : w.Known s c)
    (hv : v.isFederation2 = true) {f : Failure} :
    documentAt w s c v = .error f ↔ federationBody w s c v = .error f := by
  rw [documentAt_of_known hr hk, if_pos hv]
  exact map_eq_error

/-! ## The outcome -/

/-- **The exact outcome of printing.**

A type that is not registered is the outcome iff it is the first that is referred to, and some is iff a
type of the schema refers to one. Otherwise an unknown directive is the outcome, at every version, iff
it is the first that is attached, and some is iff a part has one. Otherwise the outcome below version
`2.0` is the plain document; from there on it is a failure iff an argument of an active directive has no
literal or the plain document fails, and then it is one of these failures and none of a check. -/
theorem document_outcome (w : Workspace) (s : Schema) (c : Catalog) (v : Version) :
    (∀ n, documentAt w s c v = .error (.unresolvedType n) ↔
      IsFirst (fun n => s.find? n = none) (s.referencedNames w.graph) n) ∧
    ((∃ n, documentAt w s c v = .error (.unresolvedType n)) ↔
      ∃ t ∈ s.definedTypes w.graph, ∃ id, t.Refers id ∧ s.find? (w.graph.nameOf id) = none) ∧
    (s.Resolved w.graph →
      (∀ n, documentAt w s c v = .error (.unknownDirective n) ↔
        ∃ d, d.name = n ∧
          IsFirst (fun d : Directive => c.contains d.name = false) (w.attached s) d) ∧
      ((∃ n, documentAt w s c v = .error (.unknownDirective n)) ↔
        ∃ part ∈ s.parts w.graph, ∃ d ∈ w.directivesOf part.element, c.contains d.name = false) ∧
      (w.Known s c →
        (v.isFederation2 = false → documentAt w s c v = plainDocument w.graph s) ∧
        (v.isFederation2 = true →
          ((∃ f, documentAt w s c v = .error f) ↔
            (∃ f, Rejected w s c v f) ∨ ∃ f, plainDocument w.graph s = .error f) ∧
          ∀ f, documentAt w s c v = .error f →
            (Rejected w s c v f ∨ plainDocument w.graph s = .error f) ∧
              ∀ n, f ≠ .unresolvedType n ∧ f ≠ .unknownDirective n))) := by
  refine ⟨fun n => documentAt_eq_unresolved, exists_documentAt_unresolved_iff, fun hr =>
    ⟨fun n => documentAt_eq_unknown hr, exists_documentAt_unknown_iff hr, fun hk => ⟨?_, ?_⟩⟩⟩
  · intro hv
    rw [documentAt_of_known hr hk, if_neg (by simp [hv])]
  · intro hv
    have herror := fun f => documentAt_eq_error_iff hr hk hv (f := f)
    refine ⟨?_, fun f hf => ⟨?_, (documentAt_failsOnly hr hk f hf).ne_check⟩⟩
    · simp only [herror]
      exact federationBody_fails_iff hk
    · exact federationBody_eq_error hk ((herror f).mp hf)

/-- A type with a field that takes an integer, which is a text by default. -/
def wordyType : TypeDef :=
  ⟨"Query",
    .object []
      [⟨"a", .named BuiltIn.int, [⟨"i", .named BuiltIn.int, some (.text "abc"), none, none, none⟩],
        none, none, none⟩],
    none, none⟩

/-- The workspace of that type; no directive is attached in it. -/
def wordyWorkspace : Workspace where
  graph := ⟨(BuiltIn.types ++ [wordyType]).toArray⟩

/-- The schema of that type. -/
def wordySchema : Schema where
  typeMap := [("Query", 13), ("Int", BuiltIn.int)]
  query := some 13

/-- Behind the checks arguments of directives are not the only cause of a failure: that schema has no
directive, and a default value that its type cannot represent. -/
theorem unprintable_default :
    wordySchema.Resolved wordyWorkspace.graph ∧ wordyWorkspace.Known wordySchema .standard ∧
      Version.isFederation2 ⟨[2, 3], "2.3"⟩ = true ∧
      ¬ ((∃ f, documentAt wordyWorkspace wordySchema .standard ⟨[2, 3], "2.3"⟩ = .error f) ↔
        ∃ f, Rejected wordyWorkspace wordySchema .standard ⟨[2, 3], "2.3"⟩ f) := by
  have hnone : wordyWorkspace.attached wordySchema = [] := by rfl
  refine ⟨by decide, by decide, by decide, fun h => ?_⟩
  obtain ⟨f, d, hd, -⟩ := h.mp ⟨.typeGraph (.unrepresentable .wholeNumber (.text "abc")), by rfl⟩
  rw [hnone] at hd
  exact absurd hd (by simp)

/-- A type with a directive whose argument has no literal. -/
def rawType : TypeDef :=
  ⟨"Query", .object [] [⟨"a", .named BuiltIn.int, [], none, none, none⟩], none, some 0⟩

/-- The workspace of that type. -/
def rawWorkspace : Workspace where
  elements :=
    #[⟨.object, Workspace.standardCatalog, ⟨[⟨"tag", [⟨"name", .bytes [1]⟩]⟩], true⟩⟩]
  graph := ⟨(BuiltIn.types ++ [rawType]).toArray⟩

/-- The schema of that type. -/
def rawSchema : Schema where
  typeMap := [("Query", 13), ("Int", BuiltIn.int)]
  query := some 13

/-- `document_outcome` at that schema, behind both checks. -/
theorem document_outcome_raw :
    rawSchema.Resolved rawWorkspace.graph ∧ rawWorkspace.Known rawSchema .standard ∧
      Version.isFederation2 ⟨[2, 3], "2.3"⟩ = true ∧
      ∃ f, documentAt rawWorkspace rawSchema .standard ⟨[2, 3], "2.3"⟩ = .error f ∧
        ∀ n, f ≠ .unresolvedType n ∧ f ≠ .unknownDirective n := by
  have hr : rawSchema.Resolved rawWorkspace.graph := by decide
  have hattached : rawWorkspace.attached rawSchema = [⟨"tag", [⟨"name", .bytes [1]⟩]⟩] := by
    rfl
  have hk : rawWorkspace.Known rawSchema .standard := by decide
  have hv : Version.isFederation2 ⟨[2, 3], "2.3"⟩ = true := by decide
  have hrejected : Rejected rawWorkspace rawSchema .standard ⟨[2, 3], "2.3"⟩
      (.notLiteral (.bytes [1])) := by
    refine ⟨⟨"tag", [⟨"name", .bytes [1]⟩]⟩, ?_, by decide, ⟨"name", .bytes [1]⟩, by simp, by rfl⟩
    rw [hattached]
    exact List.mem_singleton.mpr rfl
  obtain ⟨hfails, hfailure⟩ := ((document_outcome _ _ _ _).2.2 hr).2.2 hk |>.2 hv
  obtain ⟨f, hf⟩ := hfails.mpr (Or.inl ⟨_, hrejected⟩)
  exact ⟨hr, hk, hv, f, hf, (hfailure f hf).2⟩

end Sdl
end Subgraph
