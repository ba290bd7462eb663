import Subgraph.Proofs.Sdl.Activity

/-!
# `Sdl.Additions` — what a larger catalog and a later version add to a document

Neither takes anything away. An extended catalog knows every directive that the old one knew, with the
same first version, so the body stays as it is and the header imports the new names among the old ones
(`document_of_extended`). A later version has every directive active that was active before: its header
imports further names behind the old ones, and behind every part further directives stand among the old
ones (`later_version_adds`). A document that is there at the later version is there at the earlier one,
since all that is asked at the earlier version is asked at the later one too
(`exists_documentAt_iff`).
-/

namespace Subgraph
namespace Sdl

variable {w : Workspace} {s : Schema} {c c' : Catalog} {v v' : Version} {ds : List Definition}

/-! ## When a document is there -/

/-- A document is there iff both checks pass, the plain document is there and, from version `2.0` on,
every argument of an active directive has a literal. -/
theorem exists_documentAt_iff :
    (∃ text, documentAt w s c v = .ok text) ↔
      s.Resolved w.graph ∧ w.Known s c ∧ (∃ text, plainDocument w.graph s = .ok text) ∧
        (v.isFederation2 = true → ∀ f, ¬ Rejected w s c v f) := by
  constructor
  · rintro ⟨text, htext⟩
    have hr : s.Resolved w.graph := by
      rw [← Schema.checkReferences_eq_ok]
      cases hcheck : s.checkReferences w.graph with
      | error f => exact absurd htext (by simp [documentAt_of_unresolved hcheck])
      | ok => rfl
    have hk : w.Known s c := by
      rw [← Workspace.checkDirectives_eq_ok]
      cases hcheck : w.checkDirectives s c with
      | error f => exact absurd htext (by simp [documentAt_of_unknown hr hcheck])
      | ok => rfl
    rw [documentAt_of_known hr hk] at htext
    by_cases hv : v.isFederation2 = true
    · rw [if_pos hv] at htext
      obtain ⟨body, hbody, -⟩ := map_eq_ok.mp htext
      exact ⟨hr, hk, exists_plain_of_body hk hbody, fun _ => not_rejected_of_body hk hbody⟩
    · rw [if_neg hv] at htext
      exact ⟨hr, hk, ⟨text, htext⟩, fun h => absurd h hv⟩
  · rintro ⟨hr, hk, ⟨plain, hplain⟩, hshown⟩
    rw [documentAt_of_known hr hk]
    by_cases hv : v.isFederation2 = true
    · rw [if_pos hv]
      cases hbody : federationBody w s c v with
      | ok body => exact ⟨_, rfl⟩
      | error f =>
        -- a body fails on an argument or as the plain document does, and neither fails here
        rcases federationBody_eq_error hk hbody with hf | hf
        · exact absurd hf (hshown hv f)
        · exact absurd hf (by simp [hplain])
    · rw [if_neg hv]
      exact ⟨plain, hplain⟩

/-! ## A larger catalog -/

/-- A directive that the old catalog knows is active in the extended one iff it is active in the old. -/
theorem isActive_of_extended (h : c.extended ds = .ok c') {d : Directive}
    (hd : c.contains d.name = true) : c.isActive v d = c'.isActive v d := by
  obtain ⟨e, he⟩ := Catalog.exists_find?_of_contains hd
  have he' : c'.find? d.name = some e := Catalog.extended_keeps h d.name e he
  rw [Catalog.isActive, Catalog.isActive, he, he']

/-- With an extended catalog the same directives are known and active within a schema. -/
theorem sameActive_of_extended (h : c.extended ds = .ok c') (hk : w.Known s c) (v : Version) :
    SameActive w s c v c' v where
  known := hk
  known' := fun d hd => (Catalog.extended_keeps h).contains (hk d hd)
  active := fun d hd => isActive_of_extended h (hk d hd)

/-- **Extending the catalog never changes the body.** If a document is there with a catalog, then it is
there with an extension of it: below version `2.0` it is the same, and from there on it has the same
body. The old imports stand among the new ones in the same order, and what is imported besides them is
the names of the added definitions that are old enough, each once. -/
theorem document_of_extended (h : c.extended ds = .ok c') (w : Workspace) (s : Schema)
    (v : Version) :
    (∀ text, documentAt w s c v = .ok text →
      (v.isFederation2 = false → documentAt w s c' v = .ok text) ∧
      (v.isFederation2 = true → ∃ body, text = joinHeader (linkHeader c v) body ∧
        documentAt w s c' v = .ok (joinHeader (linkHeader c' v) body))) ∧
    (linkImports c v).Sublist (linkImports c' v) ∧
    (linkImports c' v).Perm
      (linkImports c v ++ (ds.filter fun d => d.minVersion.le v).map fun d => "@" ++ d.name) ∧
    (linkImports c' v).Nodup := by
  refine ⟨fun text htext => ?_, ?_, ?_, ?_⟩
  · obtain ⟨hr, hk, -, -⟩ := exists_documentAt_iff.mp ⟨text, htext⟩
    have hsame : SameActive w s c v c' v := sameActive_of_extended h hk v
    refine ⟨fun hv => ?_, fun hv => ?_⟩
    · rw [documentAt_of_known hr hk, if_neg (by simp [hv])] at htext
      rw [documentAt_of_known hr hsame.known', if_neg (by simp [hv]), htext]
    · rw [documentAt_of_known hr hk, if_pos hv] at htext
      obtain ⟨body, hbody, hjoined⟩ := map_eq_ok.mp htext
      refine ⟨body, hjoined.symm, ?_⟩
      rw [documentAt_of_known hr hsame.known', if_pos hv, ← hsame.body_eq, hbody]
      rfl
  · exact (Catalog.eligible_sublist_of_extended h v).map _
  · have hperm := (Catalog.eligible_perm_of_extended h v).map fun d => "@" ++ d.name
    rw [List.map_append] at hperm
    exact hperm
  · have hnames : ((c'.eligible v).map (·.name)).Nodup := Catalog.eligible_names_nodup c' v
    have hmarked : linkImports c' v = ((c'.eligible v).map (·.name)).map ("@" ++ ·) := by
      rw [linkImports, List.map_map]
      rfl
    rw [hmarked]
    exact hnames.map fun a b hab => (String.append_right_inj _).mp hab

/-- `document_of_extended` at the schema with three directives: one of the new definitions is old enough
for version `2.3` and is imported between the old ones. -/
theorem document_of_extended_mixed :
    documentAt mixedWorkspace mixedSchema .standard ⟨[2, 3], "2.3"⟩ = .ok mixedText ∧
      linkImports .standard ⟨[2, 3], "2.3"⟩ = ["@inaccessible", "@tag"] ∧
      ∃ c', Catalog.standard.extended
          [⟨"key", ⟨[2, 1], "2.1"⟩, [.object], true⟩, ⟨"cost", ⟨[2, 9], "2.9"⟩, [.enum], false⟩] =
            .ok c' ∧
        linkImports c' ⟨[2, 3], "2.3"⟩ = ["@inaccessible", "@key", "@tag"] ∧
        ∃ body, mixedText = joinHeader (linkHeader .standard ⟨[2, 3], "2.3"⟩) body ∧
          documentAt mixedWorkspace mixedSchema c' ⟨[2, 3], "2.3"⟩ =
            .ok (joinHeader (linkHeader c' ⟨[2, 3], "2.3"⟩) body) := by
  have hprint : documentAt mixedWorkspace mixedSchema .standard ⟨[2, 3], "2.3"⟩ = .ok mixedText := by
    rfl
  have hextended : ∃ c', Catalog.standard.extended
      [⟨"key", ⟨[2, 1], "2.1"⟩, [.object], true⟩, ⟨"cost", ⟨[2, 9], "2.9"⟩, [.enum], false⟩] =
        .ok c' ∧ linkImports c' ⟨[2, 3], "2.3"⟩ = ["@inaccessible", "@key", "@tag"] :=
    ⟨_, rfl, by cbv⟩
  obtain ⟨c', hc', hnames⟩ := hextended
  obtain ⟨hdocument, -⟩ := document_of_extended hc' mixedWorkspace mixedSchema ⟨[2, 3], "2.3"⟩
  obtain ⟨-, hbody⟩ := hdocument mixedText hprint
  exact ⟨hprint, by cbv, c', hc', hnames, hbody (by decide)⟩

/-! ## A later version -/

/-- A directive that is active stays active at later versions. -/
theorem isActive_of_le (h : v.le v' = true) {d : Directive} (hd : c.isActive v d = true) :
    c.isActive v' d = true := by
  obtain ⟨e, he, hname, hle⟩ := Catalog.isActive_iff.mp hd
  exact Catalog.isActive_iff.mpr ⟨e, he, hname, Version.le_trans hle h⟩

/-- What is shown of directives at a version is shown at later ones too, in the same order. -/
theorem active_sublist (h : v.le v' = true) (c : Catalog) (ds : List Directive) :
    (ds.filter (c.isActive v)).Sublist (ds.filter (c.isActive v')) :=
  List.monotone_filter_right ds fun _ hd => isActive_of_le h hd

/-- A document that is there at a version is there at every earlier one. -/
theorem exists_documentAt_of_le (h : v.le v' = true)
    (htext : ∃ text, documentAt w s c v' = .ok text) : ∃ text, documentAt w s c v = .ok text := by
  obtain ⟨hr, hk, hplain, hshown⟩ := exists_documentAt_iff.mp htext
  refine exists_documentAt_iff.mpr ⟨hr, hk, hplain, fun hv f => ?_⟩
  rintro ⟨d, hd, hactive, hargument⟩
  -- an argument that is shown now would be shown later
  exact hshown (Version.isFederation2_of_le hv h) f ⟨d, hd, isActive_of_le h hactive, hargument⟩

/-- **Raising the version only adds.** The names that a version imports are the first ones that a later
version imports. Behind every part the directives that are shown at a version stand among those that
are shown at a later one, in the same order. If a document is there at the later version then it is at
the earlier one; and from version `2.0` on the two show these directives behind the parts of the
schema. -/
theorem later_version_adds (h : v.le v' = true) (w : Workspace) (s : Schema) (c : Catalog) :
    (c.eligible v).map (·.name) <+: (c.eligible v').map (·.name) ∧
    (∀ ds : List Directive, (imported c v ds).Sublist (imported c v' ds)) ∧
    ∀ text', documentAt w s c v' = .ok text' → ∃ text, documentAt w s c v = .ok text ∧
      (v.isFederation2 = true → ∃ behind behind' : Part → String,
        text = joinHeader (linkHeader c v) ((bodyLayout w s c v).fill behind) ∧
        text' = joinHeader (linkHeader c v') ((bodyLayout w s c v').fill behind') ∧
        ∀ part ∈ s.parts w.graph,
          directiveTexts (imported c v (w.directivesOf part.element)) = .ok (behind part) ∧
          directiveTexts (imported c v' (w.directivesOf part.element)) = .ok (behind' part)) := by
  refine ⟨(Catalog.eligible_prefix c h).map _, fun ds => ?_, fun text' htext' => ?_⟩
  · rw [imported_eq_active, imported_eq_active]
    exact active_sublist h c ds
  · obtain ⟨text, htext⟩ := exists_documentAt_of_le h ⟨text', htext'⟩
    refine ⟨text, htext, fun hv => ?_⟩
    have hv' : v'.isFederation2 = true := Version.isFederation2_of_le hv h
    obtain ⟨behind, hfill, -, hbehind⟩ := exists_behind_of_documentAt hv htext
    obtain ⟨behind', hfill', -, hbehind'⟩ := exists_behind_of_documentAt hv' htext'
    refine ⟨behind, behind', hfill, hfill', fun part hpart => ?_⟩
    rw [imported_eq_active, imported_eq_active]
    exact ⟨hbehind part hpart, hbehind' part hpart⟩

/-- The document of the schema with three directives at version `2.5`, which has all of them. -/
def laterText : String :=
  joinHeader (linkHeader .standard ⟨[2, 5], "2.5"⟩)
    "type Query @tag(name: \"x\") @authenticated @tag(name: \"y\") \x7b
  a(i: Int = 3 @tag(name: \"z\")): Int @inaccessible\n\x7d"

/-- `later_version_adds` at that schema, from version `2.3` to version `2.5`. -/
theorem later_version_adds_mixed :
    Version.le ⟨[2, 3], "2.3"⟩ ⟨[2, 5], "2.5"⟩ = true ∧
      documentAt mixedWorkspace mixedSchema .standard ⟨[2, 5], "2.5"⟩ = .ok laterText ∧
      (Catalog.standard.eligible ⟨[2, 3], "2.3"⟩).map (·.name) <+:
        (Catalog.standard.eligible ⟨[2, 5], "2.5"⟩).map (·.name) ∧
      (imported .standard ⟨[2, 3], "2.3"⟩ (mixedWorkspace.directivesOf (some 0))).Sublist
        (imported .standard ⟨[2, 5], "2.5"⟩ (mixedWorkspace.directivesOf (some 0))) ∧
      ∃ text, documentAt mixedWorkspace mixedSchema .standard ⟨[2, 3], "2.3"⟩ = .ok text := by
  have hle : Version.le ⟨[2, 3], "2.3"⟩ ⟨[2, 5], "2.5"⟩ = true := by decide
  have hprint : documentAt mixedWorkspace mixedSchema .standard ⟨[2, 5], "2.5"⟩ = .ok laterText := by
    rfl
  obtain ⟨hnames, hshown, hearlier⟩ :=
    later_version_adds hle mixedWorkspace mixedSchema .standard
  obtain ⟨text, htext, -⟩ := hearlier laterText hprint
  exact ⟨hle, hprint, hnames, hshown _, text, htext⟩

end Sdl
end Subgraph
