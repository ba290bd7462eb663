import Subgraph.Proofs.Catalog.Eligible
import Subgraph.Proofs.CommandLine.Reports
import Subgraph.Proofs.Sdl.Imports

/-!
# `CommandLine.Run` — the list of directives and the header of a document

Two requests tell which directives a version imports: a document has them in its header, and a list of
directives has them line by line. Both come from the same catalog at the same version, so from version
`2.0` on they agree (`listed_imports`). Below it a document has no header. A list of directives does not
look at that: it tells that nothing is imported iff no definition is old enough, and of the known
directives none is (`Catalog.standard_not_le`), but a configuration can add one that is.
-/

namespace Subgraph

namespace Catalog

variable {c c' : Catalog} {v : Version} {ds : List Definition}

/-- Nothing is imported iff no definition is old enough. -/
theorem eligible_eq_nil_iff :
    c.eligible v = [] ↔ ∀ d ∈ c.definitions, d.minVersion.le v = false := by
  simp only [List.eq_nil_iff_forall_not_mem, mem_eligible, not_and, Bool.not_eq_true]

/-- Below version `2.0` none of the known directives is old enough. -/
theorem standard_not_le (hv : v.isFederation2 = false) :
    ∀ d ∈ standard.definitions, d.minVersion.le v = false := by
  intro d hd
  have hlater : d.minVersion.isFederation2 = true :=
    (by decide : ∀ d ∈ standard.definitions, d.minVersion.isFederation2 = true) d hd
  by_contra hle
  rw [Bool.not_eq_false] at hle
  exact absurd (Version.isFederation2_of_le hlater hle) (by simp [hv])

/-- From version `2.0` on one of the known directives is, in every extension of their catalog. -/
theorem eligible_ne_nil_of_standard (h : standard.extended ds = .ok c)
    (hv : v.isFederation2 = true) : c.eligible v ≠ [] := by
  have hfirst : (⟨"inaccessible", ⟨[2], "2.0"⟩, visibilityLocations, false⟩ : Definition) ∈
      c.eligible v := by
    rw [mem_eligible, extended_definitions h]
    exact ⟨List.mem_append_left _ List.mem_cons_self, hv⟩
  exact List.ne_nil_of_mem hfirst

/-- Below version `2.0` an extension of their catalog imports what it adds, as far as that is old
enough. -/
theorem eligible_eq_nil_iff_of_standard (h : standard.extended ds = .ok c)
    (hv : v.isFederation2 = false) :
    c.eligible v = [] ↔ ∀ d ∈ ds, d.minVersion.le v = false := by
  rw [eligible_eq_nil_iff, extended_definitions h, List.forall_mem_append]
  exact and_iff_right (standard_not_le hv)

end Catalog

namespace Config

variable {config : Config} {base c : Catalog}

/-- The catalog of a configuration is an extension. -/
theorem extended_of_catalog (h : config.catalog base = .ok c) :
    base.extended config.directives = .ok c := by
  unfold catalog at h
  split at h
  · next hextended => rw [hextended, h]
  · exact absurd h (by simp)
  · exact absurd h (by simp)

end Config

namespace CommandLine

open Sdl

variable {env : Environment} {config : Config} {placed : PlacedSchema} {v : Version} {c : Catalog}

/-- A run that ends without a failure shows a text. -/
theorem Outcome.Tells.exists_of_exit {o : Outcome} {result : Except Failure String}
    (h : o.Tells result) (hexit : o.ending = .exit 0) : ∃ text, result = .ok text ∧ o.Shows text := by
  rcases h.ends with hshown | ⟨f, -, hreported⟩ | ⟨f, -, hthrough⟩
  · exact hshown
  · exact absurd (hexit.symm.trans hreported.ending) (by simp)
  · exact absurd (hexit.symm.trans hthrough.ending) (by simp)

/-! ## The two requests -/

/-- The line that tells that nothing is imported. -/
def noImportsLine (v : Version) : String :=
  "No directives are imported at federation version " ++ v.text ++ "."

theorem importText_nil (v : Version) : importText v [] = Page.lines [noImportsLine v] := rfl

/-- Directives that are imported are listed line by line. -/
theorem importText_eligible (h : c.eligible v ≠ []) :
    importText v (c.eligible v) = Page.lines (linkImports c v) := by
  have hempty : (c.eligible v).isEmpty = false := by simpa using h
  rw [importText, importLines, hempty]
  rfl

/-- What a request for the directives of a version shows. -/
theorem run_directives_shows {words : List String} {version : String} {given : Option String}
    (hwords : Request.ofWords words = .ok (.directives version given))
    (hconfig : configOf env given = .ok config) (hc : config.catalog .standard = .ok c)
    (hv : Version.parse (.text version) = .ok v) :
    (run env words).Shows (importText v (c.eligible v)) := by
  have himported : importedDirectives env version given = .ok (v, c.eligible v) := by
    rw [importedDirectives, hconfig, ok_bind, hc, ok_bind, hv, ok_bind]
  rw [run_of_ofWords hwords]
  exact run_directives_tells.shows _ (by rw [himported]; rfl)

/-- What a request for a schema at a given version shows, if it shows anything. -/
theorem run_print_shows {words : List String} {r : PrintRequest} {given : String}
    (hwords : Request.ofWords words = .ok (.print r)) (houtput : r.output = none)
    (hgiven : r.version = some given) (hconfig : configOf env r.config = .ok config)
    (hlocate : locate env.modules r.location = .ok placed)
    (hexit : (run env words).ending = .exit 0) :
    ∃ v c sdl, Version.parse (.text given) = .ok v ∧
      config.catalog (ownCatalog placed.workspace placed.schema) = .ok c ∧
      documentAt placed.workspace placed.schema c v = .ok sdl ∧
      (run env words).Shows (sdl ++ "\n") := by
  have htells : (run env words).Tells ((printedSdl env r).map (· ++ "\n")) := by
    rw [run_of_ofWords hwords]
    exact run_print_tells houtput
  obtain ⟨text, htext, hshows⟩ := htells.exists_of_exit hexit
  obtain ⟨sdl, hsdl, rfl⟩ := map_eq_ok.mp htext
  obtain ⟨version, c, ⟨hversion, hc⟩, hdocument⟩ := printedSdl_eq_ok hconfig hlocate hsdl
  rw [hgiven] at hversion
  obtain ⟨v, hv, rfl⟩ := map_eq_ok.mp hversion
  exact ⟨v, c, sdl, hv, hc, hdocument, hshows⟩

/-- **The list of directives is that of the header.**

Let a schema be printed at a given version, under a configuration and with the known directives as its own
catalog, and let the directives of this version be listed under the same configuration. From version `2.0`
on the document starts with a header, and the list has the imports of this header, in order and line by
line. Below it the document has no header; the list tells that nothing is imported iff no definition that
the configuration adds is old enough, and else it has those that are. -/
theorem listed_imports {words words' : List String} {r : PrintRequest} {given : String}
    (hprint : Request.ofWords words = .ok (.print r)) (houtput : r.output = none)
    (hgiven : r.version = some given)
    (hlist : Request.ofWords words' = .ok (.directives given r.config))
    (hconfig : configOf env r.config = .ok config)
    (hlocate : locate env.modules r.location = .ok placed)
    (hown : ownCatalog placed.workspace placed.schema = .standard)
    (hexit : (run env words).ending = .exit 0) :
    ∃ v c, Version.parse (.text given) = .ok v ∧ config.catalog .standard = .ok c ∧
      (v.isFederation2 = true →
        linkImports c v ≠ [] ∧
        (∃ body, (run env words).Shows (joinHeader (linkHeader c v) body ++ "\n")) ∧
        (run env words').Shows (Page.lines (linkImports c v))) ∧
      (v.isFederation2 = false →
        (∃ sdl, plainDocument placed.workspace.graph placed.schema = .ok sdl ∧
          (run env words).Shows (sdl ++ "\n")) ∧
        ((∀ d ∈ config.directives, d.minVersion.le v = false) →
          (run env words').Shows (Page.lines [noImportsLine v])) ∧
        ((∃ d ∈ config.directives, d.minVersion.le v = true) →
          linkImports c v ≠ [] ∧ (∀ d ∈ c.eligible v, d ∈ config.directives) ∧
          (run env words').Shows (Page.lines (linkImports c v)))) := by
  obtain ⟨v, c, sdl, hv, hc, hdocument, hshows⟩ :=
    run_print_shows hprint houtput hgiven hconfig hlocate hexit
  rw [hown] at hc
  have hextended : Catalog.standard.extended config.directives = .ok c :=
    Config.extended_of_catalog hc
  have hlisted : (run env words').Shows (importText v (c.eligible v)) :=
    run_directives_shows hlist hconfig hc hv
  refine ⟨v, c, hv, hc, fun hnew => ?_, fun hold => ⟨?_, fun hnone => ?_, fun hsome => ?_⟩⟩
  · have hne : c.eligible v ≠ [] := Catalog.eligible_ne_nil_of_standard hextended hnew
    obtain ⟨-, body, -, rfl⟩ := exists_body_of_documentAt hnew hdocument
    rw [importText_eligible hne] at hlisted
    exact ⟨by simpa [linkImports] using hne, ⟨body, hshows⟩, hlisted⟩
  · exact ⟨sdl, plainDocument_of_documentAt hold hdocument, hshows⟩
  · rw [(Catalog.eligible_eq_nil_iff_of_standard hextended hold).mpr hnone, importText_nil] at hlisted
    exact hlisted
  · obtain ⟨d, hd, hle⟩ := hsome
    have hne : c.eligible v ≠ [] := by
      intro hnil
      have hnone := (Catalog.eligible_eq_nil_iff_of_standard hextended hold).mp hnil d hd
      exact absurd hle (by simp [hnone])
    rw [importText_eligible hne] at hlisted
    refine ⟨by simpa [linkImports] using hne, fun e he => ?_, hlisted⟩
    obtain ⟨hmem, hle'⟩ := Catalog.mem_eligible.mp he
    rw [Catalog.extended_definitions hextended, List.mem_append] at hmem
    rcases hmem with hmem | hmem
    · exact absurd hle' (by simp [Catalog.standard_not_le hold e hmem])
    · exact hmem

/-- A directory with a configuration that adds a directive of version `1.0`, and a module with the schema
with three directives. -/
def agedEnvironment : Environment where
  directory := "/work"
  files :=
    { contents := [(["work", "federation.yaml"], .text "directives:\n- name: aged\n  min-version: 1.0\n")] }
  modules := [("m", .making [("s", .schema (.ok ⟨mixedWorkspace, mixedSchema⟩))])]

/-- What the configuration adds. -/
def agedDefinition : Definition := ⟨"aged", ⟨[1], "1.0"⟩, [], false⟩

/-- The words that ask for that schema at a version. -/
def agedWords (given : String) : List String := ["print", "m:s", "--federation-version", given]

theorem agedEnvironment_config :
    configOf agedEnvironment none = .ok { directives := [agedDefinition] } :=
  eq_ok_of_toOption (by decide +kernel)

theorem agedEnvironment_located :
    locate agedEnvironment.modules "m:s" = .ok ⟨mixedWorkspace, mixedSchema⟩ := by rfl

/-- The catalog of the configuration. -/
def agedCatalog : Catalog where
  definitions := Catalog.standard.definitions ++ [agedDefinition]
  distinct := by decide

theorem aged_catalog :
    Config.catalog { directives := [agedDefinition] } .standard = .ok agedCatalog := by
  have hextended : Catalog.standard.extended [agedDefinition] = .ok agedCatalog :=
    Catalog.extended_eq_ok_iff.mpr rfl
  rw [Config.catalog, hextended]

/-- The plain document of the schema. -/
def agedText : String := "type Query \x7b\n  a(i: Int = 3): Int\n\x7d"

/-- `listed_imports` at that schema: below version `2.0` the list has the directive that the configuration
adds, while the document has no header. -/
theorem listed_imports_aged :
    Request.ofWords (agedWords "1") = .ok (.print ⟨"m:s", none, some "1", none⟩) ∧
      Request.ofWords ["directives", "1"] = .ok (.directives "1" none) ∧
      (run agedEnvironment (agedWords "1")).Shows (agedText ++ "\n") ∧
      (run agedEnvironment ["directives", "1"]).Shows (Page.lines ["@aged"]) := by
  have hprint : Request.ofWords (agedWords "1") = .ok (.print ⟨"m:s", none, some "1", none⟩) := by
    rfl
  have hlist : Request.ofWords ["directives", "1"] = .ok (.directives "1" none) :=
    ofWords_directives (by decide)
  have hversion : Version.parse (.text "1") = .ok ⟨[1], "1"⟩ := by rfl
  have hown : ownCatalog mixedWorkspace mixedSchema = .standard := by rfl
  have hdocument : documentAt mixedWorkspace mixedSchema agedCatalog ⟨[1], "1"⟩ = .ok agedText := by
    rfl
  have hgiven : versionToPrint { directives := [agedDefinition] } (some "1") =
      .ok (some ⟨[1], "1"⟩) := by rw [versionToPrint, hversion]; rfl
  have hprepares : Prepares { directives := [agedDefinition] } ⟨mixedWorkspace, mixedSchema⟩
      (some "1") (some ⟨[1], "1"⟩) agedCatalog := ⟨hgiven, by rw [hown, aged_catalog]⟩
  have hprinted := printedSdl_of_prepares (r := ⟨"m:s", none, some "1", none⟩)
    agedEnvironment_config agedEnvironment_located hprepares
  have hshown : (run agedEnvironment (agedWords "1")).Shows (agedText ++ "\n") := by
    rw [run_of_ofWords hprint]
    exact (run_print_tells rfl).shows _ (by rw [hprinted, federationDocument]; exact congrArg _ hdocument)
  obtain ⟨v, c, hv, hc, -, hbelow⟩ := listed_imports hprint rfl rfl hlist agedEnvironment_config
    agedEnvironment_located hown hshown.ending
  obtain rfl : ⟨[1], "1"⟩ = v := Except.ok.inj (hversion.symm.trans hv)
  obtain rfl : agedCatalog = c := Except.ok.inj (aged_catalog.symm.trans hc)
  have hnames : linkImports agedCatalog ⟨[1], "1"⟩ = ["@aged"] := by cbv
  obtain ⟨-, -, hlisted⟩ := hbelow (by decide)
  obtain ⟨-, -, hshows⟩ := hlisted ⟨agedDefinition, List.mem_singleton.mpr rfl, by decide⟩
  rw [hnames] at hshows
  exact ⟨hprint, hlist, hshown, hshows⟩

end CommandLine
end Subgraph
