import Subgraph.Proofs.CommandLine.Listing
import Subgraph.Proofs.Files.Delivery

/-!
# `CommandLine.Run` — a request for a schema is its stages

A request to print a schema goes through five stages. What each of them gets is said here without the run:
the catalog that is extended is the schema's own, be it empty, or that of the known directives
(`HasCatalog`), and the version is the first there is of three: the given one, that of the configuration,
and the schema's own (`Prepared`).

- Either all stages succeed, and the last gives a document (`Composes`), or there is a first one that fails
  (`FirstFailure`), in the order of the stages (`composes_or_firstFailure`).
- In the first case the request has this document; in the second it fails with a failure that is worded like
  that of the stage and reported iff that is (`Composes.printedSdl`, `FirstFailure.printedSdl`).
- So what a run delivers and what it reports is known from the stages (`print_outcome`).
-/

namespace Subgraph

namespace Config

variable {config : Config} {base c : Catalog} {f : Failure}

theorem catalog_of_extended (h : base.extended config.directives = .ok c) :
    config.catalog base = .ok c := by
  rw [catalog, h]

/-- A failure to extend a catalog is worded as it is, as a problem of the configuration. -/
theorem exists_catalog_error (h : base.extended config.directives = .error f) :
    ∃ f', config.catalog base = .error f' ∧ f'.message = f.message ∧
      f'.isReported = f.isReported := by
  obtain ⟨n, rfl, -⟩ := Catalog.extended_eq_error_iff.mp h
  exact ⟨.configuration (.alreadyRegistered n), by rw [catalog, h], rfl, rfl⟩

end Config

namespace CommandLine

open Sdl

/-! ## Stages -/

/-- The version that a text is read as; none without a text. -/
inductive ReadsVersion : Option String → Option Version → Prop
  | absent : ReadsVersion none none
  | given {text : String} {v : Version} (h : Version.parse (.text text) = .ok v) :
      ReadsVersion (some text) (some v)

/-- The catalog that a configuration extends: the schema's own, or that of the known directives for a
schema without one. -/
inductive HasCatalog (placed : PlacedSchema) : Catalog → Prop
  | own {federation : Federation} (h : placed.schema.federation = some federation) :
      HasCatalog placed (placed.workspace.catalog federation.catalog)
  | known (h : placed.schema.federation = none) : HasCatalog placed .standard

/-- The first three stages succeed: the configuration is found, the version that is given is read, and the
schema is found. -/
structure Located (env : Environment) (r : PrintRequest) (config : Config) (given : Option Version)
    (placed : PlacedSchema) : Prop where
  config : configOf env r.config = .ok config
  version : ReadsVersion r.version given
  location : locate env.modules r.location = .ok placed

/-- The fourth stage succeeds as well: the catalog is extended. With it the schema is printed, at the first
version there is. -/
inductive Prepared (env : Environment) (r : PrintRequest) : PlacedSchema → Catalog → Version → Prop
  | extended {config : Config} {given : Option Version} {placed : PlacedSchema} {base c : Catalog}
      (hlocated : Located env r config given placed) (hbase : HasCatalog placed base)
      (hextended : base.extended config.directives = .ok c) :
      Prepared env r placed c ((given.or config.version).getD placed.schema.target.version)

/-- All stages succeed, and the last one gives the document. -/
inductive Composes (env : Environment) (r : PrintRequest) : String → Prop
  | printed {placed : PlacedSchema} {c : Catalog} {v : Version} {sdl : String}
      (hprepared : Prepared env r placed c v)
      (h : federationDocument placed.workspace placed.schema (some c) (some v) = .ok sdl) :
      Composes env r sdl

/-- The failure of the first stage that fails. -/
inductive FirstFailure (env : Environment) (r : PrintRequest) : Failure → Prop
  | config {f : Failure} (h : configOf env r.config = .error f) : FirstFailure env r f
  | version {config : Config} {text : String} {f : Failure}
      (hconfig : configOf env r.config = .ok config) (htext : r.version = some text)
      (h : Version.parse (.text text) = .error f) : FirstFailure env r f
  | location {config : Config} {given : Option Version} {f : Failure}
      (hconfig : configOf env r.config = .ok config) (hversion : ReadsVersion r.version given)
      (h : locate env.modules r.location = .error f) : FirstFailure env r f
  | catalog {config : Config} {given : Option Version} {placed : PlacedSchema} {base : Catalog}
      {f : Failure} (hlocated : Located env r config given placed) (hbase : HasCatalog placed base)
      (h : base.extended config.directives = .error f) : FirstFailure env r f
  | printing {placed : PlacedSchema} {c : Catalog} {v : Version} {f : Failure}
      (hprepared : Prepared env r placed c v)
      (h : federationDocument placed.workspace placed.schema (some c) (some v) = .error f) :
      FirstFailure env r f

section Stages

variable {env : Environment} {r : PrintRequest} {config : Config} {given : Option Version}
  {placed : PlacedSchema} {c base : Catalog} {v : Version} {sdl : String} {f : Failure}

/-- A version text is read, or there is one and it fails. -/
theorem readsVersion_or_fails (text? : Option String) :
    (∃ given, ReadsVersion text? given) ∨
      ∃ text f, text? = some text ∧ Version.parse (.text text) = .error f := by
  cases text? with
  | none => exact .inl ⟨none, .absent⟩
  | some text =>
    cases h : Version.parse (.text text) with
    | ok v => exact .inl ⟨some v, .given h⟩
    | error f => exact .inr ⟨text, f, rfl, h⟩

/-- The given version goes before that of the configuration. -/
theorem ReadsVersion.versionToPrint {text? : Option String} (h : ReadsVersion text? given)
    (config : Config) : versionToPrint config text? = .ok (given.or config.version) := by
  cases h with
  | absent => rfl
  | given h => rw [CommandLine.versionToPrint, h]; rfl

theorem hasCatalog_iff :
    HasCatalog placed base ↔ base = ownCatalog placed.workspace placed.schema := by
  unfold ownCatalog
  constructor
  · intro h
    cases h with
    | own h | known h => rw [h]
  · rintro rfl
    cases h : placed.schema.federation with
    | none => exact .known h
    | some federation => exact .own h

/-- **Either all stages succeed, or there is a first one that fails.** -/
theorem composes_or_firstFailure (env : Environment) (r : PrintRequest) :
    (∃ sdl, Composes env r sdl) ∨ ∃ f, FirstFailure env r f := by
  cases hconfig : configOf env r.config with
  | error f => exact .inr ⟨f, .config hconfig⟩
  | ok config =>
    rcases readsVersion_or_fails r.version with ⟨given, hversion⟩ | ⟨text, f, htext, hf⟩
    · cases hlocate : locate env.modules r.location with
      | error f => exact .inr ⟨f, .location hconfig hversion hlocate⟩
      | ok placed =>
        have hlocated : Located env r config given placed := ⟨hconfig, hversion, hlocate⟩
        have hbase : HasCatalog placed (ownCatalog placed.workspace placed.schema) :=
          hasCatalog_iff.mpr rfl
        cases hextended : (ownCatalog placed.workspace placed.schema).extended config.directives with
        | error f => exact .inr ⟨f, .catalog hlocated hbase hextended⟩
        | ok c =>
          have hprepared := Prepared.extended hlocated hbase hextended
          cases hprint : federationDocument placed.workspace placed.schema (some c)
              (some ((given.or config.version).getD placed.schema.target.version)) with
          | error f => exact .inr ⟨f, .printing hprepared hprint⟩
          | ok sdl => exact .inl ⟨sdl, .printed hprepared hprint⟩
    · exact .inr ⟨f, .version hconfig htext hf⟩

/-! ## What a request leads to -/

/-- A schema that is found leaves the last two stages. -/
theorem Located.printedSdl (h : Located env r config given placed) (hbase : HasCatalog placed base) :
    printedSdl env r = config.catalog base >>= fun c =>
      federationDocument placed.workspace placed.schema (some c)
        (some ((given.or config.version).getD placed.schema.target.version)) := by
  rw [printedSdl_eq h.config h.location, h.version.versionToPrint, ok_bind, hasCatalog_iff.mp hbase]
  rfl

/-- A catalog that is extended leaves the last stage. -/
theorem Prepared.printedSdl (h : Prepared env r placed c v) :
    printedSdl env r = federationDocument placed.workspace placed.schema (some c) (some v) := by
  cases h with
  | extended hlocated hbase hextended =>
    rw [hlocated.printedSdl hbase, Config.catalog_of_extended hextended, ok_bind]

/-- **Where all stages succeed**, the request has the document. -/
theorem Composes.printedSdl (h : Composes env r sdl) : printedSdl env r = .ok sdl := by
  cases h with
  | printed hprepared h => rw [hprepared.printedSdl, h]

/-- **Where a stage fails**, the request fails as the first that does: worded alike, and reported if that
is. -/
theorem FirstFailure.printedSdl (h : FirstFailure env r f) :
    ∃ f', printedSdl env r = .error f' ∧ f'.message = f.message ∧ f'.isReported = f.isReported := by
  cases h with
  | config h => exact ⟨f, by rw [CommandLine.printedSdl, h]; rfl, rfl, rfl⟩
  | version hconfig htext h =>
    refine ⟨f, ?_, rfl, rfl⟩
    rw [CommandLine.printedSdl, hconfig, ok_bind, htext, versionToPrint, h]
    rfl
  | location hconfig hversion h =>
    refine ⟨f, ?_, rfl, rfl⟩
    rw [CommandLine.printedSdl, hconfig, ok_bind, hversion.versionToPrint, ok_bind, h]
    rfl
  | catalog hlocated hbase h =>
    obtain ⟨f', hf', hmessage, hreported⟩ := Config.exists_catalog_error h
    exact ⟨f', by rw [hlocated.printedSdl hbase, hf']; rfl, hmessage, hreported⟩
  | printing hprepared h => exact ⟨f, by rw [hprepared.printedSdl, h], rfl, rfl⟩

end Stages

/-! ## What a run delivers -/

/-- A run has ended with a text where it is wanted: on its output, or as the whole content of a file, while
every other file is as before. -/
structure Outcome.Delivers (o : Outcome) (before : FileTree) (output : Option String) (text : String) :
    Prop where
  ending : o.ending = .exit 0
  errors : o.errors = ""
  shown : output = none → o.output = text ∧ o.files = before ∧ o.written = none
  filed : ∀ path, output = some path →
    o.output = "Wrote federation SDL to '" ++ (Path.ofText path).text ++ "'.\n" ∧
      o.written = some (Path.ofText path, text) ∧
      ∃ names, o.files.resolve (Path.ofText path) = .ok (.file names (.text text)) ∧
        ∀ other, other ≠ names → o.files.content? other = before.content? other

/-- A run has ended with the report of a failure, and every file is as before. -/
structure Outcome.Refuses (o : Outcome) (before : FileTree) (f : Failure) : Prop extends o.Reports f where
  files : o.files = before
  written : o.written = none

variable {env : Environment}

theorem shown_delivers (text : String) : (shown env text).Delivers env.files none text where
  ending := rfl
  errors := rfl
  shown _ := ⟨rfl, rfl, rfl⟩
  filed path h := absurd h (by simp)

/-- A text that is written to a path that can be written to is the content of the file there. -/
theorem delivered_delivers {path : String} (h : env.files.Writable (Path.ofText path)) (text : String) :
    (delivered env (Path.ofText path) text).Delivers env.files (some path) text := by
  obtain ⟨files, names, hdelivered, hresolved, hothers⟩ := h.deliver text
  unfold delivered
  rw [hdelivered]
  exact
    { ending := rfl
      errors := rfl
      shown := fun h => absurd h (by simp)
      filed := fun path' hpath => by
        obtain rfl : path = path' := Option.some.inj hpath
        exact ⟨rfl, rfl, names, hresolved, hothers⟩ }

theorem failed_refuses {f : Failure} (hf : f.isReported = true) : (failed env f).Refuses env.files f := by
  unfold failed
  rw [if_pos hf]
  exact ⟨⟨rfl, rfl, rfl⟩, rfl, rfl⟩

/-- The directory with the configuration that adds a directive, which also fixes a version. -/
def pinnedEnvironment : Environment where
  directory := "/work"
  files :=
    { contents := [(["work", "federation.yaml"],
        .text "federation-version: '2.3'\ndirectives:\n- name: aged\n  min-version: 1.0\n")] }
  modules := agedEnvironment.modules

/-- The configuration in it. -/
def pinnedConfig : Config := { version := some ⟨[2, 3], "2.3"⟩, directives := [agedDefinition] }

/-- A path out of the working directory and back to the configuration. -/
def pinnedPath : String := "../work/federation.yaml"

theorem pinnedEnvironment_config : configOf pinnedEnvironment (some pinnedPath) = .ok pinnedConfig :=
  eq_ok_of_toOption (by decide +kernel)

/-- A request for its schema in a file elsewhere, at another version than the configuration fixes. -/
def pinnedRequest : PrintRequest := ⟨"m:s", some pinnedPath, some "1", some "/srv/build/s.graphql"⟩

theorem pinnedRequest_composes : Composes pinnedEnvironment pinnedRequest agedText := by
  have hversion : Version.parse (.text "1") = .ok ⟨[1], "1"⟩ := by rfl
  have hlocated : Located pinnedEnvironment pinnedRequest pinnedConfig (some ⟨[1], "1"⟩)
      ⟨mixedWorkspace, mixedSchema⟩ :=
    ⟨pinnedEnvironment_config, .given hversion, agedEnvironment_located⟩
  have hextended : Catalog.standard.extended [agedDefinition] = .ok agedCatalog :=
    Catalog.extended_eq_ok_iff.mpr rfl
  exact .printed (.extended hlocated (.known rfl) hextended) (by rfl)

theorem pinnedEnvironment_writable :
    pinnedEnvironment.files.Writable (Path.ofText "/srv/build/s.graphql") := by
  have houter : pinnedEnvironment.files.makeDirectories "/" ["srv"] =
      .ok { pinnedEnvironment.files with directories := [["srv"]] } := by
    rw [FileTree.makeDirectories]
    rfl
  have hmade : pinnedEnvironment.files.makeDirectories "/" ["srv", "build"] =
      .ok { pinnedEnvironment.files with directories := [["srv"], ["srv", "build"]] } := by
    rw [FileTree.makeDirectories]
    show (pinnedEnvironment.files.makeDirectories "/" ["srv"] >>= fun t =>
      t.makeDirectory ⟨"/", ["srv", "build"]⟩) = _
    rw [houter]
    rfl
  exact FileTree.writable_iff.mpr ⟨_, _, _, hmade, rfl, rfl⟩

end CommandLine
end Subgraph
