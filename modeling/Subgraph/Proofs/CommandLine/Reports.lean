import Subgraph.CommandLine.Run
import Subgraph.Proofs.Catalog.Repetition
import Subgraph.Proofs.Sdl.Outcome
import Subgraph.Proofs.Version.Reading

/-!
# `CommandLine.Run` — which failures a run reports, and which it lets through

A run that shows what it has made ends in one of three ways (`Tells.ends`): with the text on its output,
with a report of a failure, or with a failure that is let through. Which failures are reported depends on
their class only, and the classes of the stages differ: a catalog and the two checks of a schema fail in
reported ones, a version in a reported one unless it is too long, and writing in none that is reported.
So a run lets a failure through exactly where the version that is given is too long, or a schema that has
passed the checks has a value that cannot be written (`run_reports`).
-/

namespace Subgraph

/-! ## Classes of failures -/

/-- A value that cannot be written is not reported. -/
theorem Failure.OfValue.not_reported {f : Failure} (h : f.OfValue) : f.isReported = false := by
  cases h <;> rfl

namespace Sdl

variable {w : Workspace} {s : Schema} {c : Catalog} {v : Version}

/-- Behind the checks nothing can be written of a schema: an argument of an active directive has no
literal where directives are written, or the document without directives fails. -/
def Unwritable (w : Workspace) (s : Schema) (c : Catalog) (v : Version) : Prop :=
  (v.isFederation2 = true ∧ ∃ f, Rejected w s c v f) ∨ ∃ f, plainDocument w.graph s = .error f

theorem documentAt_fails_iff (hr : s.Resolved w.graph) (hk : w.Known s c) :
    (∃ f, documentAt w s c v = .error f) ↔ Unwritable w s c v := by
  rw [documentAt_of_known hr hk]
  unfold Unwritable
  by_cases hv : v.isFederation2 = true
  · simp only [hv, if_true, true_and, map_eq_error, federationBody_fails_iff hk]
  · simp [hv]

/-- **A document fails in a reported way iff a check fails**, and otherwise on a value. -/
theorem documentAt_not_reported_iff :
    (∃ f, documentAt w s c v = .error f ∧ f.isReported = false) ↔
      s.Resolved w.graph ∧ w.Known s c ∧ Unwritable w s c v := by
  constructor
  · rintro ⟨f, h, hf⟩
    have hr : s.Resolved w.graph := by
      cases hcheck : s.checkReferences w.graph with
      | ok => exact Schema.checkReferences_eq_ok.mp hcheck
      | error f' =>
        rw [documentAt_of_unresolved hcheck] at h
        obtain ⟨n, rfl, -⟩ := Schema.checkReferences_eq_error.mp hcheck
        obtain rfl := Except.error.inj h
        exact absurd hf (by simp [Failure.isReported])
    have hk : w.Known s c := by
      cases hcheck : w.checkDirectives s c with
      | ok => exact Workspace.checkDirectives_eq_ok.mp hcheck
      | error f' =>
        rw [documentAt_of_unknown hr hcheck] at h
        obtain ⟨d, rfl, -⟩ := Workspace.checkDirectives_eq_error.mp hcheck
        obtain rfl := Except.error.inj h
        exact absurd hf (by simp [Failure.isReported])
    exact ⟨hr, hk, (documentAt_fails_iff hr hk).mp ⟨f, h⟩⟩
  · rintro ⟨hr, hk, hvalue⟩
    obtain ⟨f, hf⟩ := (documentAt_fails_iff hr hk).mpr hvalue
    exact ⟨f, hf, (documentAt_failsOnly hr hk f hf).not_reported⟩

end Sdl

namespace Config

variable {config : Config} {base : Catalog} {f : Failure}

/-- A configuration that cannot be added to a catalog is a problem of the configuration. -/
theorem catalog_reported (h : config.catalog base = .error f) : f.isReported = true := by
  unfold catalog at h
  cases hextended : base.extended config.directives with
  | ok c =>
    rw [hextended] at h
    exact absurd h (by simp)
  | error f' =>
    obtain ⟨n, rfl, -⟩ := Catalog.extended_eq_error_iff.mp hextended
    rw [hextended] at h
    obtain rfl := Except.error.inj h
    rfl

/-- Without a configuration a catalog stays as it is. -/
theorem catalog_of_none (base : Catalog) : Config.catalog {} base = .ok base := by
  unfold catalog
  rw [Catalog.extended_eq_ok_iff.mpr (List.append_nil _).symm]

end Config

namespace Version

variable {s : String} {f : Failure}

/-- **A version text fails in a way that is not reported iff it is too long.** -/
theorem parse_not_reported_iff {v : Value} :
    (parse v = .error f ∧ f.isReported = false) ↔ ∃ m, f = .misuse m ∧ Overlong v m := by
  constructor
  · rintro ⟨h, hf⟩
    rcases parse_eq_error h with rfl | ⟨m, rfl⟩
    · exact absurd hf (by simp [Failure.isReported])
    · exact ⟨m, rfl, parse_eq_misuse_iff.mp h⟩
  · rintro ⟨m, rfl, hm⟩
    exact ⟨parse_eq_misuse_iff.mpr hm, rfl⟩

end Version

namespace CommandLine

/-! ## Outcomes -/

/-- A run has ended with a text on its output and nothing else. -/
structure Outcome.Shows (o : Outcome) (text : String) : Prop where
  ending : o.ending = .exit 0
  output : o.output = text
  errors : o.errors = ""

/-- A run has ended with the report of a failure and nothing else. -/
structure Outcome.Reports (o : Outcome) (f : Failure) : Prop where
  ending : o.ending = .exit 1
  output : o.output = ""
  errors : o.errors = "Error: " ++ f.message ++ "\n"

/-- A run has ended with a failure that is let through, and with no output. -/
structure Outcome.LetsThrough (o : Outcome) (f : Failure) : Prop where
  ending : o.ending = .failure f
  output : o.output = ""
  errors : o.errors = ""

/-- A run shows a text if there is one, and otherwise reports the failure or lets it through. -/
structure Outcome.Tells (o : Outcome) (result : Except Failure String) : Prop where
  shows : ∀ text, result = .ok text → o.Shows text
  reports : ∀ f, result = .error f → f.isReported = true → o.Reports f
  letsThrough : ∀ f, result = .error f → f.isReported = false → o.LetsThrough f

namespace Outcome

variable {o : Outcome} {result : Except Failure String} {f : Failure}

/-- A failure is let through iff it is that of the run and not reported. -/
theorem Tells.letsThrough_iff (h : o.Tells result) :
    o.LetsThrough f ↔ result = .error f ∧ f.isReported = false := by
  constructor
  · intro hthrough
    cases hresult : result with
    | ok text =>
      have hending := (h.shows text hresult).ending
      exact absurd (hthrough.ending.symm.trans hending) (by simp)
    | error f' =>
      cases hf : f'.isReported with
      | true =>
        have hending := (h.reports f' hresult hf).ending
        exact absurd (hthrough.ending.symm.trans hending) (by simp)
      | false =>
        have hending := (h.letsThrough f' hresult hf).ending
        have hsame : f = f' := Ending.failure.inj (hthrough.ending.symm.trans hending)
        subst hsame
        exact ⟨rfl, hf⟩
  · rintro ⟨hresult, hf⟩
    exact h.letsThrough f hresult hf

/-- **A run ends in one of three ways.** -/
theorem Tells.ends (h : o.Tells result) :
    (∃ text, result = .ok text ∧ o.Shows text) ∨ (∃ f, f.isReported = true ∧ o.Reports f) ∨
      ∃ f, f.isReported = false ∧ o.LetsThrough f := by
  cases hresult : result with
  | ok text => exact Or.inl ⟨text, rfl, h.shows text hresult⟩
  | error f =>
    cases hf : f.isReported with
    | true => exact Or.inr (Or.inl ⟨f, hf, h.reports f hresult hf⟩)
    | false => exact Or.inr (Or.inr ⟨f, hf, h.letsThrough f hresult hf⟩)

end Outcome

variable {env : Environment} {r : PrintRequest} {config : Config} {placed : PlacedSchema}
  {version : String} {given : Option String}

/-- A text that is shown is there. -/
theorem shown_tells (text : String) : (shown env text).Tells (.ok text) where
  shows text' h := by
    obtain rfl : text = text' := Except.ok.inj h
    exact ⟨rfl, rfl, rfl⟩
  reports f h := absurd h (by simp)
  letsThrough f h := absurd h (by simp)

/-- A failure is reported or let through by its class. -/
theorem failed_tells (f : Failure) : (failed env f).Tells (.error f) where
  shows text h := absurd h (by simp)
  reports f' h hf := by
    obtain rfl : f = f' := Except.error.inj h
    unfold failed
    rw [if_pos hf]
    exact ⟨rfl, rfl, rfl⟩
  letsThrough f' h hf := by
    obtain rfl : f = f' := Except.error.inj h
    unfold failed
    rw [if_neg (by simp [hf])]
    exact ⟨rfl, rfl, rfl⟩

/-- Printing a schema without a file shows its document. -/
theorem run_print_tells (houtput : r.output = none) :
    ((Request.print r).run env).Tells ((printedSdl env r).map (· ++ "\n")) := by
  simp only [Request.run, houtput]
  cases printedSdl env r with
  | ok sdl => exact shown_tells _
  | error f => exact failed_tells f

/-- The lines that a list of directives shows. -/
def importText (v : Version) (ds : List Definition) : String :=
  String.join ((importLines v ds).map (· ++ "\n"))

/-- Listing directives shows their lines. -/
theorem run_directives_tells :
    ((Request.directives version given).run env).Tells
      ((importedDirectives env version given).map fun imports => importText imports.1 imports.2) := by
  simp only [Request.run]
  cases importedDirectives env version given with
  | ok imports => exact shown_tells _
  | error f => exact failed_tells f

/-! ## Requests -/

/-- The version and the catalog that a request for a schema leads to. -/
def Prepares (config : Config) (placed : PlacedSchema) (given : Option String)
    (version : Option Version) (c : Catalog) : Prop :=
  versionToPrint config given = .ok version ∧
    config.catalog (Sdl.ownCatalog placed.workspace placed.schema) = .ok c

/-- A request for a schema leads to a failure that is not reported: the version that is given is too
long, or a schema that has passed the checks has a value that cannot be written. -/
def Unprintable (config : Config) (placed : PlacedSchema) (given : Option String) : Prop :=
  (∃ text m, given = some text ∧ Version.Overlong (.text text) m) ∨
    ∃ version c, Prepares config placed given version c ∧
      placed.schema.Resolved placed.workspace.graph ∧ placed.workspace.Known placed.schema c ∧
        Sdl.Unwritable placed.workspace placed.schema c
          (version.getD placed.schema.target.version)

/-- The document of a request is that of the schema, behind the version and the catalog. -/
theorem printedSdl_eq (hconfig : configOf env r.config = .ok config)
    (hlocate : locate env.modules r.location = .ok placed) :
    printedSdl env r = versionToPrint config r.version >>= fun version =>
      config.catalog (Sdl.ownCatalog placed.workspace placed.schema) >>= fun c =>
        Sdl.federationDocument placed.workspace placed.schema (some c) version := by
  rw [printedSdl, hconfig, ok_bind]
  cases versionToPrint config r.version with
  | ok version => rw [ok_bind, ok_bind, hlocate, ok_bind]
  | error f => rfl

/-- With a version and a catalog the document is that of the schema. -/
theorem printedSdl_of_prepares {v : Option Version} {c : Catalog}
    (hconfig : configOf env r.config = .ok config)
    (hlocate : locate env.modules r.location = .ok placed)
    (h : Prepares config placed r.version v c) :
    printedSdl env r = Sdl.federationDocument placed.workspace placed.schema (some c) v := by
  rw [printedSdl_eq hconfig hlocate, h.1, ok_bind, h.2, ok_bind]

/-- A document that is printed is that of the schema with the catalog at the version. -/
theorem printedSdl_eq_ok (hconfig : configOf env r.config = .ok config)
    (hlocate : locate env.modules r.location = .ok placed) {sdl : String}
    (h : printedSdl env r = .ok sdl) :
    ∃ version c, Prepares config placed r.version version c ∧
      Sdl.federationDocument placed.workspace placed.schema (some c) version = .ok sdl := by
  rw [printedSdl_eq hconfig hlocate] at h
  obtain ⟨version, hversion, h⟩ := bind_eq_ok.mp h
  obtain ⟨c, hc, h⟩ := bind_eq_ok.mp h
  exact ⟨version, c, ⟨hversion, hc⟩, h⟩

/-- **When printing fails in a way that is not reported.** -/
theorem printedSdl_not_reported_iff (hconfig : configOf env r.config = .ok config)
    (hlocate : locate env.modules r.location = .ok placed) :
    (∃ f, printedSdl env r = .error f ∧ f.isReported = false) ↔
      Unprintable config placed r.version := by
  have hversion : ∀ f, (versionToPrint config r.version = .error f ∧ f.isReported = false) ↔
      ∃ text m, r.version = some text ∧ f = .misuse m ∧ Version.Overlong (.text text) m := by
    intro f
    unfold versionToPrint
    cases r.version with
    | none => simp
    | some text =>
      simp only [map_eq_error, Version.parse_not_reported_iff, Option.some.injEq]
      constructor
      · rintro ⟨m, rfl, hm⟩
        exact ⟨text, m, rfl, rfl, hm⟩
      · rintro ⟨text', m, rfl, rfl, hm⟩
        exact ⟨m, rfl, hm⟩
  rw [printedSdl_eq hconfig hlocate]
  constructor
  · rintro ⟨f, h, hf⟩
    rcases bind_eq_error.mp h with h | ⟨version, hv, h⟩
    · obtain ⟨text, m, hgiven, -, hm⟩ := (hversion f).mp ⟨h, hf⟩
      exact Or.inl ⟨text, m, hgiven, hm⟩
    · rcases bind_eq_error.mp h with h | ⟨c, hc, h⟩
      · exact absurd (Config.catalog_reported h) (by simp [hf])
      · exact Or.inr ⟨version, c, ⟨hv, hc⟩, Sdl.documentAt_not_reported_iff.mp ⟨f, h, hf⟩⟩
  · rintro (⟨text, m, hgiven, hm⟩ | ⟨version, c, ⟨hv, hc⟩, hvalue⟩)
    · obtain ⟨h, hf⟩ := (hversion (.misuse m)).mpr ⟨text, m, hgiven, rfl, hm⟩
      exact ⟨.misuse m, by rw [h]; rfl, hf⟩
    · obtain ⟨f, h, hf⟩ := Sdl.documentAt_not_reported_iff.mpr hvalue
      refine ⟨f, ?_, hf⟩
      rw [hv, ok_bind, hc, ok_bind]
      exact h

/-- The directives of a version that are listed are those that the catalog imports at it. -/
theorem importedDirectives_eq_ok (hconfig : configOf env given = .ok config)
    {imports : Version × List Definition} (h : importedDirectives env version given = .ok imports) :
    ∃ v c, Version.parse (.text version) = .ok v ∧ config.catalog .standard = .ok c ∧
      imports = (v, c.eligible v) := by
  rw [importedDirectives, hconfig, ok_bind] at h
  obtain ⟨c, hc, h⟩ := bind_eq_ok.mp h
  obtain ⟨v, hv, h⟩ := bind_eq_ok.mp h
  exact ⟨v, c, hv, hc, (Except.ok.inj h).symm⟩

/-- **When listing directives fails in a way that is not reported**: the version is too long. -/
theorem importedDirectives_not_reported_iff (hconfig : configOf env given = .ok config) :
    (∃ f, importedDirectives env version given = .error f ∧ f.isReported = false) ↔
      (∃ c, config.catalog .standard = .ok c) ∧ ∃ m, Version.Overlong (.text version) m := by
  rw [importedDirectives, hconfig, ok_bind]
  constructor
  · rintro ⟨f, h, hf⟩
    rcases bind_eq_error.mp h with h | ⟨c, hc, h⟩
    · exact absurd (Config.catalog_reported h) (by simp [hf])
    · rcases bind_eq_error.mp h with h | ⟨v, -, h⟩
      · obtain ⟨m, -, hm⟩ := Version.parse_not_reported_iff.mp ⟨h, hf⟩
        exact ⟨⟨c, hc⟩, m, hm⟩
      · exact absurd h (by simp)
  · rintro ⟨⟨c, hc⟩, m, hm⟩
    obtain ⟨h, hf⟩ := Version.parse_not_reported_iff.mpr ⟨m, rfl, hm⟩
    refine ⟨.misuse m, ?_, hf⟩
    rw [hc, ok_bind, h]
    rfl

/-! ## Command lines -/

/-- A command line that makes up a request ends as the request does. -/
theorem run_of_ofWords {words : List String} {request : Request}
    (h : Request.ofWords words = .ok request) : run env words = request.run env := by
  rw [run, h]

/-- A version that does not start with a hyphen is the operand of a request for its directives. -/
theorem ofWords_directives (h : version.toList.head? ≠ some '-') :
    Request.ofWords ["directives", version] = .ok (.directives version none) := by
  have hmark : (version == "--") = false := by
    rw [beq_eq_false_iff_ne]
    rintro rfl
    exact h rfl
  have hword : classify Page.directives.options version = .ok (.operand version) := by
    simp [classify, h]
  have hgathered : gatherAll .directives [version] = .ok (version, { operand := some version }) := by
    simp [gatherAll, classifyAll, hmark, hword, gather, bind, Except.bind]
  have hcommand : classify Page.program.options "directives" = .ok (.operand "directives") := by rfl
  simp [Request.ofWords, Request.scan, Request.ofCommand, hcommand, hgathered, Gathered.get?, bind,
    Except.bind]

/-- **Which failures are reported.**

Let a configuration be found. A request for a schema that is found, without a file, ends with the whole
document on the output, or with the report of a failure and no output, or it lets a failure through; and
it does so iff the version that is given is too long, or the schema passes the checks and has a value that
cannot be written. A request for a list of directives ends likewise, and lets a failure through iff the
version is too long. -/
theorem run_reports (env : Environment) (words : List String) (config : Config) :
    (∀ r placed, Request.ofWords words = .ok (.print r) → r.output = none →
      configOf env r.config = .ok config → locate env.modules r.location = .ok placed →
      ((∃ version c sdl, Prepares config placed r.version version c ∧
          Sdl.federationDocument placed.workspace placed.schema (some c) version = .ok sdl ∧
            (run env words).Shows (sdl ++ "\n")) ∨
        (∃ f, f.isReported = true ∧ (run env words).Reports f) ∨
          ∃ f, f.isReported = false ∧ (run env words).LetsThrough f) ∧
      ((∃ f, (run env words).LetsThrough f) ↔ Unprintable config placed r.version)) ∧
    ∀ version given, Request.ofWords words = .ok (.directives version given) →
      configOf env given = .ok config →
      ((∃ v c, Version.parse (.text version) = .ok v ∧ config.catalog .standard = .ok c ∧
          (run env words).Shows (importText v (c.eligible v))) ∨
        (∃ f, f.isReported = true ∧ (run env words).Reports f) ∨
          ∃ f, f.isReported = false ∧ (run env words).LetsThrough f) ∧
      ((∃ f, (run env words).LetsThrough f) ↔
        (∃ c, config.catalog .standard = .ok c) ∧ ∃ m, Version.Overlong (.text version) m) := by
  constructor
  · intro r placed hwords houtput hconfig hlocate
    have htells : (run env words).Tells ((printedSdl env r).map (· ++ "\n")) := by
      rw [run_of_ofWords hwords]
      exact run_print_tells houtput
    constructor
    · rcases htells.ends with ⟨text, htext, hshows⟩ | hreported
      · obtain ⟨sdl, hsdl, rfl⟩ := map_eq_ok.mp htext
        obtain ⟨version, c, hprepares, hdocument⟩ := printedSdl_eq_ok hconfig hlocate hsdl
        exact Or.inl ⟨version, c, sdl, hprepares, hdocument, hshows⟩
      · exact Or.inr hreported
    · simp only [htells.letsThrough_iff, map_eq_error]
      exact printedSdl_not_reported_iff hconfig hlocate
  · intro version given hwords hconfig
    have htells : (run env words).Tells
        ((importedDirectives env version given).map fun imports => importText imports.1 imports.2) := by
      rw [run_of_ofWords hwords]
      exact run_directives_tells
    constructor
    · rcases htells.ends with ⟨text, htext, hshows⟩ | hreported
      · obtain ⟨imports, himports, rfl⟩ := map_eq_ok.mp htext
        obtain ⟨v, c, hv, hc, rfl⟩ := importedDirectives_eq_ok hconfig himports
        exact Or.inl ⟨v, c, hv, hc, hshows⟩
      · exact Or.inr hreported
    · simp only [htells.letsThrough_iff, map_eq_error]
      exact importedDirectives_not_reported_iff hconfig

/-- A workspace with a type whose directive has an argument that is not a number. -/
def notNumberWorkspace : Workspace where
  elements :=
    #[⟨.object, Workspace.standardCatalog, ⟨[⟨"tag", [⟨"name", .float .nan⟩]⟩], true⟩⟩]
  graph := ⟨(BuiltIn.types ++ [Sdl.rawType]).toArray⟩

/-- A module with the schema of that type. -/
def notNumberEnvironment : Environment where
  directory := "/work"
  modules := [("m", .making [("s", .schema (.ok ⟨notNumberWorkspace, Sdl.rawSchema⟩))])]

/-- The words that ask for that schema at a version that imports directives. -/
def notNumberWords : List String := ["print", "m:s", "--federation-version", "2.3"]

theorem notNumber_unprintable :
    Unprintable {} ⟨notNumberWorkspace, Sdl.rawSchema⟩ (some "2.3") := by
  have hattached : notNumberWorkspace.attached Sdl.rawSchema =
      [⟨"tag", [⟨"name", .float .nan⟩]⟩] := by rfl
  have hrejected : Sdl.Rejected notNumberWorkspace Sdl.rawSchema .standard ⟨[2, 3], "2.3"⟩
      (.notFiniteLiteral .nan) := by
    refine ⟨⟨"tag", [⟨"name", .float .nan⟩]⟩, ?_, by decide, ⟨"name", .float .nan⟩, by simp, by rfl⟩
    rw [hattached]
    exact List.mem_singleton.mpr rfl
  refine Or.inr ⟨some ⟨[2, 3], "2.3"⟩, .standard, ⟨by rfl, Config.catalog_of_none _⟩, ?_, ?_, ?_⟩
  · show Sdl.rawSchema.Resolved notNumberWorkspace.graph
    decide
  · show notNumberWorkspace.Known Sdl.rawSchema .standard
    decide
  · exact Or.inl ⟨by decide, _, hrejected⟩

/-- A version text with one digit more than a number may have. -/
def longVersion : String := String.ofList (List.replicate (Text.digitLimit + 1) '1')

theorem longVersion_overlong :
    Version.Overlong (.text longVersion) (.longNumeral (Text.digitLimit + 1)) := by
  have hdigits : Text.Digits (List.replicate (Text.digitLimit + 1) '1') := by
    intro c hc
    rw [List.eq_of_mem_replicate hc]
    rfl
  have hlong := Version.overlong_of_digits hdigits (by rw [List.length_replicate]; omega)
  rwa [List.length_replicate] at hlong

/-- `run_reports` at that schema, and at the directives of that version. -/
theorem run_reports_notNumber :
    Request.ofWords notNumberWords = .ok (.print ⟨"m:s", none, some "2.3", none⟩) ∧
      Request.ofWords ["directives", longVersion] = .ok (.directives longVersion none) ∧
      configOf notNumberEnvironment none = .ok {} ∧
      locate notNumberEnvironment.modules "m:s" = .ok ⟨notNumberWorkspace, Sdl.rawSchema⟩ ∧
      (∃ f, (run notNumberEnvironment notNumberWords).LetsThrough f) ∧
      ∃ f, (run notNumberEnvironment ["directives", longVersion]).LetsThrough f := by
  have hprint : Request.ofWords notNumberWords = .ok (.print ⟨"m:s", none, some "2.3", none⟩) := by rfl
  have hdirectives : Request.ofWords ["directives", longVersion] =
      .ok (.directives longVersion none) := ofWords_directives (by simp [longVersion, List.replicate])
  have hconfig : configOf notNumberEnvironment none = .ok {} := by rfl
  have hlocate : locate notNumberEnvironment.modules "m:s" =
      .ok ⟨notNumberWorkspace, Sdl.rawSchema⟩ := by rfl
  refine ⟨hprint, hdirectives, hconfig, hlocate, ?_, ?_⟩
  · obtain ⟨-, hthrough⟩ := (run_reports notNumberEnvironment notNumberWords {}).1 _ _ hprint rfl
      hconfig hlocate
    exact hthrough.mpr notNumber_unprintable
  · obtain ⟨-, hthrough⟩ := (run_reports notNumberEnvironment ["directives", longVersion] {}).2 _ _
      hdirectives hconfig
    exact hthrough.mpr ⟨⟨_, Config.catalog_of_none _⟩, _, longVersion_overlong⟩

end CommandLine
end Subgraph
