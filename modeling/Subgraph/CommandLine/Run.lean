import Subgraph.CommandLine.Modules
import Subgraph.CommandLine.Request
import Subgraph.Config.File
import Subgraph.Sdl.Document

/-!
# Runs of the command line

A run carries out the request of a command line in an environment and ends with an exit code or with a
failure that is not reported. A request goes through stages, the first of which to fail decides.

Contents

* `Environment` — what a run finds;
* `configOf` — the configuration, the first stage of every request;
* `printedSdl`, `importedDirectives` — the two requests;
* `Outcome`, `run` — what a run leaves.
-/

namespace Subgraph.CommandLine

/-- What a run finds: the working directory, its files, and modules. -/
structure Environment where
  /-- The working directory as it is shown. -/
  directory : String
  files : FileTree := {}
  modules : Modules := []

/-! ## Stages -/

/-- The name of the configuration file in the working directory. -/
def defaultConfigName : String := "federation.yaml"

/-- The configuration: that of the given file, or that of the working directory, or none. -/
def configOf (env : Environment) (given : Option String) : Except Failure Config :=
  match given with
  | some path => Config.load env.files (Path.ofText path)
  | none =>
    let path := Path.ofParts [defaultConfigName]
    if env.files.hasAt path then
      Config.ofFile env.files path (env.directory ++ "/" ++ defaultConfigName)
    else .ok {}

/-- The version to print at: the given one, or else that of the configuration. -/
def versionToPrint (config : Config) (given : Option String) : Except Failure (Option Version) :=
  match given with
  | some text => (Version.parse (.text text)).map some
  | none => .ok config.version

/-- The document of a schema that is to be printed. -/
def printedSdl (env : Environment) (r : PrintRequest) : Except Failure String := do
  let config ← configOf env r.config
  let version ← versionToPrint config r.version
  let s ← locate env.modules r.location
  let catalog ← config.catalog (Sdl.ownCatalog s.workspace s.schema)
  Sdl.federationDocument s.workspace s.schema (some catalog) version

/-- The version that directives are listed for, and those that it imports. -/
def importedDirectives (env : Environment) (version : String) (config : Option String) :
    Except Failure (Version × List Definition) := do
  let config ← configOf env config
  let catalog ← config.catalog Catalog.standard
  let v ← Version.parse (.text version)
  .ok (v, catalog.eligible v)

/-- The lines that tell which directives a version imports. -/
def importLines (v : Version) (ds : List Definition) : List String :=
  if ds.isEmpty then ["No directives are imported at federation version " ++ v.text ++ "."]
  else ds.map fun d => "@" ++ d.name

/-! ## Outcomes -/

/-- How a run ends: with an exit code, or with a failure that is not reported. -/
inductive Ending where
  | exit (code : Nat)
  | failure (f : Failure)

/-- What a run leaves: its ending, what it has written to its two streams, and the files. A file that
it has written is named besides, with its text. -/
structure Outcome where
  ending : Ending
  output : String := ""
  errors : String := ""
  files : FileTree
  written : Option (Path × String) := none

/-- The outcome of a failure: a report of it, or the failure itself. -/
def failed (env : Environment) (f : Failure) : Outcome :=
  if f.isReported then
    { ending := .exit 1, errors := "Error: " ++ f.message ++ "\n", files := env.files }
  else { ending := .failure f, files := env.files }

/-- The outcome of a text that is shown. -/
def shown (env : Environment) (text : String) : Outcome :=
  { ending := .exit 0, output := text, files := env.files }

/-- The outcome of a text that is written to a file. -/
def delivered (env : Environment) (path : Path) (text : String) : Outcome :=
  match env.files.deliver path text with
  | .error f => { ending := .failure (.file f path.text), files := env.files }
  | .ok files =>
    { ending := .exit 0
      output := "Wrote federation SDL to '" ++ path.text ++ "'.\n"
      files := files
      written := some (path, text) }

/-- The outcome of a command line that is not carried out. -/
def stopped (env : Environment) : Stop → Outcome
  | .help page => shown env page.help
  | .usage page fault =>
    { ending := .exit 2
      errors := page.usage ++ page.title ++ ": error: " ++ fault.message ++ "\n"
      files := env.files }
  | .failure f => { ending := .failure f, files := env.files }

/-- The outcome of a request. -/
def Request.run (env : Environment) : Request → Outcome
  | .print r =>
    match printedSdl env r with
    | .error f => failed env f
    | .ok sdl =>
      match r.output with
      | none => shown env (sdl ++ "\n")
      | some path => delivered env (Path.ofText path) (sdl ++ "\n")
  | .directives version config =>
    match importedDirectives env version config with
    | .error f => failed env f
    | .ok (v, ds) => shown env (String.join ((importLines v ds).map (· ++ "\n")))

/-- The outcome of a command line. -/
def run (env : Environment) (words : List String) : Outcome :=
  match Request.ofWords words with
  | .error stop => stopped env stop
  | .ok r => r.run env

end Subgraph.CommandLine
