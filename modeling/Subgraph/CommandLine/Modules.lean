import Subgraph.Schema.Basic

/-!
# Modules

A schema is found under a location `MODULE:ATTRIBUTE`. Modules are known by their names; one whose
name has dots needs the modules of its first parts besides. Importing a module makes its attributes in
their order, and fails with the first that cannot be made. An attribute may be a factory, which makes
a schema when it is asked for one.

Contents

* `PlacedSchema`, `Attribute`, `Module` — what a module may have;
* `Module.load`, `importModule` — importing;
* `splitLocation?`, `locate` — the schema of a location.
-/

namespace Subgraph

/-- A schema and the workspace that its types and elements are in. -/
structure PlacedSchema where
  workspace : Workspace
  schema : Schema
  deriving Inhabited

namespace CommandLine

/-- What a name of a module stands for: a schema, which is built on import, a factory, which builds
one on demand, or anything else. A factory may also make something that is no schema. -/
inductive Attribute where
  | schema (built : Except Failure PlacedSchema)
  | factory (made : Except Failure (Option PlacedSchema))
  | other

/-- What importing a module does: it fails, or makes attributes. -/
inductive Module where
  | failing (f : Failure)
  | making (attributes : List (String × Attribute))

/-- The modules that can be imported, by name. -/
abbrev Modules := List (String × Module)

/-! ## Importing -/

/-- The first attribute that cannot be made. -/
def firstFailure? : List (String × Attribute) → Option Failure
  | [] => none
  | (_, .schema (.error f)) :: _ => some f
  | _ :: rest => firstFailure? rest

/-- The names that every module has, none of which stands for a schema. -/
def commonNames : List String :=
  ["__name__", "__doc__", "__package__", "__loader__", "__spec__", "__dict__"]

/-- The attributes of a module, the one that counts for a name first. -/
def Module.load : Module → Except Failure (List (String × Attribute))
  | .failing f => .error f
  | .making attributes =>
    match firstFailure? attributes with
    | some f => .error f
    | none => .ok (attributes.reverse ++ commonNames.map (·, .other))

/-- The names of the modules that have to be imported for a name: those of its first parts, and its
own. -/
def namesUpTo (name : String) : List String :=
  let parts := name.toList.splitOn '.'
  (List.range parts.length).map fun n => String.ofList (['.'].intercalate (parts.take (n + 1)))

/-- Whether a module is a package: there are modules below it. -/
def isPackage (ms : Modules) (name : String) : Bool :=
  ms.any fun m => (name ++ ".").toList.isPrefixOf m.1.toList

/-- The failure of importing a module that is not there, below one that has been imported, if it is
to be found below one. -/
def missingModule (ms : Modules) (above : Option String) (name : String) : Failure :=
  let text := "No module named " ++ Text.quoted name
  match above with
  | some package =>
    if isPackage ms package then .foreign .moduleMissing text
    else .foreign .moduleMissing (text ++ "; " ++ Text.quoted package ++ " is not a package")
  | none => .foreign .moduleMissing text

/-- The attributes of the last of several modules, each below the one before it. -/
def importAll (ms : Modules) : (above : Option (String × List (String × Attribute))) →
    List String → Except Failure (List (String × Attribute))
  | above, [] => .ok ((above.map (·.2)).getD [])
  | above, name :: names =>
    match ms.lookup name with
    | none => .error (missingModule ms (above.map (·.1)) name)
    | some m =>
      match m.load with
      | .error f => .error f
      | .ok loaded => importAll ms (some (name, loaded)) names

/-- The attributes of the module of a name. A name that starts with a dot is one within a package,
and there is none. -/
def importModule (ms : Modules) (name : String) : Except Failure (List (String × Attribute)) :=
  if name.toList.head? == some '.' then
    .error (.foreign .type ("the 'package' argument is required to perform a relative import for " ++
      Text.quoted name))
  else importAll ms none (namesUpTo name)

/-! ## Locations -/

/-- The module and the attribute of a location, which is cut at its first colon. -/
def splitLocation? (location : String) : Option (String × String) :=
  let cs := location.toList
  match cs.takeWhile (· != ':'), cs.dropWhile (· != ':') with
  | m :: ms, _ :: a :: as => some (String.ofList (m :: ms), String.ofList (a :: as))
  | _, _ => none

/-- The failure of finding a schema. -/
abbrev notFound {α : Type} (f : LocatingFault) : Except Failure α := .error (.locating f)

/-- The failure of an import as it is reported: failures that are reported anyway stay. -/
def importFailure (module : String) (f : Failure) : Failure :=
  if f.isImport then .locating (.notImportable module f.message)
  else if f.isReported then f
  else .locating (.importFailed module f.render)

/-- The failure of a factory as it is reported: failures that are reported anyway stay. -/
def factoryFailure (location : String) (f : Failure) : Failure :=
  if f.isReported then f else .locating (.factoryFailed location f.render)

/-- The schema of an attribute. -/
def schemaOf (location : String) : Attribute → Except Failure PlacedSchema
  | .schema built => built
  | .factory (.ok (some s)) => .ok s
  | .factory (.error f) => .error (factoryFailure location f)
  | .factory (.ok none) | .other => notFound (.notSchema location)

/-- The schema of a location. -/
def locate (ms : Modules) (location : String) : Except Failure PlacedSchema :=
  match splitLocation? location with
  | none => notFound (.badLocation location)
  | some (module, name) =>
    match importModule ms module with
    | .error f => .error (importFailure module f)
    | .ok attributes =>
      match attributes.lookup name with
      | none => notFound (.noAttribute module name)
      | some a => schemaOf location a

end CommandLine

end Subgraph
