import Subgraph.Value.Render

/-!
# Problems of a configuration

Why a configuration file is refused. A problem knows the place where it was found; `Problem.message`
words it.
-/

namespace Subgraph.Config

/-- Where a problem was found: the file, an entry of its list of directives, or an entry whose name
is known. -/
inductive Place where
  | file (source : String)
  | entry (source : String) (index : Nat)
  | named (source : String) (index : Nat) (name : String)
  deriving DecidableEq, Repr

/-- The place in words. -/
def Place.text : Place → String
  | .file source => source
  | .entry source index => source ++ ": directives[" ++ toString index ++ "]"
  | .named source index name => source ++ ": directives[" ++ toString index ++ "] '" ++ name ++ "'"

/-- Why a configuration is refused. -/
inductive Problem where
  /-- No file at the path. -/
  | missingFile (path : String)
  /-- The file cannot be read; the reason is that of the file system. -/
  | unreadableFile (reason : String)
  /-- The text is no YAML document. -/
  | invalidYaml (source : String)
  /-- The document is no mapping. -/
  | notMapping (place : Place)
  /-- The list of directives is no list. -/
  | directivesNotList (place : Place)
  /-- A version is neither a number nor a text. -/
  | versionKind (place : Place) (key : String)
  /-- A number or text is no version. -/
  | versionText (place : Place) (key : String) (value : Value)
  /-- A required field is absent. -/
  | missingField (place : Place) (key : String)
  /-- A field is no text. -/
  | notText (place : Place) (key : String)
  /-- The locations are no list of texts. -/
  | locationsKind (place : Place)
  /-- A text names no location. -/
  | unknownLocation (place : Place) (raw : String)
  /-- The mark for repeatable directives is no truth value. -/
  | repeatableKind (place : Place)
  /-- A configured directive is registered already. -/
  | alreadyRegistered (name : String)

/-- The problem in words. -/
def Problem.message : Problem → String
  | .missingFile path => "Federation config file not found: " ++ path
  | .unreadableFile reason => "Cannot read federation config file: " ++ reason
  | .invalidYaml source => "Invalid YAML in " ++ source
  | .notMapping place =>
    match place with
    | .file source => source ++ ": federation config must be a YAML mapping"
    | place => place.text ++ " must be a YAML mapping"
  | .directivesNotList place => place.text ++ ": 'directives' must be a list"
  | .versionKind place key => place.text ++ ": '" ++ key ++ "' must be a version number or string"
  | .versionText place key value =>
    place.text ++ ": '" ++ key ++ "': Invalid federation version: " ++ value.render
  | .missingField place key => place.text ++ ": missing required field '" ++ key ++ "'"
  | .notText place key => place.text ++ ": '" ++ key ++ "' must be a string"
  | .locationsKind place => place.text ++ ": 'locations' must be a list of strings"
  | .unknownLocation place raw => place.text ++ ": unknown directive location '" ++ raw ++ "'"
  | .repeatableKind place => place.text ++ ": 'repeatable' must be a boolean"
  | .alreadyRegistered name => "Directive '@" ++ name ++ "' is already registered"

end Subgraph.Config
