import Subgraph.Config.Basic
import Subgraph.Text.Capital
import Subgraph.Yaml.Value

/-!
# Reading configurations

A configuration is a YAML mapping. Under `federation-version` it may have a version, and under
`directives` a list of mappings, each of which defines a directive by `name`, `min-version`,
`locations` and `repeatable`. Other keys are disregarded. The first problem in this order is the one
that is reported.

Contents

* `field?` — the value under a key of a mapping;
* `versionOf`, `requiredText`, `locationsOf`, `repeatableOf` — the fields;
* `definitionOf`, `definitionsOf` — an entry, and the list of all;
* `Config.ofValue`, `Config.ofText` — the configuration of a value and of a text.
-/

namespace Subgraph.Config

/-- What is under the keys of a mapping. -/
abbrev Fields := List (String × Yaml.Value)

/-- The value under a key. -/
def field? (fields : Fields) (key : String) : Option Yaml.Value := fields.lookup key

/-- The failure that is a problem of the configuration. -/
abbrev reject {α : Type} (p : Problem) : Except Failure α := .error (.configuration p)

/-! ## Fields -/

/-- What a version may be read from: a number or a text. -/
def versionSource? : Yaml.Value → Option Value
  | .int n => some (.int n)
  | .float x => some (.float x)
  | .text s => some (.text s)
  | _ => none

/-- The version that a value writes. -/
def versionOf (place : Place) (key : String) (v : Yaml.Value) : Except Failure Version :=
  match versionSource? v with
  | none => reject (.versionKind place key)
  | some source =>
    match Version.parse source with
    | .ok version => .ok version
    | .error (.invalidVersion value) => reject (.versionText place key value)
    | .error f => .error f

/-- The text under a key, which must be there. -/
def requiredText (place : Place) (key : String) (fields : Fields) : Except Failure String :=
  match field? fields key with
  | none => reject (.missingField place key)
  | some (.text s) => .ok s
  | some _ => reject (.notText place key)

/-- The version under a key, which must be there. -/
def requiredVersion (place : Place) (key : String) (fields : Fields) : Except Failure Version :=
  match field? fields key with
  | none => reject (.missingField place key)
  | some v => versionOf place key v

/-- A name without the sign that directives are applied with, if it starts with one. -/
def bareName (name : String) : String :=
  match name.toList with
  | '@' :: cs => String.ofList cs
  | _ => name

/-- The texts of a list of texts. -/
def texts? : List Yaml.Value → Option (List String)
  | [] => some []
  | .text s :: vs => (texts? vs).map (s :: ·)
  | _ :: _ => none

/-- The places that texts name, in any case. -/
def placesOf (place : Place) : List String → Except Failure (List Location)
  | [] => .ok []
  | raw :: raws =>
    match Location.ofName? (Text.capitals raw) with
    | none => reject (.unknownLocation place raw)
    | some l => (placesOf place raws).map (l :: ·)

/-- The places of a directive; none where they are left out. -/
def locationsOf (place : Place) : Option Yaml.Value → Except Failure (List Location)
  | none => .ok []
  | some (.list items) =>
    match texts? items with
    | none => reject (.locationsKind place)
    | some raws => (placesOf place raws).map List.eraseDups
  | some _ => reject (.locationsKind place)

/-- Whether a directive is repeatable; it is not where that is left out. -/
def repeatableOf (place : Place) : Option Yaml.Value → Except Failure Bool
  | none => .ok false
  | some (.bool b) => .ok b
  | some _ => reject (.repeatableKind place)

/-! ## Entries -/

/-- The definition that the entry at an index writes. -/
def definitionOf (source : String) (index : Nat) : Yaml.Value → Except Failure Definition
  | .mapping fields => do
    let written ← requiredText (.entry source index) "name" fields
    let name := bareName written
    let place := Place.named source index name
    let minVersion ← requiredVersion place "min-version" fields
    let locations ← locationsOf place (field? fields "locations")
    let repeatable ← repeatableOf place (field? fields "repeatable")
    .ok ⟨name, minVersion, locations, repeatable⟩
  | _ => reject (.notMapping (.entry source index))

/-- The definitions of a list of entries, the first of which has the given index. -/
def definitionsOf (source : String) : (index : Nat) → List Yaml.Value →
    Except Failure (List Definition)
  | _, [] => .ok []
  | index, v :: vs => do
    let d ← definitionOf source index v
    let ds ← definitionsOf source (index + 1) vs
    .ok (d :: ds)

/-! ## Configurations -/

/-- The version of a configuration, if it has one. -/
def fixedVersion (source : String) : Option Yaml.Value → Except Failure (Option Version)
  | none => .ok none
  | some v => (versionOf (.file source) "federation-version" v).map some

/-- The definitions of a configuration. -/
def addedDirectives (source : String) : Option Yaml.Value → Except Failure (List Definition)
  | none => .ok []
  | some (.list entries) => definitionsOf source 0 entries
  | some _ => reject (.directivesNotList (.file source))

/-- The configuration that a value writes; nothing at all is the one without any settings. -/
def ofValue (source : String) : Yaml.Value → Except Failure Config
  | .null => .ok {}
  | .mapping fields => do
    let version ← fixedVersion source (field? fields "federation-version")
    let directives ← addedDirectives source (field? fields "directives")
    .ok ⟨version, directives⟩
  | _ => reject (.notMapping (.file source))

/-- The failure of a text that has no value. -/
def failureOf (source : String) : Yaml.Fault → Failure
  | .malformed => .configuration (.invalidYaml source)
  | .misuse m => .misuse m
  | .missingKey key => .missingKey key

/-- How deep a configuration is gone into: the mapping, its list, an entry, a field, and an item. -/
def depth : Nat := 5

/-- The configuration that a text writes. -/
def ofText (source text : String) : Except Failure Config :=
  match Yaml.load depth text with
  | .ok v => ofValue source v
  | .error f => .error (failureOf source f)

end Subgraph.Config
