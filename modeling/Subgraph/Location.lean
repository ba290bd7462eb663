/-!
# Directive locations

The places of a document at which a directive may stand. Those from `schemaDefinition` on belong to
type definitions; every kind of element of a schema has one of them.

Contents

* `Location` — the places;
* `Location.name`, `Location.all`, `Location.ofName?` — their names, with `ofName?_name`.
-/

namespace Subgraph

/-- A place at which a directive may stand. -/
inductive Location where
  | query
  | mutation
  | subscription
  | field
  | fragmentDefinition
  | fragmentSpread
  | variableDefinition
  | inlineFragment
  | schemaDefinition
  | scalar
  | object
  | fieldDefinition
  | argumentDefinition
  | interface
  | union
  | enum
  | enumValue
  | inputObject
  | inputFieldDefinition
  | directiveDefinition
  deriving DecidableEq, Repr

namespace Location

/-- The name of a place in a document. -/
def name : Location → String
  | query => "QUERY"
  | mutation => "MUTATION"
  | subscription => "SUBSCRIPTION"
  | field => "FIELD"
  | fragmentDefinition => "FRAGMENT_DEFINITION"
  | fragmentSpread => "FRAGMENT_SPREAD"
  | variableDefinition => "VARIABLE_DEFINITION"
  | inlineFragment => "INLINE_FRAGMENT"
  | schemaDefinition => "SCHEMA"
  | scalar => "SCALAR"
  | object => "OBJECT"
  | fieldDefinition => "FIELD_DEFINITION"
  | argumentDefinition => "ARGUMENT_DEFINITION"
  | interface => "INTERFACE"
  | union => "UNION"
  | enum => "ENUM"
  | enumValue => "ENUM_VALUE"
  | inputObject => "INPUT_OBJECT"
  | inputFieldDefinition => "INPUT_FIELD_DEFINITION"
  | directiveDefinition => "DIRECTIVE_DEFINITION"

/-- All places. -/
def all : List Location :=
  [query, mutation, subscription, field, fragmentDefinition, fragmentSpread, variableDefinition,
    inlineFragment, schemaDefinition, scalar, object, fieldDefinition, argumentDefinition, interface,
    union, enum, enumValue, inputObject, inputFieldDefinition, directiveDefinition]

/-- The place of a name. -/
def ofName? (s : String) : Option Location := all.find? fun l => l.name == s

/-- A place is found under its name. -/
theorem ofName?_name (l : Location) : ofName? l.name = some l := by
  cases l <;> decide +kernel

/-- What is found under a name has that name. -/
theorem name_of_ofName? {s : String} {l : Location} (h : ofName? s = some l) : l.name = s := by
  simpa using List.find?_some h

end Location

end Subgraph
