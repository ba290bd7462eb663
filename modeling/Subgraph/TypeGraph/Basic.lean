import Subgraph.Location
import Subgraph.Value.Basic

/-!
# Type graphs

The types of a schema refer to one another, in cycles as well, so a type refers to another by its
index in the graph. A part of a type that can carry directives holds the index of its annotations,
which live elsewhere: they may change while the graph stays. A part without such an index carries
none.

Contents

* `TypeRef` — a type under list and non-null wrappers;
* `InputValue`, `Field`, `EnumValue`, `TypeBody`, `TypeDef` — types and their parts;
* `TypeGraph` — the types by index, the built-in ones first;
* `TypeDef.parts`, `TypeDef.part?` — a type and its parts, in document order, and one by its path;
* `TypeDef.referenced` — the types a type refers to.
-/

namespace Subgraph

/-- The index of a type in its graph. -/
abbrev TypeId := Nat

/-- The index of the annotations of an element. -/
abbrev ElementId := Nat

/-- A type under list and non-null wrappers. -/
inductive TypeRef where
  | named (id : TypeId)
  | list (of : TypeRef)
  | nonNull (of : TypeRef)
  deriving DecidableEq, Repr, Inhabited

/-- The type below all wrappers. -/
def TypeRef.base : TypeRef → TypeId
  | named id => id
  | list of => of.base
  | nonNull of => of.base

/-- An argument of a field or a directive, or a field of an input object. -/
structure InputValue where
  name : String
  type : TypeRef
  default : Option Value := none
  description : Option String := none
  deprecation : Option String := none
  element : Option ElementId := none
  deriving Inhabited

/-- A field of an object or an interface. -/
structure Field where
  name : String
  type : TypeRef
  arguments : List InputValue := []
  description : Option String := none
  deprecation : Option String := none
  element : Option ElementId := none
  deriving Inhabited

/-- A value of an enumeration, with the internal value it stands for. -/
structure EnumValue where
  name : String
  value : Value := .null
  description : Option String := none
  deprecation : Option String := none
  element : Option ElementId := none
  deriving Inhabited

/-- What is particular to the kind of a type. -/
inductive TypeBody where
  | scalar (specifiedBy : Option String)
  | object (interfaces : List TypeId) (fields : List Field)
  | interface (interfaces : List TypeId) (fields : List Field)
  | union (members : List TypeId)
  | enum (values : List EnumValue)
  | inputObject (oneOf : Bool) (fields : List InputValue)
  deriving Inhabited

/-- A type. -/
structure TypeDef where
  name : String
  body : TypeBody
  description : Option String := none
  element : Option ElementId := none
  deriving Inhabited

/-! ## Kinds -/

namespace TypeBody

/-- The place at which a directive of the type itself stands. -/
def location : TypeBody → Location
  | scalar _ => .scalar
  | object _ _ => .object
  | interface _ _ => .interface
  | union _ => .union
  | enum _ => .enum
  | inputObject _ _ => .inputObject

/-- Whether a field may have this type. -/
def isOutput : TypeBody → Bool
  | inputObject _ _ => false
  | _ => true

/-- Whether an argument or an input field may have this type. -/
def isInput : TypeBody → Bool
  | scalar _ | enum _ | inputObject _ _ => true
  | _ => false

/-- Whether a type may implement this type. -/
def isInterface : TypeBody → Bool
  | interface _ _ => true
  | _ => false

/-- Whether this type may be a member of a union. -/
def isObject : TypeBody → Bool
  | object _ _ => true
  | _ => false

/-- The fields of an object or an interface. -/
def fields : TypeBody → List Field
  | object _ fields | interface _ fields => fields
  | _ => []

/-- The fields of an input object. -/
def inputFields : TypeBody → List InputValue
  | inputObject _ fields => fields
  | _ => []

/-- The interfaces of an object or an interface. -/
def interfaces : TypeBody → List TypeId
  | object interfaces _ | interface interfaces _ => interfaces
  | _ => []

/-- The members of a union. -/
def members : TypeBody → List TypeId
  | union members => members
  | _ => []

/-- The values of an enumeration. -/
def values : TypeBody → List EnumValue
  | enum values => values
  | _ => []

end TypeBody

/-! ## Parts -/

/-- A part of a type at which directives may stand. -/
structure Part where
  location : Location
  element : Option ElementId
  deriving DecidableEq, Repr

/-- An argument of a field as a part. -/
def InputValue.argumentPart (a : InputValue) : Part := ⟨.argumentDefinition, a.element⟩

/-- A field of an input object as a part. -/
def InputValue.fieldPart (a : InputValue) : Part := ⟨.inputFieldDefinition, a.element⟩

/-- A value of an enumeration as a part. -/
def EnumValue.part (v : EnumValue) : Part := ⟨.enumValue, v.element⟩

/-- A field and its arguments. -/
def Field.parts (f : Field) : List Part :=
  ⟨.fieldDefinition, f.element⟩ :: f.arguments.map InputValue.argumentPart

/-- The parts of the body of a type, in document order. -/
def TypeBody.parts : TypeBody → List Part
  | object _ fields | interface _ fields => fields.flatMap Field.parts
  | enum values => values.map EnumValue.part
  | inputObject _ fields => fields.map InputValue.fieldPart
  | scalar _ | union _ => []

/-- A type and its parts, in document order. -/
def TypeDef.parts (t : TypeDef) : List Part := ⟨t.body.location, t.element⟩ :: t.body.parts

/-- The part of a type at a path: the type itself, one of its fields or enum values, or an argument of
a field. -/
def TypeDef.part? (t : TypeDef) : List String → Option Part
  | [] => some ⟨t.body.location, t.element⟩
  | [name] =>
    ((t.body.fields.find? fun f => f.name == name).map fun f =>
        (⟨.fieldDefinition, f.element⟩ : Part)).or <|
      ((t.body.inputFields.find? fun f => f.name == name).map InputValue.fieldPart).or <|
        (t.body.values.find? fun v => v.name == name).map EnumValue.part
  | [name, argument] => do
    let f ← t.body.fields.find? fun f => f.name == name
    let a ← f.arguments.find? fun a => a.name == argument
    some a.argumentPart
  | _ => none

/-! ## References -/

/-- The types that a field refers to: its own, then those of its arguments. -/
def Field.referenced (f : Field) : List TypeId :=
  f.type.base :: f.arguments.map fun a => a.type.base

/-- The types that a type refers to: its interfaces, then field by field; its members; or those of
its input fields. -/
def TypeDef.referenced (t : TypeDef) : List TypeId :=
  match t.body with
  | .object interfaces fields | .interface interfaces fields =>
    interfaces ++ fields.flatMap Field.referenced
  | .union members => members
  | .inputObject _ fields => fields.map fun f => f.type.base
  | .scalar _ | .enum _ => []

/-! ## Built-in types -/

namespace BuiltIn

/-- The names of the built-in scalars, in the order of their indices. -/
def scalarNames : List String := ["String", "Int", "Float", "Boolean", "ID"]

/-- The index of the built-in texts. -/
def string : TypeId := 0

/-- The index of the built-in 32-bit integers. -/
def int : TypeId := 1

/-- The index of the built-in floating-point numbers. -/
def float : TypeId := 2

/-- The index of the built-in truth values. -/
def boolean : TypeId := 3

/-- The index of the built-in identifiers. -/
def id : TypeId := 4

/-- The names of the types by which a schema describes itself, in the order of their indices. -/
def introspectionNames : List String :=
  ["__Schema", "__Directive", "__DirectiveLocation", "__Type", "__Field", "__InputValue",
    "__EnumValue", "__TypeKind"]

/-- The index of the type that describes a schema. -/
def schema : TypeId := 5

/-- All reserved names. -/
def names : List String := scalarNames ++ introspectionNames

/-- A field without arguments. -/
private def plainField (name : String) (type : TypeRef) : Field := ⟨name, type, [], none, none, none⟩

/-- A non-null list of non-null items. -/
private def listOf (id : TypeId) : TypeRef := .nonNull (.list (.nonNull (.named id)))

/-- A field with the argument that asks for deprecated parts as well. -/
private def deprecableField (name : String) (type : TypeRef) : Field :=
  ⟨name, type, [⟨"includeDeprecated", .named boolean, some (.bool false), none, none, none⟩],
    none, none, none⟩

/-- Objects by which a schema describes itself. -/
private def objectOf (name : String) (fields : List Field) : TypeDef :=
  ⟨name, .object [] fields, none, none⟩

/-- Enumerations by which a schema describes itself. -/
private def enumOf (name : String) (values : List String) : TypeDef :=
  ⟨name, .enum (values.map fun v => ⟨v, .text v, none, none, none⟩), none, none⟩

/-- The types by which a schema describes itself. -/
def introspection : List TypeDef :=
  [objectOf "__Schema"
      [plainField "description" (.named string), plainField "types" (listOf 8),
        plainField "queryType" (.nonNull (.named 8)), plainField "mutationType" (.named 8),
        plainField "subscriptionType" (.named 8), plainField "directives" (listOf 6)],
    objectOf "__Directive"
      [plainField "name" (.nonNull (.named string)), plainField "description" (.named string),
        plainField "isRepeatable" (.nonNull (.named boolean)), plainField "locations" (listOf 7),
        deprecableField "args" (listOf 10)],
    enumOf "__DirectiveLocation"
      ["QUERY", "MUTATION", "SUBSCRIPTION", "FIELD", "FRAGMENT_DEFINITION", "FRAGMENT_SPREAD",
        "INLINE_FRAGMENT", "VARIABLE_DEFINITION", "SCHEMA", "SCALAR", "OBJECT", "FIELD_DEFINITION",
        "ARGUMENT_DEFINITION", "INTERFACE", "UNION", "ENUM", "ENUM_VALUE", "INPUT_OBJECT",
        "INPUT_FIELD_DEFINITION"],
    objectOf "__Type"
      [plainField "kind" (.nonNull (.named 12)), plainField "name" (.named string),
        plainField "description" (.named string), plainField "specifiedByURL" (.named string),
        deprecableField "fields" (.list (.nonNull (.named 9))),
        plainField "interfaces" (.list (.nonNull (.named 8))),
        plainField "possibleTypes" (.list (.nonNull (.named 8))),
        deprecableField "enumValues" (.list (.nonNull (.named 11))),
        deprecableField "inputFields" (.list (.nonNull (.named 10))),
        plainField "ofType" (.named 8), plainField "isOneOf" (.named boolean)],
    objectOf "__Field"
      [plainField "name" (.nonNull (.named string)), plainField "description" (.named string),
        deprecableField "args" (listOf 10), plainField "type" (.nonNull (.named 8)),
        plainField "isDeprecated" (.nonNull (.named boolean)),
        plainField "deprecationReason" (.named string)],
    objectOf "__InputValue"
      [plainField "name" (.nonNull (.named string)), plainField "description" (.named string),
        plainField "type" (.nonNull (.named 8)), plainField "defaultValue" (.named string),
        plainField "isDeprecated" (.nonNull (.named boolean)),
        plainField "deprecationReason" (.named string)],
    objectOf "__EnumValue"
      [plainField "name" (.nonNull (.named string)), plainField "description" (.named string),
        plainField "isDeprecated" (.nonNull (.named boolean)),
        plainField "deprecationReason" (.named string)],
    enumOf "__TypeKind"
      ["SCALAR", "OBJECT", "INTERFACE", "UNION", "ENUM", "INPUT_OBJECT", "LIST", "NON_NULL"]]

/-- The built-in types, in the order of their indices. -/
def types : List TypeDef :=
  scalarNames.map (fun name => ⟨name, .scalar none, none, none⟩) ++ introspection

end BuiltIn

/-- Whether a type is one of the user's, which a document states. -/
def TypeDef.isDefined (t : TypeDef) : Bool := !BuiltIn.names.contains t.name

/-! ## Graphs -/

/-- Types by index. -/
structure TypeGraph where
  types : Array TypeDef := BuiltIn.types.toArray

namespace TypeGraph

instance : Inhabited TypeGraph := ⟨{}⟩

/-- The type of an index. -/
def type? (g : TypeGraph) (id : TypeId) : Option TypeDef := g.types[id]?

/-- The name of the type of an index. -/
def nameOf (g : TypeGraph) (id : TypeId) : String := ((g.type? id).map (·.name)).getD ""

/-- Whether the type of an index satisfies a property of bodies. -/
def holds (g : TypeGraph) (p : TypeBody → Bool) (id : TypeId) : Bool :=
  (g.type? id).any fun t => p t.body

/-- The text of a reference, with the marks of its wrappers. -/
def refText (g : TypeGraph) : TypeRef → String
  | .named id => g.nameOf id
  | .list of => "[" ++ g.refText of ++ "]"
  | .nonNull of => g.refText of ++ "!"

end TypeGraph

end Subgraph
