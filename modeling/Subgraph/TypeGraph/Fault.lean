import Subgraph.Value.Render

/-!
# Faults of a type graph

Why a type, one of its elements or a schema cannot be made, or a default value has no literal. Each
fault is one of two classes: a breach of the rules of the schema language, or a misuse of a kind.
-/

namespace Subgraph.TypeGraph

/-- What a built-in scalar cannot represent. -/
inductive Unrepresentable where
  | wholeNumber
  | smallNumber
  | number
  | string
  | truth
  | identifier
  /-- A value that is none of the internal values of an enumeration. -/
  | member (enumeration : String)

/-- The statement in words, up to the value. -/
def Unrepresentable.text : Unrepresentable → String
  | .wholeNumber => "Int cannot represent non-integer value: "
  | .smallNumber => "Int cannot represent non 32-bit signed integer value: "
  | .number => "Float cannot represent non numeric value: "
  | .string => "String cannot represent value: "
  | .truth => "Boolean cannot represent a non boolean value: "
  | .identifier => "ID cannot represent value: "
  | .member enumeration => "Enum '" ++ enumeration ++ "' cannot represent value: "

/-- Why a part of a type graph cannot be made or written. -/
inductive Fault where
  | emptyName
  | nameCharacters (name : String)
  | nameStart (name : String)
  | enumValueName (name : String)
  /-- A default value that its type cannot represent. -/
  | unrepresentable (what : Unrepresentable) (value : Value)
  | reservedType (name : String)
  | fieldType
  | argumentType
  | inputFieldType
  | nonNullOfNonNull (inner : String)
  | interfaces (type : String)
  | members (type : String)
  | ambiguousName (name : String)
  /-- A default value of a custom scalar that has no literal. -/
  | noLiteral (value : Value)

namespace Fault

/-- Whether a rule of the schema language is broken; otherwise something of a wrong kind is used. -/
def breaksRule : Fault → Bool
  | emptyName | nameCharacters _ | nameStart _ | enumValueName _ | unrepresentable _ _ => true
  | _ => false

/-- The fault in words. -/
def message : Fault → String
  | emptyName => "Expected name to be a non-empty string."
  | nameCharacters name =>
    "Names must only contain [_a-zA-Z0-9] but " ++ Text.quoted name ++ " does not."
  | nameStart name => "Names must start with [_a-zA-Z] but " ++ Text.quoted name ++ " does not."
  | enumValueName name => "Enum values cannot be named: " ++ name ++ "."
  | unrepresentable what value => what.text ++ value.glimpse
  | reservedType name => "Redefinition of reserved type " ++ Text.quoted name
  | fieldType => "Field type must be an output type."
  | argumentType => "Argument type must be a GraphQL input type."
  | inputFieldType => "Input field type must be a GraphQL input type."
  | nonNullOfNonNull inner =>
    "Can only create NonNull of a Nullable GraphQLType but got: " ++ inner ++ "."
  | interfaces type =>
    type ++ " interfaces must be specified as a collection of GraphQLInterfaceType instances."
  | members type =>
    type ++ " types must be specified as a collection of GraphQLObjectType instances."
  | ambiguousName name =>
    "Schema must contain uniquely named types but contains multiple types named '" ++ name ++ "'."
  | noLiteral value => "Cannot convert value to AST: " ++ value.glimpse ++ "."

end Fault

end Subgraph.TypeGraph
