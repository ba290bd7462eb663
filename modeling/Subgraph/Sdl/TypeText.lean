import Subgraph.Schema.Basic
import Subgraph.Sdl.Default

/-!
# Documents of schemas without directives

How a schema is written when no directive is attached to it, or none is to be shown: the schema
definition, the declared directives, and the types, with empty lines between them.

Contents

* `deprecated`, `specifiedBy`, `block` — the recurring pieces;
* `inputValueText`, `argumentsText`, `fieldTexts` — parts of types;
* `typeText` — a type;
* `directiveText`, `schemaDefinition` — declared directives and root types;
* `plainDocument` — the whole.
-/

namespace Subgraph.Sdl

/-! ## Pieces -/

/-- The reason that is left out, because it says no more than that there is one. -/
def defaultReason : String := "No longer supported"

/-- The mark of a deprecated element, with its reason unless that says nothing. -/
def deprecated : Option String → String
  | none => ""
  | some reason =>
    if reason = defaultReason then " @deprecated"
    else " @deprecated(reason: " ++ stringLiteral reason ++ ")"

/-- The reference to the specification of a scalar. -/
def specifiedBy : Option String → String
  | none => ""
  | some url => " @specifiedBy(url: " ++ stringLiteral url ++ ")"

/-- Items in braces, each on lines of its own; nothing for no items. -/
def block (items : List String) : String :=
  if items.isEmpty then "" else " \x7b\n" ++ "\n".intercalate items ++ "\n\x7d"

/-- Whether a part has a description to show above it. -/
def isDescribed (description : Option String) : Bool := description.any fun s => !s.isEmpty

/-- Texts of items, each of which may depend on being the first; the first failure decides. -/
def eachText {α : Type} (text : Bool → α → Except Failure String) (first : Bool) :
    List α → Except Failure (List String)
  | [] => .ok []
  | x :: xs => do
    let t ← text first x
    let ts ← eachText text false xs
    .ok (t :: ts)

/-! ## Parts of types -/

/-- The default value of an argument or an input field, behind its type. -/
def defaultText (g : TypeGraph) (a : InputValue) : Except Failure String :=
  match a.default with
  | none => .ok ""
  | some v =>
    (defaultLiteral g a.type v).map fun l =>
      match l with
      | some l => " = " ++ l.text
      | none => ""

/-- An argument or an input field. -/
def inputValueText (g : TypeGraph) (a : InputValue) : Except Failure String := do
  let d ← defaultText g a
  .ok (a.name ++ ": " ++ g.refText a.type ++ d ++ deprecated a.deprecation)

/-- Arguments in parentheses: on one line if none has a description, else on lines of their own, set
in by two more than the line they belong to. -/
def argumentsText (g : TypeGraph) (indent : String) (as : List InputValue) :
    Except Failure String :=
  if as.isEmpty then .ok ""
  else if as.all fun a => !isDescribed a.description then do
    let ts ← eachText (fun _ a => inputValueText g a) true as
    .ok ("(" ++ ", ".intercalate ts ++ ")")
  else do
    let inner := "  " ++ indent
    let ts ← eachText
      (fun first a => do
        let t ← inputValueText g a
        .ok (description a.description inner first ++ inner ++ t)) true as
    .ok ("(\n" ++ "\n".intercalate ts ++ "\n" ++ indent ++ ")")

/-- A field of an object or an interface. -/
def fieldText (g : TypeGraph) (first : Bool) (f : Field) : Except Failure String := do
  let arguments ← argumentsText g "  " f.arguments
  .ok (description f.description "  " first ++ "  " ++ f.name ++ arguments ++ ": " ++
    g.refText f.type ++ deprecated f.deprecation)

/-- A field of an input object. -/
def inputFieldText (g : TypeGraph) (first : Bool) (f : InputValue) : Except Failure String := do
  let t ← inputValueText g f
  .ok (description f.description "  " first ++ "  " ++ t)

/-- A value of an enumeration. -/
def enumValueText (first : Bool) (v : EnumValue) : String :=
  description v.description "  " first ++ "  " ++ v.name ++ deprecated v.deprecation

/-- The values of an enumeration. -/
def enumValueTexts (first : Bool) : List EnumValue → List String
  | [] => []
  | v :: vs => enumValueText first v :: enumValueTexts false vs

/-- The interfaces that a type implements. -/
def implementsText (g : TypeGraph) (interfaces : List TypeId) : String :=
  if interfaces.isEmpty then ""
  else " implements " ++ " & ".intercalate (interfaces.map g.nameOf)

/-- The members of a union. -/
def membersText (g : TypeGraph) (members : List TypeId) : String :=
  if members.isEmpty then "" else " = " ++ " | ".intercalate (members.map g.nameOf)

/-! ## Types -/

/-- The word that a type of a kind starts with. -/
def keyword : TypeBody → String
  | .scalar _ => "scalar"
  | .object _ _ => "type"
  | .interface _ _ => "interface"
  | .union _ => "union"
  | .enum _ => "enum"
  | .inputObject _ _ => "input"

/-- The beginning of a type: its description, its word and its name. -/
def typeHead (t : TypeDef) : String :=
  description t.description "" true ++ keyword t.body ++ " " ++ t.name

/-- A type. -/
def typeText (g : TypeGraph) (t : TypeDef) : Except Failure String :=
  match t.body with
  | .scalar url => .ok (typeHead t ++ specifiedBy url)
  | .object interfaces fields | .interface interfaces fields => do
    let items ← eachText (fieldText g) true fields
    .ok (typeHead t ++ implementsText g interfaces ++ block items)
  | .union members => .ok (typeHead t ++ membersText g members)
  | .enum values => .ok (typeHead t ++ block (enumValueTexts true values))
  | .inputObject oneOf fields => do
    let items ← eachText (inputFieldText g) true fields
    .ok (typeHead t ++ (if oneOf then " @oneOf" else "") ++ block items)

/-! ## Directives and root types -/

/-- A declared directive. -/
def directiveText (g : TypeGraph) (d : DirectiveDeclaration) : Except Failure String := do
  let arguments ← argumentsText g "" d.arguments
  .ok (description d.description "" true ++ "directive @" ++ d.name ++ arguments ++
    deprecated d.deprecation ++ (if d.repeatable then " repeatable" else "") ++ " on " ++
    " | ".intercalate (d.locations.map Location.name))

/-- The root types that a schema has, with the words for them. -/
def rootTypes (s : Schema) : List (String × TypeId) :=
  (s.query.toList.map ("query", ·)) ++ (s.mutation.toList.map ("mutation", ·)) ++
    (s.subscription.toList.map ("subscription", ·))

/-- The name that a root type has by convention. -/
def commonRootName (word : String) : String :=
  if word = "query" then "Query" else if word = "mutation" then "Mutation" else "Subscription"

/-- Whether every root type has its name by convention. -/
def hasCommonRootNames (g : TypeGraph) (s : Schema) : Bool :=
  (rootTypes s).all fun r => g.nameOf r.2 == commonRootName r.1

/-- The definition of the schema; none if there is no description and the names of the root types
are those by convention. -/
def schemaDefinition (g : TypeGraph) (s : Schema) : Option String :=
  if s.description.isNone && hasCommonRootNames g s then none
  else
    some (description s.description "" true ++ "schema \x7b\n" ++
      "\n".intercalate ((rootTypes s).map fun r => "  " ++ r.1 ++ ": " ++ g.nameOf r.2) ++ "\n\x7d")

/-! ## Documents -/

/-- The directives that a document states. -/
def statedDirectives (s : Schema) : List DirectiveDeclaration :=
  s.declarations.filter fun d => !d.isSpecified

/-- A document whose types are written by a given function: the parts in order, with empty lines
between them. -/
def document (g : TypeGraph) (s : Schema) (text : TypeDef → Except Failure String) :
    Except Failure String := do
  let directives ← (statedDirectives s).mapM (directiveText g)
  let types ← (s.definedTypes g).mapM text
  .ok ("\n\n".intercalate ((schemaDefinition g s).toList ++ directives ++ types))

/-- The document of a schema without directives. -/
def plainDocument (g : TypeGraph) (s : Schema) : Except Failure String := document g s (typeText g)

end Subgraph.Sdl
