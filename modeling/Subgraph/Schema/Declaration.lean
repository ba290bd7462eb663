import Subgraph.Schema.Basic

/-!
# Declarations

A schema is declared by types that refer to one another by name, with loose values where they are
read only when the declaration is carried out. Carrying it out makes catalogs, elements and types in a
workspace: first every type without its fields, its enum values before it; then, in the same order,
the fields; then the declared directives; then the schema.

Contents

* `CatalogPlan`, `Marking` — a catalog and the options of an element, as declared;
* `TypeExpr`, `InputDeclaration`, `FieldDeclaration`, `EnumValueDeclaration`, `TypeDeclaration`,
  `ElementDeclaration`;
* `SchemaDeclaration`, `SchemaDeclaration.build`.
-/

namespace Subgraph

/-! ## What is declared -/

/-- A definition as it is declared: loose values, each of which may be absent. -/
structure LooseDefinition where
  name : Option Value := none
  minVersion : Option Value := none
  locations : List Location := []
  repeatable : Option Value := none

/-- The definition that is declared. -/
def LooseDefinition.read (d : LooseDefinition) : Except Failure Definition :=
  Definition.ofRecord d.name d.minVersion d.locations d.repeatable

/-- A catalog as it is declared: the standard one or an empty one, and further definitions. -/
structure CatalogPlan where
  standard : Bool
  definitions : List LooseDefinition := []

/-- The catalog that is declared. -/
def CatalogPlan.read (p : CatalogPlan) : Except Failure Catalog := do
  let definitions ← p.definitions.mapM LooseDefinition.read
  (if p.standard then Catalog.standard else Catalog.empty).extended definitions

/-- The options of an element as they are declared. -/
structure Marking where
  tags : Value := .null
  inaccessible : Value := .null
  authenticated : Value := .null
  directives : List LooseDirective := []
  catalog : Option CatalogPlan := none

/-- A reference to a type by the name it is declared under. -/
inductive TypeExpr where
  | named (name : String)
  | list (of : TypeExpr)
  | nonNull (of : TypeExpr)

/-- An argument or an input field as it is declared. Without a marking it is a plain one, here and in
the other declarations. -/
structure InputDeclaration where
  name : String
  type : TypeExpr
  default : Option Value := none
  description : Option String := none
  deprecation : Option String := none
  marking : Option Marking := none

/-- A field as it is declared. -/
structure FieldDeclaration where
  name : String
  type : TypeExpr
  arguments : List InputDeclaration := []
  description : Option String := none
  deprecation : Option String := none
  marking : Option Marking := none

/-- An enum value as it is declared. -/
structure EnumValueDeclaration where
  name : String
  value : Value := .null
  description : Option String := none
  deprecation : Option String := none
  marking : Option Marking := none

/-- What is declared of a type, by its kind. -/
inductive BodyDeclaration where
  | scalar (specifiedBy : Option String)
  | object (interfaces : List String) (fields : List FieldDeclaration)
  | interface (interfaces : List String) (fields : List FieldDeclaration)
  | union (members : List String)
  | enum (values : List EnumValueDeclaration)
  | inputObject (oneOf : Bool) (fields : List InputDeclaration)

/-- A type as it is declared, under a name by which others refer to it. -/
structure TypeDeclaration where
  key : String
  name : String
  body : BodyDeclaration
  description : Option String := none
  marking : Option Marking := none

/-- A single element as it is declared, on its own or a type with all its parts. -/
inductive ElementDeclaration where
  | field (d : FieldDeclaration)
  | argument (d : InputDeclaration)
  | inputField (d : InputDeclaration)
  | enumValue (d : EnumValueDeclaration)
  | type (d : TypeDeclaration)

/-- A directive as a schema declares it. -/
structure DirectiveStatement where
  name : String
  locations : List Location
  arguments : List InputDeclaration := []
  repeatable : Bool := false
  description : Option String := none
  deprecation : Option String := none

/-- A schema as it is declared. -/
structure SchemaDeclaration where
  types : List TypeDeclaration := []
  query : Option String := none
  mutation : Option String := none
  subscription : Option String := none
  extra : List String := []
  statements : List DirectiveStatement := []
  /-- Whether the directives that every schema may use are left out. -/
  withoutSpecified : Bool := false
  description : Option String := none
  plain : Bool := false
  version : Value := .null
  catalog : Option CatalogPlan := none

/-! ## Names of types -/

/-- Types by the name under which they are declared; the last declaration of a name counts. -/
abbrev Scope := List (String × TypeId)

/-- The built-in scalars by name. -/
def Scope.initial : Scope := BuiltIn.scalarNames.zipIdx

/-- The type of a name. -/
def Scope.resolve (scope : Scope) (name : String) : Except Failure TypeId :=
  match scope.lookup name with
  | some id => .ok id
  | none => .error (.missingKey name)

/-! ## Carrying a declaration out -/

/-- A step that may change the workspace, or fail and leave it. -/
abbrev Building (α : Type) := StateT Workspace (Except Failure) α

namespace Building

/-- A result that does not depend on the workspace. -/
def of {α : Type} (x : Except Failure α) : Building α := fun w => x.map (·, w)

/-- A check of the type graph. -/
def check {α : Type} (x : Except TypeGraph.Fault α) : Building α :=
  of (x.mapError .typeGraph)

/-- The catalog that is declared, in the workspace. -/
def catalog (p : CatalogPlan) : Building CatalogId := fun w =>
  p.read.map fun c => (w.addCatalog c).swap

/-- The catalog that is declared, if one is. -/
def catalog? : Option CatalogPlan → Building (Option CatalogId)
  | none => pure none
  | some p => some <$> catalog p

/-- The options that are declared: first the directives are read, then the catalog is made, then the
options are told apart. -/
def options (m : Marking) : Building (Options CatalogId) := do
  let directives ← of (m.directives.mapM LooseDirective.read)
  let catalog ← catalog? m.catalog
  of (Options.ofValues m.tags m.inaccessible m.authenticated directives catalog)

/-- The element of a part, if the part is marked: its options are told apart, then the checks of
its kind are made, then it is annotated. -/
def element (location : Location) (marking : Option Marking)
    (checks : Workspace → Except TypeGraph.Fault Unit) : Building (Option ElementId) := do
  match marking with
  | none =>
    check (checks (← get))
    pure none
  | some m =>
    let options ← options m
    let w ← get
    check (checks w)
    let (w', id) ← of (w.addElement location options)
    set w'
    pure (some id)

/-- The reference that an expression states. -/
def typeRef (scope : Scope) : TypeExpr → Building TypeRef
  | .named name => do pure (.named (← of (scope.resolve name)))
  | .list e => do pure (.list (← typeRef scope e))
  | .nonNull e => do
    let r ← typeRef scope e
    let w ← get
    check (w.graph.nonNull r)

/-- The argument that is declared. -/
def argument (scope : Scope) (d : InputDeclaration) : Building InputValue := do
  let type ← typeRef scope d.type
  let element ← element .argumentDefinition d.marking fun w => w.graph.checkArgument type
  pure ⟨d.name, type, d.default, d.description, d.deprecation, element⟩

/-- The input field that is declared. -/
def inputField (scope : Scope) (d : InputDeclaration) : Building InputValue := do
  let type ← typeRef scope d.type
  let element ← element .inputFieldDefinition d.marking fun w => w.graph.checkInputField type
  pure ⟨d.name, type, d.default, d.description, d.deprecation, element⟩

/-- The field that is declared, its arguments before it. -/
def field (scope : Scope) (d : FieldDeclaration) : Building Field := do
  let arguments ← d.arguments.mapM (argument scope)
  let type ← typeRef scope d.type
  let element ← element .fieldDefinition d.marking fun w =>
    w.graph.checkField type (d.arguments.map (·.name))
  pure ⟨d.name, type, arguments, d.description, d.deprecation, element⟩

/-- The enum value that is declared. -/
def enumValue (d : EnumValueDeclaration) : Building EnumValue := do
  let element ← element .enumValue d.marking fun _ => .ok ()
  pure ⟨d.name, d.value, d.description, d.deprecation, element⟩

/-- The body of a type without its fields. -/
def body (scope : Scope) : BodyDeclaration → Building TypeBody
  | .scalar specifiedBy => pure (.scalar specifiedBy)
  | .object interfaces _ => do pure (.object (← of (interfaces.mapM scope.resolve)) [])
  | .interface interfaces _ => do pure (.interface (← of (interfaces.mapM scope.resolve)) [])
  | .union members => do pure (.union (← of (members.mapM scope.resolve)))
  | .enum values => do pure (.enum (← values.mapM enumValue))
  | .inputObject oneOf _ => pure (.inputObject oneOf [])

/-- The rules for a type as it is made: its name, and the names of enum values. -/
def checkType (name : String) (body : TypeBody) : Except TypeGraph.Fault Unit := do
  TypeGraph.checkTypeName name
  TypeGraph.checkAll TypeGraph.checkEnumValueName (body.values.map (·.name))

/-- The type that is declared, without its fields. -/
def type (scope : Scope) (d : TypeDeclaration) : Building TypeId := do
  let body ← body scope d.body
  let element ← element body.location d.marking fun _ => checkType d.name body
  modifyGet fun w => (w.addType ⟨d.name, body, d.description, element⟩).swap

/-- The fields of a type that is declared. -/
def typeFields (scope : Scope) (id : TypeId) (d : TypeDeclaration) : Building Unit := do
  match d.body with
  | .object _ fields | .interface _ fields =>
    let fields ← fields.mapM (field scope)
    modify fun w => w.setFields id fields []
  | .inputObject _ fields =>
    let fields ← fields.mapM (inputField scope)
    modify fun w => w.setFields id [] fields
  | _ => pure ()

/-- The names of the types that are about to be made, the first of which gets the index `next`. -/
def scopeOf (scope : Scope) (next : TypeId) (ds : List TypeDeclaration) : Scope :=
  (ds.map (·.key)).zipIdx next |>.reverse |>.append scope

/-- The types that are declared, and the scope in which they are known. -/
def types (scope : Scope) (ds : List TypeDeclaration) : Building Scope := do
  let next := (← get).graph.types.size
  let scope := scopeOf scope next ds
  let _ ← ds.mapM (type scope)
  let _ ← (ds.zipIdx next).mapM fun p => typeFields scope p.2 p.1
  pure scope

/-- A single element as it is declared. -/
def single (scope : Scope) : ElementDeclaration → Building (Part × Option TypeId)
  | .field d => do
    let f ← field scope d
    pure (⟨.fieldDefinition, f.element⟩, none)
  | .argument d => do pure ((← argument scope d).argumentPart, none)
  | .inputField d => do pure ((← inputField scope d).fieldPart, none)
  | .enumValue d => do pure ((← enumValue d).part, none)
  | .type d => do
    let scope ← types scope [d]
    let id ← of (scope.resolve d.key)
    let t := ((← get).graph.type? id).getD default
    pure (⟨t.body.location, t.element⟩, some id)

/-- The directive that a schema declares. -/
def statement (scope : Scope) (d : DirectiveStatement) : Building DirectiveDeclaration := do
  let arguments ← d.arguments.mapM (argument scope)
  check do
    TypeGraph.checkName d.name
    TypeGraph.checkAll TypeGraph.checkName (d.arguments.map (·.name))
  pure ⟨d.name, d.locations, arguments, d.repeatable, d.description, d.deprecation⟩

/-- The type of a name, if a name is given. -/
def root (scope : Scope) : Option String → Building (Option TypeId)
  | none => pure none
  | some name => do pure (some (← of (scope.resolve name)))

/-- The schema that is declared, over types that are known already. -/
def schema (scope : Scope) (d : SchemaDeclaration) : Building Schema := do
  let statements ← d.statements.mapM (statement scope)
  let roots : Roots :=
    { query := ← root scope d.query
      mutation := ← root scope d.mutation
      subscription := ← root scope d.subscription
      extra := ← of (d.extra.mapM scope.resolve)
      declarations :=
        (if d.withoutSpecified then [] else DirectiveDeclaration.specified) ++ statements }
  let catalog ← catalog? d.catalog
  let w ← get
  if d.plain then of (w.buildPlain roots d.description)
  else
    let (w', s) ← of (w.buildFederated roots d.description d.version catalog)
    set w'
    pure s

end Building

/-- The schema that is declared, in a workspace of its own, and the names of its types. -/
def SchemaDeclaration.build (d : SchemaDeclaration) :
    Except Failure ((Scope × Schema) × Workspace) :=
  let building : Building (Scope × Schema) := do
    let scope ← Building.types Scope.initial d.types
    let s ← Building.schema scope d
    pure (scope, s)
  building.run {}

end Subgraph
