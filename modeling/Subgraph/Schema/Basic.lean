import Subgraph.TypeGraph.Reachable
import Subgraph.Workspace.Basic

/-!
# Schemas

A schema names its root types and holds every type reached from them by name. A federated schema has
besides a version, which may be chosen anew at any time, and a catalog. Building a federated schema
freezes the annotations of its elements.

Contents

* `DirectiveDeclaration` — a directive that a schema declares;
* `Target` — the version chosen for a schema;
* `Schema`, `Workspace.buildFederated` — schemas, and building one;
* `definedTypes`, `parts`, `resolve`, `removeType` — what a schema holds;
* `checkReferences`, `checkDirectives` — the checks before a schema is printed.
-/

namespace Subgraph

/-- A directive that a schema declares. -/
structure DirectiveDeclaration where
  name : String
  locations : List Location
  arguments : List InputValue := []
  repeatable : Bool := false
  description : Option String := none
  deprecation : Option String := none
  deriving Inhabited

namespace DirectiveDeclaration

/-- The names of the directives that every schema may use. -/
def specifiedNames : List String := ["include", "skip", "deprecated", "specifiedBy", "oneOf"]

/-- Whether a directive is one of those that every schema may use. -/
def isSpecified (d : DirectiveDeclaration) : Bool := specifiedNames.contains d.name

/-- An argument that must be given. -/
private def demanded (name : String) (id : TypeId) : InputValue :=
  ⟨name, .nonNull (.named id), none, none, none, none⟩

/-- The directives that every schema may use. They are not printed; their arguments have types that
the schema holds on that account. -/
def specified : List DirectiveDeclaration :=
  [⟨"include", [.field, .fragmentSpread, .inlineFragment], [demanded "if" BuiltIn.boolean], false,
      none, none⟩,
    ⟨"skip", [.field, .fragmentSpread, .inlineFragment], [demanded "if" BuiltIn.boolean], false,
      none, none⟩,
    ⟨"deprecated",
      [.fieldDefinition, .argumentDefinition, .inputFieldDefinition, .enumValue],
      [⟨"reason", .named BuiltIn.string, some (.text "No longer supported"), none, none, none⟩],
      false, none, none⟩,
    ⟨"specifiedBy", [.scalar], [demanded "url" BuiltIn.string], false, none, none⟩,
    ⟨"oneOf", [.inputObject], [], false, none, none⟩]

end DirectiveDeclaration

/-! ## Versions of schemas -/

/-- The version chosen for a schema, if one has been chosen. -/
structure Target where
  chosen : Option Version := none
  deriving Inhabited

namespace Target

/-- The version of the schema: the one chosen, or version `1.0`. -/
def version (t : Target) : Version := t.chosen.getD Version.first

/-- Whether a version has been chosen. -/
def isSet (t : Target) : Bool := t.chosen.isSome

/-- The choice of a version, which replaces an earlier one. -/
def choose (_t : Target) (value : Value) : Except Failure Target :=
  (Version.parse value).map fun v => ⟨some v⟩

/-- The target of a new schema: null chooses no version. -/
def initial (value : Value) : Except Failure Target :=
  match value with
  | .null => .ok {}
  | value => choose {} value

end Target

/-! ## Schemas -/

/-- What a federated schema has besides its types. -/
structure Federation where
  target : Target := {}
  catalog : CatalogId := Workspace.standardCatalog
  deriving Inhabited

/-- A schema over the types of a workspace. -/
structure Schema where
  /-- The types by name, in the order in which they were met. -/
  typeMap : List (String × TypeId)
  query : Option TypeId := none
  mutation : Option TypeId := none
  subscription : Option TypeId := none
  declarations : List DirectiveDeclaration := []
  description : Option String := none
  /-- Absent for a plain schema. -/
  federation : Option Federation := none
  deriving Inhabited

/-- What a schema is built from. -/
structure Roots where
  query : Option TypeId := none
  mutation : Option TypeId := none
  subscription : Option TypeId := none
  extra : List TypeId := []
  declarations : List DirectiveDeclaration := []
  deriving Inhabited

namespace Roots

/-- The walks that fill a schema after those from the extra types: the root types, the types of the
arguments of declared directives, and the type that describes a schema. -/
def starts (r : Roots) : List TypeId :=
  r.query.toList ++ r.mutation.toList ++ r.subscription.toList ++
    (r.declarations.flatMap fun d => d.arguments.map fun a => a.type.base) ++ [BuiltIn.schema]

end Roots

namespace TypeGraph

/-- The types of a schema, in the order in which the walks meet them. -/
def typesFrom (g : TypeGraph) (r : Roots) : Except Fault (List TypeId) :=
  match g.collectExtra r.extra with
  | .ok seen => g.collectAll seen r.starts
  | .error f => .error f

/-- Types by name; no two may have the same. -/
def nameTypes (g : TypeGraph) (named : List (String × TypeId)) :
    List TypeId → Except Fault (List (String × TypeId))
  | [] => .ok named
  | id :: ids =>
    if (named.map (·.1)).contains (g.nameOf id) then .error (.ambiguousName (g.nameOf id))
    else nameTypes g (named ++ [(g.nameOf id, id)]) ids

end TypeGraph

namespace Schema

/-- The index of a type by its name. -/
def find? (s : Schema) (name : String) : Option TypeId := s.typeMap.lookup name

/-- The types that a document states, in the order of the schema. -/
def definedTypes (s : Schema) (g : TypeGraph) : List TypeDef :=
  (s.typeMap.filterMap fun p => g.type? p.2).filter TypeDef.isDefined

/-- The parts of all types that a document states, in document order. -/
def parts (s : Schema) (g : TypeGraph) : List Part := (s.definedTypes g).flatMap TypeDef.parts

/-- The annotated elements of the schema, in document order. -/
def elements (s : Schema) (g : TypeGraph) : List ElementId := (s.parts g).filterMap (·.element)

/-- The type of a name, which must be in the schema. -/
def resolve (s : Schema) (name : String) : Except Failure TypeId :=
  match s.find? name with
  | some id => .ok id
  | none => .error (.unresolvedType name)

/-- The schema without the type of a name, which must be there. -/
def removeType (s : Schema) (name : String) : Except Failure Schema :=
  if (s.find? name).isSome then
    .ok { s with typeMap := s.typeMap.filter fun p => p.1 != name }
  else .error (.missingKey name)

/-- The names of the types that the schema's types refer to, in document order. -/
def referencedNames (s : Schema) (g : TypeGraph) : List String :=
  (s.definedTypes g).flatMap fun t => t.referenced.map g.nameOf

/-- Every type referred to is in the schema; otherwise the first that is not decides. -/
def checkReferences (s : Schema) (g : TypeGraph) : Except Failure Unit :=
  match (s.referencedNames g).find? fun name => (s.find? name).isNone with
  | some name => .error (.unresolvedType name)
  | none => .ok ()

/-- The version of the schema; that of a plain one is `1.0`. -/
def target (s : Schema) : Target := (s.federation.map (·.target)).getD {}

/-- The choice of a version for a federated schema. A plain one has no choice. -/
def choose (s : Schema) (value : Value) : Except Failure Schema :=
  match s.federation with
  | none => .ok s
  | some f =>
    match f.target.choose value with
    | .ok target => .ok { s with federation := some { f with target := target } }
    | .error e => .error e

end Schema

namespace Workspace

/-- The first part of building a schema: its types are met, checked and named. -/
def assemble (w : Workspace) (roots : Roots) (description : Option String)
    (federation : Option Federation) : Except Failure Schema :=
  match w.graph.typesFrom roots with
  | .error f => .error (.typeGraph f)
  | .ok ids =>
    match w.graph.nameTypes [] ids with
    | .error f => .error (.typeGraph f)
    | .ok typeMap =>
      .ok ⟨typeMap, roots.query, roots.mutation, roots.subscription, roots.declarations,
        description, federation⟩

/-- A plain schema. -/
def buildPlain (w : Workspace) (roots : Roots) (description : Option String) :
    Except Failure Schema :=
  w.assemble roots description none

/-- A federated schema, and the workspace in which its elements are frozen. The version is read
before anything is built. -/
def buildFederated (w : Workspace) (roots : Roots) (description : Option String) (version : Value)
    (catalog : Option CatalogId) : Except Failure (Workspace × Schema) :=
  match Target.initial version with
  | .error f => .error f
  | .ok target =>
    match w.assemble roots description (some ⟨target, catalog.getD standardCatalog⟩) with
    | .error f => .error f
    | .ok s => .ok (w.freezeAll (s.elements w.graph), s)

/-- The first directive attached within a schema that the catalog does not know. -/
def unknownDirective? (w : Workspace) (s : Schema) (catalog : Catalog) : Option String :=
  (s.parts w.graph).findSome? fun part =>
    ((w.directivesOf part.element).find? fun d => !catalog.contains d.name).map (·.name)

/-- Every attached directive is known to the catalog; otherwise the first that is not decides. -/
def checkDirectives (w : Workspace) (s : Schema) (catalog : Catalog) : Except Failure Unit :=
  match w.unknownDirective? s catalog with
  | some name => .error (.unknownDirective name)
  | none => .ok ()

end Workspace

end Subgraph
