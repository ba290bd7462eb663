import Subgraph.Element.Options
import Subgraph.TypeGraph.Check

/-!
# Workspaces

Catalogs, annotated elements and types are shared: several elements use one catalog, and several
schemas one element. A workspace holds each of them once, under an index, and every change leads to
a new workspace. A change that fails leads to none, so the old one stays as it is.

Contents

* `Element`, `Workspace` — an annotated element, and everything that is shared;
* `addCatalog`, `registerIn` — catalogs;
* `addElement`, `addDirective`, `freezeAll` — elements;
* `addType`, `setFields` — types.
-/

namespace Subgraph

/-- The index of a catalog. -/
abbrev CatalogId := Nat

/-- An element that directives can be attached to: its place, the catalog that is asked, and the
directives. -/
structure Element where
  location : Location
  catalog : CatalogId
  annotations : Annotations := {}

/-- Everything that schemas and elements share. The catalog of index zero is the standard one. -/
structure Workspace where
  catalogs : Array Catalog := #[Catalog.standard]
  elements : Array Element := #[]
  graph : TypeGraph := {}
  deriving Inhabited

namespace Workspace

/-- The index of the standard catalog. -/
def standardCatalog : CatalogId := 0

/-- The catalog of an index. -/
def catalog (w : Workspace) (id : CatalogId) : Catalog := w.catalogs[id]?.getD Catalog.standard

/-- The annotations of an element. -/
def annotations (w : Workspace) (id : ElementId) : Annotations :=
  (w.elements[id]?.map (·.annotations)).getD {}

/-- The directives of a part; none for a part without annotations. -/
def directivesOf (w : Workspace) (part : Option ElementId) : List Directive :=
  match part with
  | some id => (w.annotations id).directives
  | none => []

/-! ## Catalogs -/

/-- A workspace with one more catalog, and its index. -/
def addCatalog (w : Workspace) (c : Catalog) : Workspace × CatalogId :=
  ({ w with catalogs := w.catalogs.push c }, w.catalogs.size)

/-- A workspace in which one of the catalogs has one more definition. -/
def registerIn (w : Workspace) (id : CatalogId) (d : Definition) : Except Failure Workspace :=
  match w.catalogs[id]? with
  | none => .ok w
  | some c =>
    match c.register d with
    | .ok c' => .ok { w with catalogs := w.catalogs.setIfInBounds id c' }
    | .error f => .error f

/-- A workspace with one more catalog, made of one that is there and further definitions. -/
def extendCatalog (w : Workspace) (id : CatalogId) (ds : List Definition) :
    Except Failure (Workspace × CatalogId) :=
  match (w.catalog id).extended ds with
  | .ok c => .ok (w.addCatalog c)
  | .error f => .error f

/-! ## Elements -/

/-- A workspace with one more element, annotated by its options, and its index. -/
def addElement (w : Workspace) (location : Location) (options : Options CatalogId) :
    Except Failure (Workspace × ElementId) :=
  let catalog := options.catalog.getD standardCatalog
  match options.annotate (w.catalog catalog) location with
  | .ok annotations =>
    .ok ({ w with elements := w.elements.push ⟨location, catalog, annotations⟩ }, w.elements.size)
  | .error f => .error f

/-- A workspace in which the annotations of an element are others. -/
def setAnnotations (w : Workspace) (id : ElementId) (a : Annotations) : Workspace :=
  { w with elements := w.elements.modify id fun e => { e with annotations := a } }

/-- A workspace in which an element has one more directive. -/
def attach (w : Workspace) (id : ElementId) (d : Directive) : Except Failure Workspace :=
  match w.elements[id]? with
  | none => .ok w
  | some e =>
    match e.annotations.attach (w.catalog e.catalog) e.location d with
    | .ok a => .ok (w.setAnnotations id a)
    | .error f => .error f

/-- A workspace in which an element has one more directive, given loosely, and that directive. -/
def addDirective (w : Workspace) (id : ElementId) (d : LooseDirective) :
    Except Failure (Workspace × Directive) := do
  let d ← d.read
  let w ← w.attach id d
  .ok (w, d)

/-- A workspace in which the annotations of an element are frozen. -/
def freeze (w : Workspace) (id : ElementId) : Workspace :=
  w.setAnnotations id (w.annotations id).freeze

/-- A workspace in which the annotations of several elements are frozen. -/
def freezeAll (w : Workspace) (ids : List ElementId) : Workspace := ids.foldl freeze w

/-! ## Types -/

/-- A workspace with one more type, and its index. -/
def addType (w : Workspace) (t : TypeDef) : Workspace × TypeId :=
  ({ w with graph := ⟨w.graph.types.push t⟩ }, w.graph.types.size)

/-- A type with other fields, as far as its kind has fields of this kind. -/
def withFields (fields : List Field) (inputFields : List InputValue) (t : TypeDef) : TypeDef :=
  match t.body with
  | .object interfaces _ => { t with body := .object interfaces fields }
  | .interface interfaces _ => { t with body := .interface interfaces fields }
  | .inputObject oneOf _ => { t with body := .inputObject oneOf inputFields }
  | _ => t

/-- A workspace in which a type has other fields. -/
def setFields (w : Workspace) (id : TypeId) (fields : List Field) (inputFields : List InputValue) :
    Workspace :=
  { w with graph := ⟨w.graph.types.modify id (withFields fields inputFields)⟩ }

/-- The parts of a type, in document order; the names of its fields are checked first. -/
def partsOf (w : Workspace) (id : TypeId) : Except Failure (List Part) :=
  match w.graph.type? id with
  | none => .ok []
  | some t =>
    match TypeGraph.checkFieldNames t with
    | .ok () => .ok t.parts
    | .error f => .error (.typeGraph f)

end Workspace

end Subgraph
