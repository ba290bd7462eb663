import Subgraph.Sdl.Applied
import Subgraph.Sdl.Decorated

/-!
# Federation documents

A federated schema as a document. From version `2.0` on the document starts with a header that
imports the directives available at its version, and the directives of the elements stand behind
them, as far as the header imports them. Below that version, and where no directive is active, the
types are written without directives.

Contents

* `linkImports`, `linkHeader` — the header;
* `hasActive`, `federationTypeText`, `federationBody` — what follows it;
* `federationDocument` — the document of a schema at a version, behind the checks.
-/

namespace Subgraph.Sdl

/-! ## The header -/

/-- The address of the specification of a version. -/
def specificationUrl (v : Version) : String := "https://specs.apollo.dev/federation/v" ++ v.text

/-- The names that are imported at a version, each with its `@`. -/
def linkImports (c : Catalog) (v : Version) : List String :=
  (c.eligible v).map fun d => "@" ++ d.name

/-- The header of a document: the specification and the imports. -/
def linkHeader (c : Catalog) (v : Version) : String :=
  "extend schema\n  @link(url: \"" ++ specificationUrl v ++ "\", import: [" ++
    ", ".intercalate ((linkImports c v).map fun name => "\"" ++ name ++ "\"") ++ "])"

/-! ## The body -/

variable (w : Workspace)

/-- What stands behind a part: its directives that are available at the version. -/
def decoration (c : Catalog) (v : Version) : Decoration := fun part =>
  appliedText c v (w.directivesOf part)

/-- Whether a directive is active on a type or one of its parts. -/
def hasActive (c : Catalog) (v : Version) (t : TypeDef) : Bool :=
  t.parts.any fun part => (w.directivesOf part.element).any (c.isActive v)

/-- A type: with directives if one is active on it or its parts. -/
def federationTypeText (c : Catalog) (v : Version) (t : TypeDef) : Except Failure String :=
  if hasActive w c v t then decoratedType w.graph (decoration w c v) t else typeText w.graph t

/-- What follows the header. -/
def federationBody (s : Schema) (c : Catalog) (v : Version) : Except Failure String :=
  if (s.definedTypes w.graph).any (hasActive w c v) then
    document w.graph s (federationTypeText w c v)
  else plainDocument w.graph s

/-- A header and what follows it. -/
def joinHeader (header body : String) : String :=
  if body = "" then header else header ++ "\n\n" ++ body

/-! ## The document -/

/-- The catalog that a schema is printed with if none is given: its own, or the standard one. -/
def ownCatalog (s : Schema) : Catalog :=
  match s.federation with
  | some f => w.catalog f.catalog
  | none => Catalog.standard

/-- The document of a schema with a catalog at a version. -/
def documentAt (s : Schema) (c : Catalog) (v : Version) : Except Failure String := do
  s.checkReferences w.graph
  w.checkDirectives s c
  if v.isFederation2 then
    let body ← federationBody w s c v
    .ok (joinHeader (linkHeader c v) body)
  else plainDocument w.graph s

/-- The document of a schema; without a catalog or a version it is printed with its own. -/
def federationDocument (s : Schema) (catalog : Option Catalog) (version : Option Version) :
    Except Failure String :=
  documentAt w s (catalog.getD (ownCatalog w s)) (version.getD s.target.version)

end Subgraph.Sdl
