import Subgraph.Sdl.Literal
import Subgraph.Workspace.Basic

/-!
# Applied directives

The directives of an element as they stand behind it. A directive is active at a version if its
definition in the catalog is available there; the others are left out.

Contents

* `Directive.text?` — one directive with its arguments;
* `Catalog.isActive`, `Catalog.active` — the directives that are shown at a version;
* `appliedText` — the text behind an element.
-/

namespace Subgraph

/-- The text of an argument. -/
def Argument.text? (a : Argument) : Except Failure String :=
  (literalText a.value).map fun t => a.name ++ ": " ++ t

/-- The text of a directive: its name, and its arguments in parentheses if there are any. -/
def Directive.text? (d : Directive) : Except Failure String :=
  match d.arguments with
  | [] => .ok ("@" ++ d.name)
  | arguments =>
    (arguments.mapM Argument.text?).map fun ts => "@" ++ d.name ++ "(" ++ ", ".intercalate ts ++ ")"

namespace Catalog

/-- Whether a directive is known and available at a version. -/
def isActive (c : Catalog) (v : Version) (d : Directive) : Bool :=
  (c.find? d.name).any fun definition => definition.minVersion.le v

/-- The directives that are available at a version, in order; all of them must be known. -/
def active (c : Catalog) (v : Version) : List Directive → Except Failure (List Directive)
  | [] => .ok []
  | d :: ds =>
    match c.lookup d.name with
    | .error f => .error f
    | .ok definition =>
      match c.active v ds with
      | .error f => .error f
      | .ok rest => .ok (if definition.minVersion.le v then d :: rest else rest)

end Catalog

namespace Sdl

/-- Texts of directives, each with a space before it. -/
def directiveTexts : List Directive → Except Failure String
  | [] => .ok ""
  | d :: ds =>
    match d.text? with
    | .error f => .error f
    | .ok t =>
      match directiveTexts ds with
      | .error f => .error f
      | .ok rest => .ok (" " ++ t ++ rest)

/-- The text of the directives of an element that are available at a version. -/
def appliedText (c : Catalog) (v : Version) (ds : List Directive) : Except Failure String :=
  match c.active v ds with
  | .error f => .error f
  | .ok active => directiveTexts active

end Sdl

end Subgraph
