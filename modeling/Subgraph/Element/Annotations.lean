import Subgraph.Catalog.Basic
import Subgraph.Directive.Basic

/-!
# Annotations

The directives of one element, in the order of their attachment. A directive is attached only if the
catalog knows it, allows it at the place of the element, and lets it be repeated if it is there
already. Once the element belongs to a schema its annotations are frozen.

Contents

* `Annotations` — the directives and the frozen mark;
* `append`, `freeze` — the two changes;
* `attach` — appending behind the checks of a catalog.
-/

namespace Subgraph

/-- The directives attached to one element. -/
structure Annotations where
  directives : List Directive := []
  frozen : Bool := false
  deriving Inhabited

namespace Annotations

/-- The names of the directives, repetitions included. -/
def names (a : Annotations) : List String := a.directives.map (·.name)

/-- Whether a directive of this name is attached. -/
def contains (a : Annotations) (name : String) : Bool := a.names.contains name

/-- The annotations with one more directive at the end; refused if they are frozen. -/
def append (a : Annotations) (d : Directive) : Except Failure Annotations :=
  if a.frozen then .error (.frozen d.name)
  else .ok { a with directives := a.directives ++ [d] }

/-- The annotations, no longer open to additions. -/
def freeze (a : Annotations) : Annotations := { a with frozen := true }

/-- The annotations as they are shown in messages. -/
def render (a : Annotations) : String :=
  "DirectiveSet(" ++ Value.bracketed "[" "]" (a.directives.map Directive.render) ++ ")"

/-- The annotations of an element at a place with one more directive. The checks, in order: the
catalog knows the name, allows the place, and allows a repetition if there is one; and the
annotations are not frozen. -/
def attach (catalog : Catalog) (location : Location) (a : Annotations) (d : Directive) :
    Except Failure Annotations :=
  match catalog.lookup d.name with
  | .error f => .error f
  | .ok definition =>
    if !definition.allows location then .error (.misplacedDirective d.name location)
    else if !definition.repeatable && a.contains d.name then .error (.notRepeatable d.name)
    else a.append d

/-- Several directives attached one after the other; the first refusal decides. -/
def attachAll (catalog : Catalog) (location : Location) (a : Annotations) :
    List Directive → Except Failure Annotations
  | [] => .ok a
  | d :: ds =>
    match a.attach catalog location d with
    | .ok a' => a'.attachAll catalog location ds
    | .error f => .error f

end Annotations

end Subgraph
