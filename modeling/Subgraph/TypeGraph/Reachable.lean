import Subgraph.TypeGraph.Check

/-!
# Reachable types

The types that a schema holds are those reached from its roots, in the order of a depth-first walk:
a type comes before the types it refers to. Whatever is looked at for the first time is checked then,
so of several faults the one met first is found.

Contents

* `steps` — what follows a type in the walk: references, and faults where something is not in order;
* `walk` — the walk through the types that remain, from pending references;
* `collect` — a walk appended to the types seen so far;
* `collectExtra` — the walk from types that are given besides the roots.
-/

namespace Subgraph.TypeGraph

variable (g : TypeGraph)

/-- References behind a check: the fault, if there is one, in their place. -/
def guarded (check : Except Fault Unit) (ids : List TypeId) : List (Except Fault TypeId) :=
  match check with
  | .ok () => ids.map .ok
  | .error f => [.error f]

/-- What follows a type in the walk: the members of a union; the interfaces of an object or an
interface and then the types of its fields; the types of the fields of an input object. -/
def steps (id : TypeId) : List (Except Fault TypeId) :=
  match g.type? id with
  | none => []
  | some t =>
    match t.body with
    | .union members => guarded (g.checkMembers t) members
    | .object interfaces fields | .interface interfaces fields =>
      guarded (g.checkInterfaces t) interfaces ++
        guarded (checkFieldNames t) (fields.flatMap Field.referenced)
    | .inputObject _ fields =>
      guarded (checkFieldNames t) (fields.map fun f => f.type.base)
    | .scalar _ | .enum _ => []

/-- The walk from pending references through the types that remain to be seen; each of those is met
at most once. -/
def walk (remaining : List TypeId) (pending : List (Except Fault TypeId)) :
    Except Fault (List TypeId) :=
  match pending with
  | [] => .ok []
  | .error f :: _ => .error f
  | .ok id :: rest =>
    if _h : id ∈ remaining then
      match walk (remaining.erase id) (g.steps id ++ rest) with
      | .ok met => .ok (id :: met)
      | .error f => .error f
    else walk remaining rest
termination_by (remaining.length, pending.length)
decreasing_by
  · have h1 := List.length_erase_of_mem _h
    have h2 := List.length_pos_of_mem _h
    exact Prod.Lex.left _ _ (by omega)
  · exact Prod.Lex.right _ (by simp)

/-- The indices of the graph that have not been seen. -/
def unseen (seen : List TypeId) : List TypeId :=
  (List.range g.types.size).filter fun id => !seen.contains id

/-- The types seen, followed by those that a walk from an index meets. -/
def collect (seen : List TypeId) (root : TypeId) : Except Fault (List TypeId) :=
  match g.walk (g.unseen seen) [.ok root] with
  | .ok met => .ok (seen ++ met)
  | .error f => .error f

/-- Walks from several indices, one after the other. -/
def collectAll (seen : List TypeId) : List TypeId → Except Fault (List TypeId)
  | [] => .ok seen
  | root :: roots =>
    match g.collect seen root with
    | .ok seen' => collectAll seen' roots
    | .error f => .error f

/-- Walks from several indices that count as seen before the first: each is taken out of its place
when its turn comes, and is met again at the end. -/
def collectAgain (seen : List TypeId) : List TypeId → Except Fault (List TypeId)
  | [] => .ok seen
  | root :: roots =>
    match g.collect (seen.erase root) root with
    | .ok seen' => collectAgain seen' roots
    | .error f => .error f

/-- The walk from the types that a schema is given besides its roots. -/
def collectExtra (extra : List TypeId) : Except Fault (List TypeId) :=
  g.collectAgain extra.eraseDups extra

end Subgraph.TypeGraph
