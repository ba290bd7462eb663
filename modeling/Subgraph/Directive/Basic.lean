import Subgraph.Value.Render

/-!
# Directives

A directive as it is applied to an element: its name without the leading `@`, and its arguments in
the order in which they were given. One name may occur among the arguments more than once.
-/

namespace Subgraph

/-- An argument of an applied directive. -/
structure Argument where
  name : String
  value : Value := .null
  deriving Inhabited

/-- A directive applied to an element. -/
structure Directive where
  name : String
  arguments : List Argument := []
  deriving Inhabited

/-- The argument as a record in messages. -/
def Argument.render (a : Argument) : String := (Value.argument a.name a.value).render

/-- The directive as a record in messages. -/
def Directive.render (d : Directive) : String :=
  "DirectiveInstance(name=" ++ Text.quoted d.name ++ ", arguments=" ++
    Value.tupled (d.arguments.map Argument.render) ++ ")"

end Subgraph
