import Subgraph.Directive.Basic
import Subgraph.Value.Field

/-!
# Reading directives

The arguments of a directive may be given as a mapping, or as a sequence whose items are arguments,
records with a name, or pairs. Every spelling leads to the same list.

Contents

* `Argument.ofParts` — an argument of a loose name and a value;
* `Argument.ofItem` — an argument of one item of a sequence;
* `Argument.listOf` — the arguments of a value, in order;
* `LooseDirective` — a directive as it is declared, and `LooseDirective.read`.
-/

namespace Subgraph

namespace Argument

/-- An argument; its name must be taken for a text. -/
def ofParts (name value : Value) : Except Failure Argument :=
  match name.fieldText "name" with
  | .ok s => .ok ⟨s, value⟩
  | .error f => .error (.refusedRecord [f])

/-- An argument of a pair, given as the list of its items. -/
def ofPair : List Value → Except Failure Argument
  | [name, value] => ofParts name value
  | [] => .error (.misuse (.tooFewItems 0))
  | [_] => .error (.misuse (.tooFewItems 1))
  | _ => .error (.misuse .tooManyItems)

/-- An argument of one item: an argument as it is, a record with a name and perhaps a value, or
anything of two items. -/
def ofItem (item : Value) : Except Failure Argument :=
  match item with
  | .argument name value => .ok ⟨name, value⟩
  | .dict entries =>
    match Value.lookup? entries "name" with
    | some name => ofParts name ((Value.lookup? entries "value").getD .null)
    | none => .error (.missingKey "name")
  | item =>
    match item.items? with
    | some items => ofPair items
    | none => .error (.misuse (.notPair item.kind))

/-- The arguments that a value spells, in order: none for what counts as false, the entries of a
mapping, else an argument for each item. The first malformed item decides. -/
def listOf (value : Value) : Except Failure (List Argument) :=
  if value.isTrue then
    match value with
    | .dict entries => entries.mapM fun e => ofParts e.1 e.2
    | value =>
      match value.items? with
      | some items => items.mapM ofItem
      | none => .error (.misuse (.notIterable value.kind))
  else .ok []

end Argument

/-- A directive as it is declared, before its name and its arguments have been looked at. -/
structure LooseDirective where
  name : Value
  arguments : Value := .null

namespace LooseDirective

/-- The directive that is declared: first the arguments are read, then the name. -/
def read (d : LooseDirective) : Except Failure Directive := do
  let arguments ← Argument.listOf d.arguments
  match d.name.fieldText "name" with
  | .ok name => .ok ⟨name, arguments⟩
  | .error f => .error (.refusedRecord [f])

end LooseDirective

end Subgraph
