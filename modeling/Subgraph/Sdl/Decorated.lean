import Subgraph.Sdl.TypeText

/-!
# Types with directives

How a type is written when directives stand behind its parts. What stands behind a part is given as
a function of the annotations of the part, a decoration; the layout is that of a type without
directives.

Contents

* `Decoration` — the text behind a part;
* `decoratedInputValue`, `decoratedArguments`, `decoratedField`, `decoratedEnumValue` — parts;
* `decoratedType` — a type.
-/

namespace Subgraph.Sdl

/-- The text behind a part, by the annotations of the part. -/
abbrev Decoration := Option ElementId → Except Failure String

variable (g : TypeGraph) (of : Decoration)

/-! ## Parts -/

/-- An argument or an input field with its directives. -/
def decoratedInputValue (a : InputValue) : Except Failure String := do
  let t ← inputValueText g a
  let ds ← of a.element
  .ok (t ++ ds)

/-- The arguments of a field with their directives: on one line if none has a description. -/
def decoratedArguments (as : List InputValue) : Except Failure String :=
  if as.isEmpty then .ok ""
  else if as.any fun a => isDescribed a.description then do
    let ts ← eachText
      (fun first a => do
        let t ← decoratedInputValue g of a
        .ok (description a.description "    " first ++ "    " ++ t)) true as
    .ok ("(\n" ++ "\n".intercalate ts ++ "\n  )")
  else do
    let ts ← eachText (fun _ a => decoratedInputValue g of a) true as
    .ok ("(" ++ ", ".intercalate ts ++ ")")

/-- A field of an object or an interface with its directives. -/
def decoratedField (first : Bool) (f : Field) : Except Failure String := do
  let arguments ← decoratedArguments g of f.arguments
  let ds ← of f.element
  .ok (description f.description "  " first ++ "  " ++ f.name ++ arguments ++ ": " ++
    g.refText f.type ++ deprecated f.deprecation ++ ds)

/-- A field of an input object with its directives. -/
def decoratedInputField (first : Bool) (f : InputValue) : Except Failure String := do
  let t ← decoratedInputValue g of f
  .ok (description f.description "  " first ++ "  " ++ t)

/-- A value of an enumeration with its directives. -/
def decoratedEnumValue (first : Bool) (v : EnumValue) : Except Failure String := do
  let ds ← of v.element
  .ok (description v.description "  " first ++ "  " ++ v.name ++ deprecated v.deprecation ++ ds)

/-! ## Types -/

/-- An object or an interface with its directives. -/
def decoratedObject (t : TypeDef) (interfaces : List TypeId) (fields : List Field) :
    Except Failure String := do
  let ds ← of t.element
  let items ← eachText (decoratedField g of) true fields
  .ok (typeHead t ++ implementsText g interfaces ++ ds ++ block items)

/-- A union with its directives. -/
def decoratedUnion (t : TypeDef) (members : List TypeId) : Except Failure String := do
  let ds ← of t.element
  .ok (typeHead t ++ ds ++ membersText g members)

/-- An enumeration with its directives. -/
def decoratedEnum (t : TypeDef) (values : List EnumValue) : Except Failure String := do
  let items ← eachText (decoratedEnumValue of) true values
  let ds ← of t.element
  .ok (typeHead t ++ ds ++ block items)

/-- An input object with its directives. -/
def decoratedInputObject (t : TypeDef) (fields : List InputValue) : Except Failure String := do
  let items ← eachText (decoratedInputField g of) true fields
  let ds ← of t.element
  .ok (typeHead t ++ ds ++ block items)

/-- A scalar with its directives. -/
def decoratedScalar (t : TypeDef) (url : Option String) : Except Failure String := do
  let ds ← of t.element
  .ok (typeHead t ++ specifiedBy url ++ ds)

/-- A type with its directives and those of its parts. -/
def decoratedType (t : TypeDef) : Except Failure String :=
  match t.body with
  | .object interfaces fields | .interface interfaces fields =>
    decoratedObject g of t interfaces fields
  | .union members => decoratedUnion g of t members
  | .enum values => decoratedEnum of t values
  | .inputObject _ fields => decoratedInputObject g of t fields
  | .scalar url => decoratedScalar of t url

end Subgraph.Sdl
