import Subgraph.Failure
import Subgraph.Text.Name
import Subgraph.TypeGraph.Basic

/-!
# Rules for types and their parts

What is checked when a type, a part of it, or a reference is made. The names of the fields of a type,
its interfaces and its members are checked later, when they are first looked at.

Contents

* `checkName`, `checkTypeName`, `checkEnumValueName` — names;
* `TypeGraph.checkField`, `checkArgument`, `checkInputField` — parts;
* `TypeGraph.nonNull` — the non-null wrapper;
* `checkFieldNames`, `TypeGraph.checkInterfaces`, `checkMembers` — what is checked on first use.
-/

namespace Subgraph.TypeGraph

/-- The rules for a name, in the order of their checks. -/
def checkName (name : String) : Except Fault Unit :=
  match name.toList with
  | [] => .error .emptyName
  | c :: r =>
    if r.any fun d => !Text.isNameContinue d then .error (.nameCharacters name)
    else if !Text.isNameStart c then .error (.nameStart name)
    else .ok ()

/-- The rule for the name of a type: it is not reserved, and it is a name. -/
def checkTypeName (name : String) : Except Fault Unit :=
  if BuiltIn.names.contains name then .error (.reservedType name) else checkName name

/-- The words that are literals and no names of enum values. -/
def literalWords : List String := ["true", "false", "null"]

/-- The rule for the name of an enum value. -/
def checkEnumValueName (name : String) : Except Fault Unit :=
  match checkName name with
  | .error f => .error f
  | .ok () => if literalWords.contains name then .error (.enumValueName name) else .ok ()

/-- Several checks one after the other; the first failure decides. -/
def checkAll {α : Type} (check : α → Except Fault Unit) : List α → Except Fault Unit
  | [] => .ok ()
  | x :: xs =>
    match check x with
    | .ok () => checkAll check xs
    | .error f => .error f

variable (g : TypeGraph)

/-- The non-null form of a type, which must not be non-null itself. -/
def nonNull (of : TypeRef) : Except Fault TypeRef :=
  match of with
  | .nonNull _ => .error (.nonNullOfNonNull (g.refText of))
  | of => .ok (.nonNull of)

/-- The rules for a field: its type is an output type, and its arguments have names. -/
def checkField (type : TypeRef) (argumentNames : List String) : Except Fault Unit :=
  if g.holds TypeBody.isOutput type.base then checkAll checkName argumentNames
  else .error .fieldType

/-- The rule for an argument: its type is an input type. -/
def checkArgument (type : TypeRef) : Except Fault Unit :=
  if g.holds TypeBody.isInput type.base then .ok () else .error .argumentType

/-- The rule for an input field: its type is an input type. -/
def checkInputField (type : TypeRef) : Except Fault Unit :=
  if g.holds TypeBody.isInput type.base then .ok () else .error .inputFieldType

/-! ## Checks on first use -/

/-- The rule for the fields of a type: they have names. -/
def checkFieldNames (t : TypeDef) : Except Fault Unit :=
  checkAll checkName (t.body.fields.map (·.name) ++ t.body.inputFields.map (·.name))

/-- The rule for the interfaces of a type: they are interfaces. -/
def checkInterfaces (t : TypeDef) : Except Fault Unit :=
  if t.body.interfaces.all (g.holds TypeBody.isInterface) then .ok ()
  else .error (.interfaces t.name)

/-- The rule for the members of a union: they are objects. -/
def checkMembers (t : TypeDef) : Except Fault Unit :=
  if t.body.members.all (g.holds TypeBody.isObject) then .ok () else .error (.members t.name)

end Subgraph.TypeGraph
