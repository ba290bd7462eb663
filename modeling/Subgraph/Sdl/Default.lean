import Subgraph.Binary64.Reader
import Subgraph.Sdl.Literal
import Subgraph.TypeGraph.Basic

/-!
# Default values

The default value of an argument or an input field becomes a literal by its type: every scalar has
its own way of representing a value, an enumeration looks the value up among its internal values, and
lists and input objects go by their items and fields. A value may have no literal, and then there is
no default; a value that its type cannot represent is a fault.

Contents

* `wholeNumber?`, `floating?` — what counts as an integer, and as a floating-point number;
* `scalarLiteral`, `enumLiteral`, `leafLiteral` — literals of scalars and enumerations;
* `defaultLiteral` — the literal of a value of any input type.
-/

namespace Subgraph.Sdl

open TypeGraph (Fault Unrepresentable)

/-! ## Numbers -/

/-- Bytes as characters, if they are all of ASCII. -/
def asciiChars? (bs : List UInt8) : Option (List Char) :=
  if bs.all (· < 128) then some (bs.map fun b => Char.ofNat b.toNat) else none

/-- The integer that a value stands for: integers, integral floating-point values, and the texts and
bytes that write one. -/
def wholeNumber? : Value → Option Int
  | .int n | .numeral _ n => some n
  | .float x => x.toInt?
  | .text s => Text.readInt? 10 s.toList
  | .bytes bs => (asciiChars? bs).bind (Text.readInt? 10)
  | _ => none

/-- The floating-point value that a value stands for: the nearest one of an integer, and the one that
a text or bytes write. -/
def floating? : Value → Option Binary64
  | .int n | .numeral _ n => Binary64.ofInt? n
  | .float x => some x
  | .text s => Binary64.ofText? s.toList
  | .bytes bs => (asciiChars? bs).bind Binary64.ofText?
  | _ => none

/-- The text of a floating-point value, without the fraction if that is zero. -/
def floatDigits (x : Binary64) : String :=
  let cs := x.text.toList
  if ['.', '0'].isSuffixOf cs then String.ofList (cs.take (cs.length - 2)) else x.text

/-- The text of an integer. -/
def intDigits (n : Int) : Except Failure String :=
  if Text.exceedsDigitLimit n then .error (.misuse .longInteger) else .ok (toString n)

/-! ## Scalars -/

/-- The failure of a value that a type cannot represent; one that cannot be shown fails on that. -/
def unrepresentable {α : Type} (what : Unrepresentable) (v : Value) : Except Failure α :=
  if v.withinDigitLimit then .error (.typeGraph (.unrepresentable what v))
  else .error (.misuse .longInteger)

/-- The literal of a 32-bit integer. -/
def intLiteral (v : Value) : Except Failure Literal :=
  match v with
  | .bool b => .ok (.int (if b then "1" else "0"))
  | v =>
    match wholeNumber? v with
    | none => unrepresentable .wholeNumber v
    | some n =>
      if -2147483648 ≤ n ∧ n ≤ 2147483647 then .ok (.int (toString n)) else unrepresentable .smallNumber v

/-- The literal of a floating-point number. -/
def floatLiteral (v : Value) : Except Failure Literal :=
  match v with
  | .bool b => .ok (.int (if b then "1" else "0"))
  | v =>
    match floating? v with
    | some x => if x.isFinite then .ok (.float (floatDigits x)) else unrepresentable .number v
    | none => unrepresentable .number v

/-- The literal of a text. -/
def textLiteral (v : Value) : Except Failure Literal :=
  match v with
  | .text s => .ok (.string s)
  | .bool b => .ok (.string (if b then "true" else "false"))
  | .int n | .numeral _ n => (intDigits n).map .string
  | .float x => if x.isFinite then .ok (.string x.text) else unrepresentable .string v
  | v => unrepresentable .string v

/-- The literal of a truth value. -/
def truthLiteral (v : Value) : Except Failure Literal :=
  match v with
  | .bool b => .ok (.bool b)
  | .int n | .numeral _ n => .ok (.bool (n != 0))
  | .float x => if x.isFinite then .ok (.bool !x.isZero) else unrepresentable .truth v
  | v => unrepresentable .truth v

/-- Whether digits write an integer the way it is written: without leading zeros. -/
def isPlainInteger (digits : List Char) : Bool :=
  match digits with
  | ['0'] => true
  | c :: r => c.isDigit && c != '0' && r.all Char.isDigit
  | [] => false

/-- Whether the text of an identifier is that of an integer, perhaps with a line end behind it. -/
def isIntegerText (s : String) : Bool :=
  let cs := s.toList
  let cs := if cs.getLast? == some '\n' then cs.dropLast else cs
  match cs with
  | '-' :: r => isPlainInteger r
  | r => isPlainInteger r

/-- The literal of the text of an identifier. -/
def identifierText (s : String) : Literal := if isIntegerText s then .int s else .string s

/-- The literal of an identifier. -/
def identifierLiteral (v : Value) : Except Failure Literal :=
  match v with
  | .text s => .ok (identifierText s)
  | .int n | .numeral _ n => (intDigits n).map identifierText
  | .float x =>
    match x.toInt? with
    | some n => (intDigits n).map identifierText
    | none => unrepresentable .identifier v
  | v => unrepresentable .identifier v

/-- The literal of a custom scalar, which represents every value by itself. -/
def customLiteral (v : Value) : Except Failure Literal :=
  match v with
  | .bool b => .ok (.bool b)
  | .int n | .numeral _ n => (intDigits n).map .int
  | .text s => .ok (.string s)
  | .float x =>
    if x.isFinite then .ok (.float (floatDigits x)) else .error (.typeGraph (.noLiteral v))
  | v =>
    if v.withinDigitLimit then .error (.typeGraph (.noLiteral v)) else .error (.misuse .longInteger)

/-- The literal of a scalar of a name. -/
def scalarLiteral (id : TypeId) (v : Value) : Except Failure Literal :=
  if id = BuiltIn.int then intLiteral v
  else if id = BuiltIn.float then floatLiteral v
  else if id = BuiltIn.string then textLiteral v
  else if id = BuiltIn.boolean then truthLiteral v
  else if id = BuiltIn.id then identifierLiteral v
  else customLiteral v

/-! ## Enumerations -/

/-- The internal value of an enum value; null stands for its name. -/
def internalValue (e : EnumValue) : Value :=
  match e.value with
  | .null => .text e.name
  | v => v

/-- The literal of an enumeration: the first of its values with an equal internal value. -/
def enumLiteral (name : String) (values : List EnumValue) (v : Value) : Except Failure Literal :=
  match values.find? fun e => (internalValue e).same v with
  | some e => .ok (.enum e.name)
  | none => unrepresentable (.member name) v

/-- The literal of a value of a scalar or an enumeration; none for another type. -/
def leafLiteral (g : TypeGraph) (id : TypeId) (v : Value) : Except Failure (Option Literal) :=
  match g.type? id with
  | none => .ok none
  | some t =>
    match t.body with
    | .scalar _ => (scalarLiteral id v).map some
    | .enum values => (enumLiteral t.name values v).map some
    | _ => .ok none

/-! ## Input types -/

/-- A type without the mark that forbids null. -/
def nullable : TypeRef → TypeRef
  | .nonNull of => of
  | r => r

/-- The fields of the input object of an index. -/
def inputFieldsOf? (g : TypeGraph) (id : TypeId) : Option (List InputValue) :=
  match g.type? id with
  | some t =>
    match t.body with
    | .inputObject _ fields => some fields
    | _ => none
  | none => none

/-- The type of the items of a list type. -/
def itemType? (r : TypeRef) : Option TypeRef :=
  match nullable r with
  | .list of => some of
  | _ => none

/-- The fields of an input object, in the order of the type, as far as they have literals; the first
field without one that should have it decides. -/
def pickFields (results : List (String × Except Failure (Option Literal))) :
    List InputValue → Except Failure (List (String × Literal))
  | [] => .ok []
  | f :: fs =>
    match results.lookup f.name with
    | none | some (.ok none) => pickFields results fs
    | some (.error e) => .error e
    | some (.ok (some l)) =>
      match pickFields results fs with
      | .ok rest => .ok ((f.name, l) :: rest)
      | .error e => .error e

mutual
/-- The literal of a value of an input type. Only a list or tuple is a list of a list type; any other
value stands for its only item. -/
def defaultLiteral (g : TypeGraph) (r : TypeRef) (v : Value) : Except Failure (Option Literal) :=
  match v with
  | .null =>
    match r with
    | .nonNull _ => .ok none
    | _ => .ok (some .null)
  | .list items =>
    match itemType? r with
    | some item => (itemLiterals g item items).map fun ls => some (.list ls)
    | none => leafLiteral g r.base (.list items)
  | .tuple items =>
    match itemType? r with
    | some item => (itemLiterals g item items).map fun ls => some (.list ls)
    | none => leafLiteral g r.base (.tuple items)
  | .dict entries =>
    match inputFieldsOf? g r.base with
    | some fields =>
      (pickFields (entryLiterals g fields entries) fields).map fun fs => some (.object fs)
    | none => leafLiteral g r.base (.dict entries)
  | .bool b => leafLiteral g r.base (.bool b)
  | .int n => leafLiteral g r.base (.int n)
  | .float x => leafLiteral g r.base (.float x)
  | .text s => leafLiteral g r.base (.text s)
  | .bytes bs => leafLiteral g r.base (.bytes bs)
  | .symbol member => leafLiteral g r.base (.symbol member)
  | .numeral name n => leafLiteral g r.base (.numeral name n)
  | .version w => leafLiteral g r.base (.version w)
  | .argument name w => leafLiteral g r.base (.argument name w)

/-- The literals of the items of a list, those without one left out. -/
def itemLiterals (g : TypeGraph) (r : TypeRef) : List Value → Except Failure (List Literal)
  | [] => .ok []
  | v :: vs =>
    match defaultLiteral g r v with
    | .error f => .error f
    | .ok l =>
      match itemLiterals g r vs with
      | .ok ls => .ok (l.toList ++ ls)
      | .error f => .error f

/-- What becomes of the entries of a mapping that are fields of an input object. -/
def entryLiterals (g : TypeGraph) (fields : List InputValue) :
    List (Value × Value) → List (String × Except Failure (Option Literal))
  | [] => []
  | (key, v) :: es =>
    match key with
    | .text name =>
      match fields.find? fun f => f.name == name with
      | some f => (name, defaultLiteral g f.type v) :: entryLiterals g fields es
      | none => entryLiterals g fields es
    | _ => entryLiterals g fields es
end

end Subgraph.Sdl
