import Subgraph.Sdl.Text
import Subgraph.Value.Render
import Subgraph.Failure

/-!
# Literals

A literal is what stands for a value in a document. The values of arguments become literals by their
own kind; truth values and members of an enumeration come before integers, as which some of them
count too.

Contents

* `Literal`, `Literal.text` — literals, and how they are written;
* `Literal.ofValue` — the literal of a value, for which the call stack has some room;
* `Literal.textWithin`, `literalText` — the text of a value, as an argument has it.
-/

namespace Subgraph

/-- What stands for a value in a document. -/
inductive Literal where
  | null
  | bool (b : Bool)
  /-- An integer, by its text. -/
  | int (digits : String)
  /-- A floating-point number, by its text. -/
  | float (digits : String)
  | string (s : String)
  | enum (name : String)
  | list (items : List Literal)
  | object (fields : List (String × Literal))
  deriving Inhabited

namespace Literal

mutual
/-- The text of a literal. -/
def text : Literal → String
  | .null => "null"
  | .bool b => if b then "true" else "false"
  | .int digits => digits
  | .float digits => digits
  | .string s => Sdl.stringLiteral s
  | .enum name => name
  | .list items => "[" ++ ", ".intercalate (itemTexts items) ++ "]"
  | .object fields => "\x7b" ++ ", ".intercalate (fieldTexts fields) ++ "\x7d"

/-- The texts of items. -/
def itemTexts : List Literal → List String
  | [] => []
  | l :: ls => text l :: itemTexts ls

/-- The texts of fields: name and value. -/
def fieldTexts : List (String × Literal) → List String
  | [] => []
  | (name, l) :: fs => (name ++ ": " ++ text l) :: fieldTexts fs
end

/-! ## Literals of values -/

/-- The failure that a value has no literal. Where the value itself cannot be written, for its depth or for
an integer in it, that is the failure. -/
def refuse {α : Type} (room : Nat) (value : Value) : Except Failure α :=
  if room < value.frames then .error (.misuse .deepNesting)
  else if value.withinDigitLimit then .error (.notLiteral value)
  else .error (.misuse .longInteger)

/-- What stands for a key: its plain form. -/
def keyText (room : Nat) (key : Value) : Except Failure String :=
  if room < key.plainFrames then .error (.misuse .deepNesting)
  else if key.plainWithinDigitLimit then .ok key.plain
  else .error (.misuse .longInteger)

mutual
/-- The literal of a value. The first value inside that has none decides, in document order. A collection is
opened by two calls inside one another, so that it has to leave room for them. -/
def ofValue (room : Nat) (value : Value) : Except Failure Literal :=
  match value with
  | .null => .ok .null
  | .bool b => .ok (.bool b)
  | .symbol ⟨name, _⟩ | .numeral name _ => .ok (.enum name)
  | .int n => if Text.exceedsDigitLimit n then .error (.misuse .longInteger) else .ok (.int (toString n))
  | .float x => if x.isFinite then .ok (.float x.text) else .error (.notFiniteLiteral x)
  | .text s => .ok (.string s)
  | .dict entries =>
    if room < 2 then .error (.misuse .deepNesting)
    else
      match ofEntries (room - 2) entries with
      | .ok fields => .ok (.object fields)
      | .error f => .error f
  | .list items | .tuple items =>
    if room < 2 then .error (.misuse .deepNesting)
    else
      match ofItems (room - 2) items with
      | .ok literals => .ok (.list literals)
      | .error f => .error f
  | .bytes bs => refuse room (.bytes bs)
  | .version v => refuse room (.version v)
  | .argument name v => refuse room (.argument name v)

/-- The literals of items. -/
def ofItems (room : Nat) : List Value → Except Failure (List Literal)
  | [] => .ok []
  | x :: xs =>
    match ofValue room x with
    | .error f => .error f
    | .ok l =>
      match ofItems room xs with
      | .ok ls => .ok (l :: ls)
      | .error f => .error f

/-- The literals of entries, each under the plain form of its key, which comes first. -/
def ofEntries (room : Nat) : List (Value × Value) → Except Failure (List (String × Literal))
  | [] => .ok []
  | (k, x) :: es =>
    match keyText room k with
    | .error f => .error f
    | .ok name =>
      match ofValue room x with
      | .error f => .error f
      | .ok l =>
        match ofEntries room es with
        | .ok fs => .ok ((name, l) :: fs)
        | .error f => .error f
end

/-- A tuple has the literal of a list. -/
theorem ofValue_tuple (room : Nat) (items : List Value) :
    ofValue room (.tuple items) = ofValue room (.list items) := by
  rw [ofValue, ofValue]

/-- The text of a value for which the call stack has some room. -/
def textWithin (room : Nat) (value : Value) : Except Failure String := (ofValue room value).map text

end Literal

/-- The text of a value where an argument has it. -/
def literalText (value : Value) : Except Failure String := Literal.textWithin stackRoom value

end Subgraph
