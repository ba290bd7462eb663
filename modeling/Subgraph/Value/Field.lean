import Subgraph.Failure

/-!
# Fields of records

A field of a record that holds a text takes a text as it is, bytes for the text that they encode, and a
member of an enumeration for the text of the value that it stands for. No other value is taken for a text:
a number, say, is none.
-/

namespace Subgraph.Value

/-- The text that bytes encode. -/
def decoded? (bs : List UInt8) : Option String := String.fromUTF8? ⟨bs.toArray⟩

/-- The text of a value that a member of an enumeration stands for. -/
def memberText (value : Value) : Except RecordFault String :=
  if stackRoom < value.plainFrames then .error (.unwritable .deepNesting)
  else if value.plainWithinDigitLimit then .ok value.plain
  else .error (.unwritable .longInteger)

/-- The text that a field of a record takes from a value. -/
def fieldText (field : String) : Value → Except RecordFault String
  | .text s => .ok s
  | .bytes bs =>
    match decoded? bs with
    | some s => .ok s
    | none => .error (.notEncoded field)
  | .symbol member => memberText member.value
  | .numeral _ n => memberText (.int n)
  | _ => .error (.notText field)

end Subgraph.Value
