import Subgraph.Value.Field
import Subgraph.Version.Reader

/-!
# Directive definitions

What the federation specification says of a directive: its name, the first version that has it, where
it may stand, and whether an element may carry it more than once.

Contents

* `Definition`, `Definition.allows` — a definition, and the places it allows;
* `truth?` — the readings of a truth value in a record;
* `Definition.ofRecord` — the definition that a record of loose values describes.
-/

namespace Subgraph

/-- The definition of a directive. -/
structure Definition where
  name : String
  minVersion : Version
  locations : List Location := []
  repeatable : Bool := false
  deriving DecidableEq, Repr, Inhabited

namespace Definition

/-- Whether the directive may stand at a place. -/
def allows (d : Definition) (l : Location) : Bool := d.locations.contains l

/-! ## Records -/

/-- The words for true and for false, in lower case. -/
def truthWords : List (String × Bool) :=
  [("1", true), ("on", true), ("t", true), ("true", true), ("y", true), ("yes", true),
    ("0", false), ("off", false), ("f", false), ("false", false), ("n", false), ("no", false)]

/-- What an integer says as a truth value: one and zero, and nothing else. An integer that does not fit
into 64 bits is not looked at. -/
def truthOfInt? (field : String) (n : Int) : Except RecordFault Bool :=
  if n < -0x8000000000000000 ∨ 0x8000000000000000 ≤ n then .error (.notTruthKind field)
  else if n = 1 then .ok true
  else if n = 0 then .ok false
  else .error (.notTruth field)

/-- What a word says as a truth value, in any case. -/
def truthOfWord? (field : String) (s : String) : Except RecordFault Bool :=
  match truthWords.lookup (String.ofList (s.toList.map Char.toLower)) with
  | some b => .ok b
  | none => .error (.notTruth field)

/-- What a value says as a truth value in a record: a truth value, one and zero, or a word, which
bytes may encode. -/
def truth? (field : String) : Value → Except RecordFault Bool
  | .bool b => .ok b
  | .int n | .numeral _ n => truthOfInt? field n
  | .float x =>
    -- the least integer of 64 bits counts as one that does not fit
    match x.toInt? with
    | some n => if n = -0x8000000000000000 then .error (.notTruthKind field) else truthOfInt? field n
    | none => .error (.notTruthKind field)
  | .text s => truthOfWord? field s
  | .bytes bs =>
    match Value.decoded? bs with
    | some s => truthOfWord? field s
    | none => .error (.notTruth field)
  | _ => .error (.notTruthKind field)

/-- What a value says as a version in a record. -/
def version? (field : String) (value : Value) : Except RecordFault Version :=
  match Version.parse value with
  | .ok v => .ok v
  | .error f => .error (.refused field f.message)

/-- The fault of a field, if it has one. -/
def faultOf {α : Type} : Except RecordFault α → List RecordFault
  | .ok _ => []
  | .error f => [f]

/-- A field that must be there. -/
def required {α : Type} (field : String) (read : Value → Except RecordFault α) :
    Option Value → Except RecordFault α
  | some value => read value
  | none => .error (.missing field)

/-- The definition of a record: the name and the least version are required, and every fault is
reported, in the order of the fields. -/
def ofRecord (name minVersion : Option Value) (locations : List Location)
    (repeatable : Option Value) : Except Failure Definition :=
  let name := required "name" (Value.fieldText "name") name
  let minVersion := required "min_version" (version? "min_version") minVersion
  let repeatable := truth? "repeatable" (repeatable.getD (.bool false))
  match name, minVersion, repeatable with
  | .ok name, .ok minVersion, .ok repeatable =>
    .ok ⟨name, minVersion, locations.eraseDups, repeatable⟩
  | name, minVersion, repeatable =>
    .error (.refusedRecord (faultOf name ++ faultOf minVersion ++ faultOf repeatable))

end Definition

end Subgraph
