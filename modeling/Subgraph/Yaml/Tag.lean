import Subgraph.Yaml.Cursor

/-!
# Tags

A tag says what a node is made into. A plain scalar without a tag has the one that its text suggests.

Contents

* `Tag` — the tags that are known;
* `Tag.ofName` — the tag of a full name;
* `isIntText`, `isFloatText`, `isMoment` — the texts that suggest a number or a moment in time;
* `Tag.ofPlain` — the tag that a plain scalar has.
-/

namespace Subgraph.Yaml

/-- What a node is made into. -/
inductive Tag where
  | null
  | bool
  | int
  | float
  | text
  | binary
  | timestamp
  | sequence
  | mapping
  | set
  | pairs
  /-- The key under which a mapping takes over the entries of others. -/
  | merge
  /-- The key under which a mapping has the value that it stands for as a scalar. -/
  | defaultValue
  | unknown
  deriving DecidableEq, Repr

namespace Tag

/-- What the names of the common tags start with. -/
def namePrefix : String := "tag:yaml.org,2002:"

/-- The common tags by the rest of their names. -/
def byName : List (String × Tag) :=
  [("null", null), ("bool", bool), ("int", int), ("float", float), ("str", text),
    ("binary", binary), ("timestamp", timestamp), ("seq", sequence), ("map", mapping),
    ("set", set), ("omap", pairs), ("pairs", pairs), ("merge", merge), ("value", defaultValue)]

/-- The tag of a full name. -/
def ofName (name : String) : Tag :=
  ((byName.find? fun p => namePrefix ++ p.1 == name).map (·.2)).getD unknown

end Tag

/-! ## Texts of numbers -/

/-- Whether a text is a run of characters of a class after a first one of another class. -/
def isRunAfter (first rest : Char → Bool) : List Char → Bool
  | [] => false
  | c :: r => first c && r.all rest

/-- A digit or an underscore. -/
def isDigitOrBar (c : Char) : Bool := c.isDigit || c == '_'

/-- Groups of base sixty behind a first one: each a colon and one or two digits, the first of two
below six. There must be one at least. -/
def isSexagesimalTail : List Char → Bool
  | [':', a] => a.isDigit
  | [':', a, b] => '0' ≤ a && a ≤ '5' && b.isDigit
  | ':' :: a :: ':' :: r => a.isDigit && isSexagesimalTail (':' :: r)
  | ':' :: a :: b :: ':' :: r => '0' ≤ a && a ≤ '5' && b.isDigit && isSexagesimalTail (':' :: r)
  | _ => false

/-- Whether an unsigned text suggests an integer: binary, octal, decimal, hexadecimal, or of base
sixty. -/
def isUnsignedIntText (cs : List Char) : Bool :=
  match cs with
  | ['0'] => true
  | '0' :: 'b' :: r =>
    !r.isEmpty && r.all fun c => c == '0' || c == '1' || c == '_'
  | '0' :: 'x' :: r => !r.isEmpty && r.all fun c => isHexDigit c || c == '_'
  | '0' :: r => r.all fun c => ('0' ≤ c && c ≤ '7') || c == '_'
  | cs =>
    let whole := cs.takeWhile isDigitOrBar
    let tail := cs.dropWhile isDigitOrBar
    isRunAfter (fun c => c.isDigit && c != '0') isDigitOrBar whole &&
      (tail.isEmpty || isSexagesimalTail tail)

/-- Whether a text suggests an integer. -/
def isIntText (cs : List Char) : Bool := isUnsignedIntText (Text.splitSign cs).2

/-- Whether a text is the exponent of a number, which must have a sign, or empty. -/
def isExponent : List Char → Bool
  | [] => true
  | e :: sign :: r =>
    (e == 'e' || e == 'E') && (sign == '-' || sign == '+') && !r.isEmpty && r.all Char.isDigit
  | _ => false

/-- Whether an unsigned text suggests a floating-point number: a decimal with a point, or one of base
sixty with a point. -/
def isUnsignedFloatText (cs : List Char) : Bool :=
  let whole := cs.takeWhile isDigitOrBar
  let tail := cs.dropWhile isDigitOrBar
  isRunAfter Char.isDigit isDigitOrBar whole &&
    match tail with
    | '.' :: r => isExponent (r.dropWhile isDigitOrBar)
    | tail =>
      let groups := tail.takeWhile fun c => c.isDigit || c == ':'
      match tail.dropWhile fun c => c.isDigit || c == ':' with
      | '.' :: r => isSexagesimalTail groups && r.all isDigitOrBar
      | _ => false

/-- Whether a text suggests a floating-point number. -/
def isFloatText (cs : List Char) : Bool :=
  let (_, unsigned) := Text.splitSign cs
  isUnsignedFloatText unsigned ||
    [".inf", ".Inf", ".INF"].contains (String.ofList unsigned) ||
    [".nan", ".NaN", ".NAN"].contains (String.ofList cs) ||
    match cs with
    | '.' :: r =>
      isRunAfter Char.isDigit isDigitOrBar (r.takeWhile isDigitOrBar) &&
        isExponent (r.dropWhile isDigitOrBar)
    | _ => false

/-! ## Moments in time -/

/-- The parts of a moment: year, month and day, and the rest if there is a time of day. -/
structure Moment where
  year : Nat
  month : Nat
  day : Nat
  /-- Hour, minute, second, and the minutes by which the clock differs. -/
  time : Option (Nat × Nat × Nat × Nat) := none
  /-- Whether month and day have two digits each. -/
  padded : Bool

/-- A number of at least `least` and at most `most` digits, and what follows it. -/
def digitsOf? (least most : Nat) (cs : List Char) : Option (List Char × List Char) :=
  let run := (cs.take most).takeWhile Char.isDigit
  if run.length < least then none else some (run, cs.drop run.length)

/-- What follows a character, which must come next. -/
def after? (x : Char) : List Char → Option (List Char)
  | c :: r => if c = x then some r else none
  | [] => none

/-- The difference of a clock behind a time of day: nothing, a letter, or hours and perhaps minutes. -/
def clockShift? (cs : List Char) : Option Nat :=
  if cs.isEmpty then some 0
  else
    match cs.dropWhile fun c => c == ' ' || c == '\t' with
    | ['Z'] => some 0
    | c :: r =>
      if c == '+' || c == '-' then do
        let (hours, r) ← digitsOf? 1 2 r
        match r with
        | [] => some (60 * Text.numeral hours)
        | ':' :: r =>
          let (minutes, r) ← digitsOf? 2 2 r
          if r.isEmpty then some (60 * Text.numeral hours + Text.numeral minutes) else none
        | _ => none
      else none
    | [] => none

/-- The time of day behind a date: a letter or a gap, hour, minute, second, and a fraction. -/
def timeOfDay? (cs : List Char) : Option (Nat × Nat × Nat × Nat) := do
  let r ←
    match cs with
    | 'T' :: r | 't' :: r => some r
    | c :: r =>
      if c == ' ' || c == '\t' then some (r.dropWhile fun c => c == ' ' || c == '\t') else none
    | [] => none
  let (hour, r) ← digitsOf? 1 2 r
  let r ← after? ':' r
  let (minute, r) ← digitsOf? 2 2 r
  let r ← after? ':' r
  let (second, r) ← digitsOf? 2 2 r
  let r :=
    match r with
    | '.' :: r => r.dropWhile Char.isDigit
    | r => r
  let shift ← clockShift? r
  some (Text.numeral hour, Text.numeral minute, Text.numeral second, shift)

/-- The moment that a text writes: a date, or a date and a time of day. -/
def moment? (cs : List Char) : Option Moment := do
  let (year, r) ← digitsOf? 4 4 cs
  let r ← after? '-' r
  let (month, r) ← digitsOf? 1 2 r
  let r ← after? '-' r
  let (day, r) ← digitsOf? 1 2 r
  let padded := month.length == 2 && day.length == 2
  let date : Moment := ⟨Text.numeral year, Text.numeral month, Text.numeral day, none, padded⟩
  if r.isEmpty then some date
  else do
    let time ← timeOfDay? r
    some { date with time := some time }

/-- Whether a text suggests a moment: a date alone must have two digits for month and day. -/
def isMoment (cs : List Char) : Bool :=
  match moment? cs with
  | some m => m.padded || m.time.isSome
  | none => false

/-! ## Plain scalars -/

/-- The words for true and for false. -/
def boolWords : List String :=
  ["yes", "Yes", "YES", "no", "No", "NO", "true", "True", "TRUE", "false", "False", "FALSE", "on",
    "On", "ON", "off", "Off", "OFF"]

/-- The words for null. -/
def nullWords : List String := ["~", "null", "Null", "NULL", ""]

/-- The tag that a plain scalar has by its text; one line break at the end is disregarded, except
where nothing else is there. -/
def Tag.ofPlain (text : List Char) : Tag :=
  let cs := if text.getLast? == some '\n' && text.length != 1 then text.dropLast else text
  let s := String.ofList cs
  if boolWords.contains s then .bool
  else if isFloatText cs then .float
  else if isIntText cs then .int
  else if s == "<<" then .merge
  else if nullWords.contains s then .null
  else if isMoment cs then .timestamp
  else if s == "=" then .defaultValue
  else if ["!", "&", "*"].contains s then .unknown
  else .text

end Subgraph.Yaml
