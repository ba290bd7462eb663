import Subgraph.Binary64.Reader
import Subgraph.Yaml.Node
import Subgraph.Yaml.TokenStream

/-!
# Values of documents

Every node is made into a value by its tag, and once only. Scalars are made at once; collections are made
empty and filled one level after the other, so of several faults the one of the least level is met first.
A mapping takes over the entries of those it merges before it is filled.

Contents

* `Value` — what a document holds;
* `number`, `floating`, `checkMoment`, `checkBase64` — scalars by tag;
* `scalarValue` — the value of a scalar node;
* `flatten` — merging;
* `Filling` — the nodes made, and those still to be filled: `make`, `perform`, `enter`, `fill`;
* `unfold` — the value of a node down to a depth;
* `load` — the value of a text.
-/

namespace Subgraph.Yaml

/-- What a document holds. Of a mapping only the entries under texts are kept, the last one of each;
what is neither used as a number nor as a text nor gone into is not told apart. -/
inductive Value where
  | null
  | bool (b : Bool)
  | int (n : Int)
  | float (x : Binary64)
  | text (s : String)
  | list (items : List Value)
  | mapping (entries : List (String × Value))
  | other
  deriving Inhabited

/-! ## Numbers -/

/-- Digits with groups of base sixty, each read by a function and the last one counting once. -/
def sexagesimal {α : Type} (combine : α → α → α) (read : List Char → Option α) (zero : α)
    (cs : List Char) : Option α :=
  (cs.splitOn ':').foldlM (fun total part => (read part).map (combine total)) zero

/-- The integer that a run of characters of a base writes; a run that is too long is a misuse of its
own. -/
def integerOf (base : Nat) (cs : List Char) : Except Fault Int :=
  match Text.readInt? base cs with
  | some n => .ok n
  | none => .error (.misuse .notNumber)

/-- The integer that a scalar writes: underscores are dropped; a sign, a mark of the base, or colons
decide how it is read. -/
def number (text : String) : Except Fault Int :=
  let (negative, cs) := Text.splitSign (text.toList.filter (· != '_'))
  let unsigned : Except Fault Int :=
    match cs with
    | [] => .error (.misuse .emptyNumber)
    | ['0'] => .ok 0
    | '0' :: 'b' :: r => integerOf 2 r
    | '0' :: 'x' :: r => integerOf 16 r
    | '0' :: r => integerOf 8 ('0' :: r)
    | cs =>
      if cs.contains ':' then
        match sexagesimal (fun total part => 60 * total + part) (Text.readInt? 10) 0 cs with
        | some n => .ok n
        | none => .error (.misuse .notNumber)
      else integerOf 10 cs
  unsigned.map fun n => if negative then -n else n

/-- The values that powers of sixty have as floating-point numbers, for the groups of a number of base
sixty from the last one on; a power beyond the finite values is a misuse. -/
def weigh : (power : Nat) → Binary64 → List Binary64 → Except Fault Binary64
  | _, total, [] => .ok total
  | power, total, x :: xs =>
    match Binary64.ofInt? (Nat.pow 60 power) with
    | some weight => weigh (power + 1) (total.add (x.mul weight)) xs
    | none => .error (.misuse .tooLarge)

/-- The floating-point number that a scalar writes: underscores are dropped, case is disregarded, and
colons separate groups of base sixty. -/
def floating (text : String) : Except Fault Binary64 :=
  let written := (text.toList.filter (· != '_')).map Char.toLower
  let (negative, cs) := Text.splitSign written
  let notNumber : Except Fault Binary64 := .error (.misuse .notNumber)
  let unsigned : Except Fault Binary64 :=
    if written.isEmpty then .error (.misuse .emptyNumber)
    else if cs == ".inf".toList then .ok (.infinite false)
    else if cs == ".nan".toList then .ok .nan
    else if cs.contains ':' then
      match (cs.splitOn ':').mapM Binary64.ofText? with
      | some parts => weigh 0 (Binary64.zero false) parts.reverse
      | none => notNumber
    else
      match Binary64.ofText? cs with
      | some x => .ok x
      | none => notNumber
  unsigned.map fun x => if negative then x.neg else x

/-! ## Moments and bytes -/

/-- Whether a year has a day more. -/
def isLeapYear (year : Nat) : Bool := year % 4 == 0 && (year % 100 != 0 || year % 400 == 0)

/-- How many days a month has. -/
def daysIn (year month : Nat) : Nat :=
  if month == 2 then if isLeapYear year then 29 else 28
  else if [4, 6, 9, 11].contains month then 30 else 31

/-- Whether a time of day is one, the difference of its clock aside. -/
def isTimeOfDay (hour minute second : Nat) : Bool := hour < 24 && minute < 60 && second < 60

/-- Why there is no such moment: the first part that is out of its range, from the difference of the
clock on, then from the year down. -/
def Moment.fault? (m : Moment) : Option Misuse :=
  if m.time.any fun (_, _, _, shift) => 24 * 60 ≤ shift then some .noSuchMoment
  else if m.year == 0 then some .noSuchYear
  else if m.month == 0 || 12 < m.month then some .noSuchMoment
  else if m.day == 0 || daysIn m.year m.month < m.day then some .noSuchDay
  else if m.time.any fun (hour, minute, second, _) => !isTimeOfDay hour minute second then
    some .noSuchMoment
  else none

/-- A text without the line break at its end, if it has one. -/
def withoutFinalBreak (cs : List Char) : List Char :=
  if cs.getLast? == some '\n' then cs.dropLast else cs

/-- The check of a scalar that is to be a moment. -/
def checkMoment (text : String) : Except Fault Unit :=
  match moment? (withoutFinalBreak text.toList) with
  | none => .error (.misuse .notMoment)
  | some m =>
    match m.fault? with
    | some fault => .error (.misuse fault)
    | none => .ok ()

/-- A character of the alphabet of base 64. -/
def isBase64Char (c : Char) : Bool := c.isAlphanum || c == '+' || c == '/'

/-- Whether base 64 text ends where a group ends: `place` counts the characters of the group so far
and `padding` the marks that fill it up. Other characters are passed over. -/
def endsGroup (place padding : Nat) : List Char → Bool
  | [] => place == 0
  | c :: r =>
    if c == '=' then
      if 2 ≤ place then
        if 4 ≤ place + padding + 1 then true else endsGroup place (padding + 1) r
      else endsGroup place padding r
    else if isBase64Char c then endsGroup ((place + 1) % 4) 0 r
    else endsGroup place padding r

/-- The check of a scalar that is to be bytes. -/
def checkBase64 (text : String) : Except Fault Unit :=
  if text.toList.all (fun c => c.toNat < 128) && endsGroup 0 0 text.toList then .ok ()
  else malformed

/-! ## Scalars -/

/-- The tag of a node. -/
def tagOf (g : NodeGraph) (id : NodeId) : Tag :=
  match g[id]? with
  | some n => n.tag
  | none => .unknown

/-- The body of a node. -/
def bodyOf (g : NodeGraph) (id : NodeId) : Option NodeBody :=
  match g[id]? with
  | some n => some n.body
  | none => none

/-- The words for truth values, in lower case. -/
def truthWords : List (String × Bool) :=
  [("yes", true), ("no", false), ("true", true), ("false", false), ("on", true), ("off", false)]

/-- The truth value that a word stands for, in any case. -/
def truth (text : String) : Except Fault Bool :=
  let word := String.ofList (text.toList.map Char.toLower)
  match truthWords.lookup word with
  | some b => .ok b
  | none => .error (.missingKey word)

/-- The text of a node as a scalar: a mapping stands for the value under its default key, which may
lead on, as far as there is `room`. -/
def scalarText (g : NodeGraph) : (room : Nat) → NodeId → Except Fault String
  | 0, _ => .error (.misuse .deepNesting)
  | room + 1, id =>
    match bodyOf g id with
    | some (.scalar text) => .ok text
    | some (.mapping entries) =>
      match entries.find? fun e => tagOf g e.1 == .defaultValue with
      | some e => scalarText g room e.2
      | none => malformed
    | _ => malformed

/-- Whether a tag makes a collection. -/
def Tag.isCollection : Tag → Bool
  | .sequence | .mapping | .set | .pairs => true
  | _ => false

/-- The check of a node that is to be a moment. A mapping that stands for a scalar is none. -/
def momentValue (g : NodeGraph) (id : NodeId) (text : String) : Except Fault Value :=
  match bodyOf g id with
  | some (.mapping _) => .error (.misuse (.notSearchable "list"))
  | _ => (checkMoment text).map fun _ => .other

/-- Whether a tag makes a value of the text of a node. -/
def Tag.readsText : Tag → Bool
  | .null | .bool | .int | .float | .text | .binary | .timestamp => true
  | _ => false

/-- The value of a node that has a text, by a tag. -/
def valueOf (g : NodeGraph) (id : NodeId) (text : String) : Tag → Except Fault Value
  | .null => .ok .null
  | .bool => (truth text).map .bool
  | .int => (number text).map .int
  | .float => (floating text).map .float
  | .timestamp => momentValue g id text
  | .binary => (checkBase64 text).map fun _ => .other
  | _ => .ok (.text text)

/-- The value of a node by a tag. A collection is filled later; the other tags make nothing. -/
def scalarValue (g : NodeGraph) (id : NodeId) (t : Tag) : Except Fault Value :=
  if t.isCollection then .ok .other
  else if t.readsText then do valueOf g id (← scalarText g stackRoom id) t
  else malformed

/-! ## Merging -/

/-- The entries of a mapping node. -/
def entriesOf (g : NodeGraph) (id : NodeId) : Option (List (NodeId × NodeId)) :=
  match bodyOf g id with
  | some (.mapping entries) => some entries
  | _ => none

/-- The graph in which a node is a mapping of some entries. -/
def setEntries (g : NodeGraph) (id : NodeId) (entries : List (NodeId × NodeId)) : NodeGraph :=
  g.modify id fun n => { n with body := .mapping entries }

/-- The graph in which those of some keys that are the default key are texts. -/
def settleKeys (g : NodeGraph) (keys : List NodeId) : NodeGraph :=
  keys.foldl (fun g k => g.modify k fun n =>
    { n with tag := if n.tag == .defaultValue then .text else n.tag }) g

/-- The value under the first merge key of a mapping, and the entries without it. -/
def firstMerged? (g : NodeGraph) (entries : List (NodeId × NodeId)) :
    Option (NodeId × List (NodeId × NodeId)) :=
  match entries.find? fun e => tagOf g e.1 == .merge with
  | some e => some (e.2, entries.eraseP fun e => tagOf g e.1 == .merge)
  | none => none

section Merging

-- how a mapping inside takes over the entries of those it merges
variable (inner : NodeGraph → NodeId → Except Fault NodeGraph)

/-- The entries of several nodes, which must be mappings. -/
def mergedParts : NodeGraph → List NodeId →
    Except Fault (NodeGraph × List (List (NodeId × NodeId)))
  | g, [] => .ok (g, [])
  | g, id :: ids =>
    match entriesOf g id with
    | none => malformed
    | some _ => do
      let g ← inner g id
      let own := (entriesOf g id).getD []
      let (g, rest) ← mergedParts g ids
      .ok (g, own :: rest)

/-- The entries of what stands under a merge key: a mapping, or a sequence of mappings, of which the
first one counts most and so comes last. -/
def merged (g : NodeGraph) (id : NodeId) : Except Fault (NodeGraph × List (NodeId × NodeId)) :=
  match bodyOf g id with
  | some (.mapping _) => do
    let g ← inner g id
    .ok (g, (entriesOf g id).getD [])
  | some (.sequence items) => (mergedParts inner g items).map fun r => (r.1, r.2.reverse.flatten)
  | _ => malformed

/-- The entries that a mapping takes over, each merge key being dropped before it is followed; `fuel`
bounds their number. -/
def takeOver (id : NodeId) : (fuel : Nat) → NodeGraph → (taken : List (NodeId × NodeId)) →
    Except Fault (NodeGraph × List (NodeId × NodeId))
  | 0, g, taken => .ok (g, taken)
  | fuel + 1, g, taken =>
    match firstMerged? g ((entriesOf g id).getD []) with
    | none => .ok (g, taken)
    | some (v, rest) => do
      let (g, entries) ← merged inner (setEntries g id rest) v
      takeOver id fuel g (taken ++ entries)

end Merging

/-- The graph in which a mapping has taken over the entries of those it merges, as far as there is
`room`: they come before its own, so that its own count. No other merge key comes to those it has. -/
def flatten : (room : Nat) → NodeGraph → NodeId → Except Fault NodeGraph
  | 0, _, _ => .error (.misuse .deepNesting)
  | room + 1, g, id => do
    let entries := (entriesOf g id).getD []
    let g := settleKeys g (entries.map (·.1))
    let (g, taken) ← takeOver (flatten room) id entries.length g []
    .ok (if taken.isEmpty then g else setEntries g id (taken ++ (entriesOf g id).getD []))

/-! ## Filling -/

/-- What is to be made next. -/
inductive Task where
  /-- The value of a node. -/
  | value (id : NodeId)
  /-- The key of an entry, which must not be a collection. -/
  | key (id : NodeId)
  /-- The two nodes of a mapping of one entry. -/
  | pair (id : NodeId)

/-- What is known while nodes are made: the graph, the nodes made, the latest first, and the collections
still to be filled. -/
structure Filling where
  graph : NodeGraph
  made : List (NodeId × Value) := []
  pending : List NodeId := []

namespace Filling

/-- Whether a node has been made. -/
def has (f : Filling) (id : NodeId) : Bool := (f.made.lookup id).isSome

/-- One more node made: a scalar at once, a collection to be filled later. A node is made once. -/
def make (f : Filling) (id : NodeId) : Except Fault Filling :=
  if f.has id then .ok f
  else
    let t := tagOf f.graph id
    (scalarValue f.graph id t).map fun v =>
      { f with
        made := (id, v) :: f.made
        pending := if t.isCollection then f.pending ++ [id] else f.pending }

/-- Nodes made, one after the other. -/
def perform (f : Filling) : List Task → Except Fault Filling
  | [] => .ok f
  | .value id :: ts => do perform (← f.make id) ts
  | .key id :: ts => do
    let f ← f.make id
    if (tagOf f.graph id).isCollection then malformed else perform f ts
  | .pair id :: ts =>
    match entriesOf f.graph id with
    | some [(k, v)] => do perform (← (← f.make k).make v) ts
    | _ => malformed

/-- What is to be made to fill a collection. -/
def enter (f : Filling) (id : NodeId) : Except Fault (Filling × List Task) :=
  match tagOf f.graph id, bodyOf f.graph id with
  | .sequence, some (.sequence items) => .ok (f, items.map .value)
  | .pairs, some (.sequence items) => .ok (f, items.map .pair)
  | .mapping, some (.mapping _) | .set, some (.mapping _) => do
    let g ← flatten stackRoom f.graph id
    .ok ({ f with graph := g },
      ((entriesOf g id).getD []).flatMap fun e => [.key e.1, .value e.2])
  | _, _ => malformed

/-- All collections filled, in the order in which they were made; `fuel` bounds their number. -/
def fill : (fuel : Nat) → Filling → Except Fault Filling
  | 0, f => .ok f
  | fuel + 1, f =>
    match f.pending with
    | [] => .ok f
    | id :: ids => do
      let (f, ts) ← { f with pending := ids }.enter id
      fill fuel (← f.perform ts)

end Filling

/-! ## Values -/

/-- The value of a node, down to a depth; deeper collections are not gone into. -/
def unfold (f : Filling) : (depth : Nat) → NodeId → Value
  | depth, id =>
    match tagOf f.graph id, bodyOf f.graph id, depth with
    | .sequence, some (.sequence items), depth + 1 => .list (items.map (unfold f depth))
    | .sequence, some (.sequence _), 0 => .list []
    | .pairs, some (.sequence items), _ => .list (items.map fun _ => .other)
    | .mapping, some (.mapping entries), depth + 1 =>
      .mapping (entries.reverse.filterMap fun e =>
        match f.made.lookup e.1 with
        | some (.text key) => some (key, unfold f depth e.2)
        | _ => none)
    | .mapping, some (.mapping _), 0 => .mapping []
    | _, _, _ => (f.made.lookup id).getD .other

/-- All nodes of a document made, from its root on. A graph has no more collections than nodes. -/
def construct (g : NodeGraph) (root : NodeId) : Except Fault Filling := do
  let f ← ({ graph := g } : Filling).perform [.value root]
  f.fill g.size

/-- The value of a text, down to a depth; null for a text without a document. -/
def load (depth : Nat) (text : String) : Except Fault Value := do
  let (root, g) ← compose text.toList
  match root with
  | none => .ok .null
  | some id => (construct g id).map fun f => unfold f depth id

end Subgraph.Yaml
