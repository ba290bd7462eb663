import Subgraph.Yaml.Tag
import Subgraph.Yaml.TokenStream

/-!
# Nodes

A document is a graph of nodes: an alias leads to the node of its anchor, which may lie around it. A
node refers to others by their indices.

A document is read from the scan of its text, which is read on token by token. The reader of a node
takes the reader of the nodes inside it, which has less room on the call stack; the readers of the four
collections and of a pair are given that one.

Contents

* `Node`, `NodeGraph` — nodes by index;
* `Composition` — what is known while a document is read from its text;
* `Composing` — the steps of reading one;
* `blockItems`, `indentlessItems`, `blockEntries`, `flowItems`, `flowEntries`, `pair` — what is inside;
* `node` — a node;
* `document`, `compose` — the root of the only document, if there is one.
-/

namespace Subgraph.Yaml

/-- The index of a node in its graph. -/
abbrev NodeId := Nat

/-- What a node consists of. -/
inductive NodeBody where
  | scalar (text : String)
  | sequence (items : List NodeId)
  | mapping (entries : List (NodeId × NodeId))
  deriving Inhabited

/-- A node. -/
structure Node where
  tag : Tag
  body : NodeBody

/-- Nodes by index. -/
abbrev NodeGraph := Array Node

/-- What is known of a document while it is read: the scan of its text, the nodes, the anchors, and the
short forms for tags. -/
structure Composition where
  scan : Scan
  nodes : NodeGraph := #[]
  anchors : List (String × NodeId) := []
  handles : List (String × String) := []

/-- A step of reading a document. -/
abbrev Composing (α : Type) := StateT Composition (Except Fault) α

/-- Where a node stands, which decides what it may be. -/
inductive Position where
  /-- In a block collection. -/
  | block
  /-- In an entry of a block mapping, where a sequence may stand at the column of the mapping. -/
  | entry
  /-- In a flow collection. -/
  | flow
  /-- In a flow sequence at the mark of a key: a mapping of one entry. -/
  | pair
  deriving DecidableEq

namespace Composing

/-! ## Tokens -/

/-- A step that finds the tokens not to be a document. -/
def refuse {α : Type} : Composing α := fun _ => malformed

/-- The next token. -/
def peek : Composing (Option Token) := fun s =>
  s.scan.supply.map fun scan => (scan.found.head?, { s with scan })

/-- Passes the next token. -/
def pass : Composing Unit := modify fun s => { s with scan := s.scan.take }

/-- Passes the next token if it is a given one, and tells whether it was. -/
def passIf (t : Token) : Composing Bool := do
  if (← peek) == some t then
    pass
    return true
  else return false

/-- Whether the next token is one of several. -/
def atOne (ts : List Token) : Composing Bool := do
  match ← peek with
  | some t => return ts.contains t
  | none => return false

/-! ## Nodes, anchors and tags -/

/-- A new node. -/
def add (n : Node) : Composing NodeId := do
  let s ← get
  set { s with nodes := s.nodes.push n }
  return s.nodes.size

/-- A node of nothing, which stands where a node is left out. -/
def absent : Composing NodeId := add ⟨.null, .scalar ""⟩

/-- A new node under an anchor. -/
def addUnder (anchor : Option String) (n : Node) : Composing NodeId := do
  let id ← add n
  if let some name := anchor then
    modify fun s => { s with anchors := (name, id) :: s.anchors }
  return id

/-- Gives a node its body. -/
def complete (id : NodeId) (body : NodeBody) : Composing Unit :=
  modify fun s => { s with nodes := s.nodes.modify id fun n => { n with body } }

/-- A collection, which is entered before what is inside is read, so that it can be referred to from
there. -/
def collection (anchor : Option String) (tag : Tag) (body : Composing NodeBody) :
    Composing NodeId := do
  let id ← addUnder anchor ⟨tag, .scalar ""⟩
  complete id (← body)
  return id

/-- The node that an alias leads to. -/
def referred (name : String) : Composing NodeId := do
  match (← get).anchors.lookup name with
  | some id => return id
  | none => refuse

/-- The check that an anchor is a new one. -/
def checkNew (anchor : Option String) : Composing Unit := do
  let s ← get
  if anchor.any fun name => (s.anchors.lookup name).isSome then refuse

/-- The name of a tag of its handle and its rest. -/
def tagName (handle : Option String) (suffix : String) : Composing String := do
  match handle with
  | none => return suffix
  | some handle =>
    match (← get).handles.lookup handle with
    | some expansion => return expansion ++ suffix
    | none => refuse

/-- The anchor in front of a node, if there is one. -/
def anchor? : Composing (Option String) := do
  match ← peek with
  | some (.anchor name) =>
    pass
    return some name
  | _ => return none

/-- The tag in front of a node, if there is one. -/
def tag? : Composing (Option (Option String × String)) := do
  match ← peek with
  | some (.tag handle suffix) =>
    pass
    return some (handle, suffix)
  | _ => return none

/-- The anchor and the tag in front of a node, in any order. -/
def properties : Composing (Option String × Option String) := do
  let early ← anchor?
  let written ← tag?
  let late ← if early.isNone && written.isSome then anchor? else pure none
  let name ←
    match written with
    | some (handle, suffix) => some <$> tagName handle suffix
    | none => pure none
  return (early.or late, name)

/-- The tag of a name; a default one for none and for the mark that leaves it open. -/
def tagOr (default : Tag) : Option String → Tag
  | none => default
  | some "!" => default
  | some name => Tag.ofName name

/-- A node that is left out behind an anchor or a tag; without either it must not be. -/
def leftOut (anchor name : Option String) : Composing NodeId := do
  if anchor.isNone && name.isNone then refuse
  else addUnder anchor ⟨tagOr .null name, .scalar ""⟩

/-! ## What is inside -/

section Inside

-- the reader of the nodes inside
variable (inner : Position → Composing NodeId)

/-- A node, unless one of some tokens follows, before which it is left out. -/
def nodeUnless (stop : List Token) (position : Position) : Composing NodeId := do
  if ← atOne stop then absent else inner position

/-- The value of an entry, unless it is left out together with its mark. -/
def valueUnless (stop : List Token) (position : Position) : Composing NodeId := do
  if ← passIf .value then nodeUnless inner stop position else absent

/-- The items of a block sequence; `fuel` bounds their number. -/
def blockItems : (fuel : Nat) → Composing (List NodeId)
  | 0 => refuse
  | fuel + 1 => do
    if ← passIf .blockEntry then
      let item ← nodeUnless inner [.blockEntry, .blockEnd] .block
      return item :: (← blockItems fuel)
    else if ← passIf .blockEnd then return []
    else refuse

/-- The items of a block sequence that has no column of its own; `fuel` bounds their number. -/
def indentlessItems : (fuel : Nat) → Composing (List NodeId)
  | 0 => refuse
  | fuel + 1 => do
    if ← passIf .blockEntry then
      let item ← nodeUnless inner [.blockEntry, .key, .value, .blockEnd] .block
      return item :: (← indentlessItems fuel)
    else return []

/-- The entries of a block mapping; `fuel` bounds their number. -/
def blockEntries : (fuel : Nat) → Composing (List (NodeId × NodeId))
  | 0 => refuse
  | fuel + 1 => do
    if ← passIf .blockEnd then return []
    else if ← passIf .key then
      let key ← nodeUnless inner [.key, .value, .blockEnd] .entry
      let value ← valueUnless inner [.key, .value, .blockEnd] .entry
      return (key, value) :: (← blockEntries fuel)
    else refuse

/-- The mark between two parts of a flow collection, which must stand before all but the first. -/
def separator (first : Bool) : Composing Unit := do
  unless first do
    unless ← passIf .flowEntry do refuse

/-- The items of a flow sequence; `fuel` bounds their number. -/
def flowItems : (fuel : Nat) → (first : Bool) → Composing (List NodeId)
  | 0, _ => refuse
  | fuel + 1, first => do
    if ← passIf .flowSequenceEnd then return []
    else
      separator first
      if ← atOne [.key] then
        let item ← inner .pair
        return item :: (← flowItems fuel false)
      else if ← passIf .flowSequenceEnd then return []
      else
        let item ← inner .flow
        return item :: (← flowItems fuel false)

/-- The entries of a flow mapping, of which one without a mark has no value; `fuel` bounds their
number. -/
def flowEntries : (fuel : Nat) → (first : Bool) → Composing (List (NodeId × NodeId))
  | 0, _ => refuse
  | fuel + 1, first => do
    if ← passIf .flowMappingEnd then return []
    else
      separator first
      if ← passIf .key then
        let key ← nodeUnless inner [.value, .flowEntry, .flowMappingEnd] .flow
        let value ← valueUnless inner [.flowEntry, .flowMappingEnd] .flow
        return (key, value) :: (← flowEntries fuel false)
      else if ← passIf .flowMappingEnd then return []
      else
        let key ← inner .flow
        let value ← absent
        return (key, value) :: (← flowEntries fuel false)

/-- The entry of a pair, behind its mark of a key. -/
def pairEntry : Composing (List (NodeId × NodeId)) := do
  pass
  let key ← nodeUnless inner [.value, .flowEntry, .flowSequenceEnd] .flow
  let value ← valueUnless inner [.flowEntry, .flowSequenceEnd] .flow
  return [(key, value)]

/-- What stands behind the anchor and the tag of a node; `fuel` bounds the number of parts of a
collection. -/
def content (fuel : Nat) (position : Position) (anchor name : Option String) :
    Composing NodeId := do
  let block : Bool := position != .flow
  let next ← peek
  checkNew anchor
  match next with
  | some .blockEntry =>
    if position = .entry then
      collection anchor (tagOr .sequence name) (.sequence <$> indentlessItems inner fuel)
    else leftOut anchor name
  | some (.scalar plain text) =>
    pass
    let default := if plain || name == some "!" then Tag.ofPlain text.toList else .text
    addUnder anchor ⟨tagOr default name, .scalar text⟩
  | some .flowSequenceStart =>
    pass
    collection anchor (tagOr .sequence name) (.sequence <$> flowItems inner fuel true)
  | some .flowMappingStart =>
    pass
    collection anchor (tagOr .mapping name) (.mapping <$> flowEntries inner fuel true)
  | some .blockSequenceStart =>
    if block then
      pass
      collection anchor (tagOr .sequence name) (.sequence <$> blockItems inner fuel)
    else leftOut anchor name
  | some .blockMappingStart =>
    if block then
      pass
      collection anchor (tagOr .mapping name) (.mapping <$> blockEntries inner fuel)
    else leftOut anchor name
  | _ => leftOut anchor name

end Inside

/-! ## Nodes -/

/-- A node. A plain scalar with a tag has its default only for the mark that leaves the tag open. `room`
says how many nodes may be inside one another here, and `fuel` bounds the number of parts of a
collection. -/
def node (fuel : Nat) : (room : Nat) → Position → Composing NodeId
  | 0, _ => fun _ => .error (.misuse .deepNesting)
  | room + 1, position => do
    if position = .pair then collection none .mapping (.mapping <$> pairEntry (node fuel room))
    else
      match ← peek with
      | some (.alias name) =>
        pass
        referred name
      | _ =>
        let (anchor, name) ← properties
        content (node fuel room) fuel position anchor name

/-- How many nodes may be inside one another: each takes two calls. -/
def nodeRoom : Nat := stackRoom / 2

/-! ## Documents -/

/-- The short forms for tags that every document has. -/
def commonHandles : List (String × String) := [("!", "!"), ("!!", Tag.namePrefix)]

/-- The instructions before a document, of which there may be one version and one of each handle;
`fuel` bounds their number. -/
def instructions : (fuel : Nat) → (versionSeen : Bool) → Composing Unit
  | 0, _ => refuse
  | fuel + 1, versionSeen => do
    match ← peek with
    | some (.instruction i) =>
      pass
      match i with
      | .version major =>
        if versionSeen || major != 1 then refuse else instructions fuel true
      | .handle handle expansion =>
        if ((← get).handles.lookup handle).isSome then refuse
        else
          modify fun s => { s with handles := (handle, expansion) :: s.handles }
          instructions fuel versionSeen
      | .other => instructions fuel versionSeen
    | _ => pure ()

/-- Passes the marks at the end of a document; `fuel` bounds their number. -/
def passEnds : (fuel : Nat) → Composing Unit
  | 0 => refuse
  | fuel + 1 => do
    if ← passIf .documentEnd then passEnds fuel else pure ()

/-- The root of a document behind its start, which is left out where the document ends at once. -/
def rootBehindStart (fuel : Nat) : Composing NodeId := do
  match ← peek with
  | some (.instruction _) | some .documentStart | some .documentEnd | some .streamEnd => absent
  | _ => node fuel nodeRoom .block

/-- The root of the first document, before which there are instructions or the mark of its start. -/
def explicitRoot (fuel : Nat) : Composing NodeId := do
  instructions fuel false
  modify fun s => { s with handles := s.handles ++ commonHandles }
  if ← passIf .documentStart then rootBehindStart fuel else refuse

/-- The root of the first document. -/
def root (fuel : Nat) : Composing NodeId := do
  match ← peek with
  | some (.instruction _) | some .documentStart => explicitRoot fuel
  | _ =>
    modify fun s => { s with handles := commonHandles }
    node fuel nodeRoom .block

/-- The end of the text, where it must be. Of another document the instructions are read before it is
refused. -/
def ending (fuel : Nat) : Composing Unit := do
  passEnds fuel
  unless ← atOne [.streamEnd] do
    modify fun s => { s with handles := [] }
    instructions fuel false
    refuse

/-- The root of the only document; nothing if there is none. -/
def document (fuel : Nat) : Composing (Option NodeId) := do
  if ← atOne [.streamEnd] then return none
  else
    let id ← root fuel
    ending fuel
    return some id

end Composing

/-- The graph of the only document that a text holds, and its root, if there is a document. No character
makes more than four tokens. -/
def compose (text : List Char) : Except Fault (Option NodeId × NodeGraph) := do
  let scan ← Scan.start text
  let (root, s) ← (Composing.document (4 * text.length + 8)).run { scan }
  .ok (root, s.nodes)

end Subgraph.Yaml
