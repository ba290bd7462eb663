import Subgraph.Yaml.BlockText
import Subgraph.Yaml.Property
import Subgraph.Yaml.Quoted

/-!
# The tokens of a text

Tokens are found one after the other. Two things need a memory. Outside flow collections the columns
of the open block collections are kept, and a column further left closes them. And a token that may
turn out to be a key is remembered, on each level of flow collections one: when a colon follows on
the same line and not too far away, the mark of a key is put in front of it, and where it is the first
of its column, the start of a mapping.

The text is read no further than the next token needs it, so of what is wrong with a text the first is
met, be it with its tokens or with the document that they make up.

Contents

* `Candidate` — a token that may be a key;
* `Scan` — what is known so far;
* `Scan.token` — one more token;
* `Scan.supply`, `Scan.take` — the next token found, and taken;
* `Scan.start` — the scan of a text.
-/

namespace Subgraph.Yaml

/-- A token that may turn out to be a key: its number and its place. One that starts a line of a
block collection must be a key. -/
structure Candidate where
  number : Nat
  required : Bool
  index : Nat
  line : Nat
  column : Nat

/-- How far away a key may be from its colon. -/
def longestKey : Nat := 1024

/-- What is known of a text up to a place. -/
structure Scan where
  cursor : Cursor
  /-- The tokens found and not yet taken. -/
  found : List Token := []
  /-- How many tokens have been taken. -/
  taken : Nat := 0
  /-- How many flow collections are open; an end without a start counts too. -/
  flow : Int := 0
  /-- The column of the innermost open block collection; before the first column if none is open. -/
  indent : Int := -1
  /-- The columns of the block collections around it. -/
  outer : List Int := []
  /-- Whether a key may start here. -/
  keyAllowed : Bool := true
  /-- The candidates by the level of flow collections on which they stand. -/
  candidates : List (Int × Candidate) := []
  finished : Bool := false

namespace Scan

/-- The scan with one more token, read on at a place. -/
def push (s : Scan) (t : Token) (c : Cursor) : Scan :=
  { s with found := s.found ++ [t], cursor := c }

/-- The scan with one more token of some length. -/
def mark (s : Scan) (t : Token) (length : Nat) : Scan := s.push t (s.cursor.skip length)

/-! ## Gaps and indentation -/

/-- The scan after spaces, comments and line breaks; `fuel` bounds the number of lines. Outside flow
collections a key may start after a line break. -/
def skipGap : (fuel : Nat) → Scan → Scan
  | 0, s => s
  | fuel + 1, s =>
    let c := s.cursor.skipSpaces.skipComment
    match c.lineBreak? with
    | some (_, c) =>
      skipGap fuel { s with cursor := c, keyAllowed := s.keyAllowed || s.flow == 0 }
    | none => { s with cursor := c }

/-- The scan with the block collections closed that lie right of a column. -/
def unwind (column : Int) : (outer : List Int) → Scan → Scan
  | [], s => s
  | previous :: outer, s =>
    if s.flow == 0 && column < s.indent then
      unwind column outer { s with found := s.found ++ [.blockEnd], indent := previous, outer }
    else s

/-- The scan with the block collections closed that lie right of a column. -/
def closeTo (s : Scan) (column : Int) : Scan := unwind column s.outer s

/-- Whether a column opens a block collection, and the scan in which it is open. -/
def openAt (s : Scan) (column : Nat) : Bool × Scan :=
  if s.indent < column then (true, { s with indent := column, outer := s.indent :: s.outer })
  else (false, s)

/-! ## Candidates for keys -/

/-- The candidate of the current level. -/
def candidate? (s : Scan) : Option Candidate := s.candidates.lookup s.flow

/-- The scan without the candidate of the current level, which must not be one that has to be a
key. -/
def dropCandidate (s : Scan) : Except Fault Scan :=
  if s.candidate?.any (·.required) then malformed
  else .ok { s with candidates := s.candidates.filter fun p => p.1 != s.flow }

/-- The scan without the candidates that a colon at this place is too far from. -/
def dropStale (s : Scan) : Except Fault Scan :=
  let isStale (k : Candidate) : Bool :=
    k.line != s.cursor.line || k.index + longestKey < s.cursor.index
  if s.candidates.any fun p => isStale p.2 && p.2.required then malformed
  else .ok { s with candidates := s.candidates.filter fun p => !isStale p.2 }

/-- The scan in which the token at this place is a candidate, if a key may start here. -/
def addCandidate (s : Scan) : Except Fault Scan :=
  if s.keyAllowed then do
    let s ← s.dropCandidate
    let c := s.cursor
    let k : Candidate :=
      ⟨s.taken + s.found.length, s.flow == 0 && s.indent == c.column, c.index, c.line, c.column⟩
    .ok { s with candidates := (s.flow, k) :: s.candidates }
  else .ok s

/-! ## Tokens -/

/-- The end of the text. -/
def atEnd (s : Scan) : Except Fault Scan := do
  let s ← (s.closeTo (-1)).dropCandidate
  .ok { s with
    found := s.found ++ [.streamEnd], keyAllowed := false, candidates := [], finished := true }

/-- A line of instructions. -/
def atInstruction (s : Scan) : Except Fault Scan := do
  let s ← (s.closeTo (-1)).dropCandidate
  let (t, c) ← instruction s.cursor
  .ok ({ s with keyAllowed := false }.push t c)

/-- A mark between documents. -/
def atDocument (s : Scan) (t : Token) : Except Fault Scan := do
  let s ← (s.closeTo (-1)).dropCandidate
  .ok ({ s with keyAllowed := false }.mark t 3)

/-- The start of a flow collection. -/
def atFlowStart (s : Scan) (t : Token) : Except Fault Scan := do
  let s ← s.addCandidate
  .ok ({ s with flow := s.flow + 1, keyAllowed := true }.mark t 1)

/-- The end of a flow collection. -/
def atFlowEnd (s : Scan) (t : Token) : Except Fault Scan := do
  let s ← s.dropCandidate
  .ok ({ s with flow := s.flow - 1, keyAllowed := false }.mark t 1)

/-- The mark between items of a flow collection. -/
def atFlowEntry (s : Scan) : Except Fault Scan := do
  let s ← s.dropCandidate
  .ok ({ s with keyAllowed := true }.mark .flowEntry 1)

/-- A scan in which a collection starts at this column, unless one is open there or this is inside a
flow collection; outside, a key must be allowed here. -/
def openBlock (s : Scan) (t : Token) : Except Fault Scan :=
  if s.flow != 0 then .ok s
  else if !s.keyAllowed then malformed
  else
    let (opened, s) := s.openAt s.cursor.column
    .ok (if opened then { s with found := s.found ++ [t] } else s)

/-- The mark of an item of a block sequence. -/
def atBlockEntry (s : Scan) : Except Fault Scan := do
  let s ← s.openBlock .blockSequenceStart
  let s ← s.dropCandidate
  .ok ({ s with keyAllowed := true }.mark .blockEntry 1)

/-- The mark of a key. -/
def atKey (s : Scan) : Except Fault Scan := do
  let s ← s.openBlock .blockMappingStart
  let s ← s.dropCandidate
  .ok ({ s with keyAllowed := s.flow == 0 }.mark .key 1)

/-- The mark of a value. If there is a candidate, it is the key. -/
def atValue (s : Scan) : Except Fault Scan := do
  match s.candidate? with
  | some k =>
    let s := { s with candidates := s.candidates.filter fun p => p.1 != s.flow, keyAllowed := false }
    let (opened, s) := if s.flow == 0 then s.openAt k.column else (false, s)
    let marks : List Token := if opened then [.blockMappingStart, .key] else [.key]
    let before := k.number - s.taken
    let found := s.found.take before ++ marks ++ s.found.drop before
    .ok ({ s with found }.mark .value 1)
  | none =>
    let s ← s.openBlock .blockMappingStart
    let s ← s.dropCandidate
    .ok ({ s with keyAllowed := s.flow == 0 }.mark .value 1)

/-- A token that may be a key, read by a function. -/
def atCandidate (s : Scan) (read : Cursor → Except Fault (Token × Cursor)) : Except Fault Scan := do
  let s ← s.addCandidate
  let (t, c) ← read s.cursor
  .ok ({ s with keyAllowed := false }.push t c)

/-- A block scalar. -/
def atBlockText (s : Scan) (folded : Bool) : Except Fault Scan := do
  let s ← s.dropCandidate
  let (text, c) ← blockText folded s.indent s.cursor
  .ok ({ s with keyAllowed := true }.push (.scalar false text) c)

/-- A quoted scalar. -/
def atQuoted (s : Scan) (double : Bool) : Except Fault Scan :=
  s.atCandidate fun c => (quotedText double c).map fun r => (.scalar false r.1, r.2)

/-- A plain scalar. After a line break behind it a key may start. -/
def atPlain (s : Scan) : Except Fault Scan := do
  let s ← s.addCandidate
  let (text, broken, c) := plain (s.flow != 0) (s.indent + 1) s.cursor
  .ok ({ s with keyAllowed := broken }.push (.scalar true text) c)

/-- The scan with one more token, or with the marks of one. -/
def token (s : Scan) : Except Fault Scan := do
  let s ← (s.skipGap (s.cursor.rest.length + 1)).dropStale
  let s := s.closeTo s.cursor.column
  let c := s.cursor
  let inFlow := s.flow != 0
  match c.peek with
  | none => s.atEnd
  | some x =>
    if x == '%' && c.column == 0 then s.atInstruction
    else if x == '-' && c.column == 0 && c.atDocumentMark then s.atDocument .documentStart
    else if x == '.' && c.column == 0 && c.atDocumentMark then s.atDocument .documentEnd
    else if x == '[' then s.atFlowStart .flowSequenceStart
    else if x == '\x7b' then s.atFlowStart .flowMappingStart
    else if x == ']' then s.atFlowEnd .flowSequenceEnd
    else if x == '\x7d' then s.atFlowEnd .flowMappingEnd
    else if x == ',' then s.atFlowEntry
    else if x == '-' && isGap (c.peekAt 1) then s.atBlockEntry
    else if x == '?' && (inFlow || isGap (c.peekAt 1)) then s.atKey
    else if x == ':' && (inFlow || isGap (c.peekAt 1)) then s.atValue
    else if x == '*' then s.atCandidate fun c => (anchorName c).map fun r => (.alias r.1, r.2)
    else if x == '&' then s.atCandidate fun c => (anchorName c).map fun r => (.anchor r.1, r.2)
    else if x == '!' then s.atCandidate tag
    else if x == '|' && !inFlow then s.atBlockText false
    else if x == '>' && !inFlow then s.atBlockText true
    else if x == '\'' then s.atQuoted false
    else if x == '"' then s.atQuoted true
    else if startsPlain inFlow c then s.atPlain
    else malformed

/-! ## The next token -/

/-- The scan without the candidates that are too far back, and whether the next token needs more of the
text: none has been found, or it may still turn out to be a key. -/
def needsMore (s : Scan) : Except Fault (Bool × Scan) :=
  if s.finished then .ok (false, s)
  else if s.found.isEmpty then .ok (true, s)
  else s.dropStale.map fun s => (s.candidates.any fun p => p.2.number == s.taken, s)

/-- The scan read on until the next token is found; `fuel` bounds how many are found behind it. -/
def supplyWithin : (fuel : Nat) → Scan → Except Fault Scan
  | 0, s => .ok s
  | fuel + 1, s => do
    let (more, s) ← s.needsMore
    if more then supplyWithin fuel (← s.token) else .ok s

/-- The scan read on until the next token is found, unless there is none. Every token but the last
takes a character of the text. -/
def supply (s : Scan) : Except Fault Scan := supplyWithin (s.cursor.rest.length + 2) s

/-- The scan with the next token taken. -/
def take (s : Scan) : Scan := { s with found := s.found.drop 1, taken := s.taken + 1 }

/-- The scan of a text. Every character of it must be allowed; a byte order mark at its start is passed
over. -/
def start (text : List Char) : Except Fault Scan :=
  if text.all isAllowed then
    let c : Cursor := ⟨text, 0, 0, 0⟩
    .ok { cursor := if c.peek == some '\uFEFF' then c.next else c }
  else malformed

end Scan

end Subgraph.Yaml
