import Subgraph.Yaml.Cursor
import Subgraph.Yaml.Token

/-!
# Properties of nodes

Anchors, aliases and tags, and the instructions before a document.

Contents

* `anchorName` — the name of an anchor or an alias;
* `tagUri`, `tagHandle`, `tag` — tags;
* `instruction` — a line of instructions.
-/

namespace Subgraph.Yaml

/-! ## Anchors -/

/-- What may follow the name of an anchor or an alias. -/
def endsAnchor : Option Char → Bool
  | none => true
  | some c => isGap (some c) || ['?', ':', ',', ']', '}', '%', '@', '\u0060'].contains c

/-- The name of an anchor or an alias, behind its mark. -/
def anchorName (c : Cursor) : Except Fault (String × Cursor) :=
  let (name, c) := c.next.span isWordChar
  if name.isEmpty || !endsAnchor c.peek then malformed else .ok (String.ofList name, c)

/-! ## Tags -/

/-- A character of an address that stands for itself. -/
def isUriChar (c : Char) : Bool :=
  c.isAlphanum ||
    ['-', ';', '/', '?', ':', '@', '&', '=', '+', '$', ',', '_', '.', '!', '~', '*', '\'', '(', ')',
      '[', ']'].contains c

/-- The bytes that a run of escapes in an address stands for, and the place after it; `fuel` bounds
their number. -/
def escapedBytes : (fuel : Nat) → Cursor → Except Fault (List UInt8 × Cursor)
  | 0, c => .ok ([], c)
  | fuel + 1, c =>
    if c.peek == some '%' then
      match c.peekAt 1, c.peekAt 2 with
      | some a, some b =>
        match Text.baseNumeral? 16 [a, b] with
        | some n => (escapedBytes fuel (c.skip 3)).map fun r => (n.toUInt8 :: r.1, r.2)
        | none => malformed
      | _, _ => malformed
    else .ok ([], c)

/-- An address with its escapes resolved; `fuel` bounds the number of its pieces. -/
def uriPieces : (fuel : Nat) → Cursor → Except Fault (String × Cursor)
  | 0, c => .ok ("", c)
  | fuel + 1, c => do
    let (plain, c) := c.span isUriChar
    if c.peek == some '%' then
      let (bytes, c) ← escapedBytes (c.rest.length + 1) c
      match String.fromUTF8? ⟨bytes.toArray⟩ with
      | none => malformed
      | some s =>
        let (rest, c) ← uriPieces fuel c
        .ok (String.ofList plain ++ s ++ rest, c)
    else .ok (String.ofList plain, c)

/-- An address, which must not be empty. -/
def tagUri (c : Cursor) : Except Fault (String × Cursor) :=
  if c.peek.any fun x => isUriChar x || x == '%' then uriPieces (c.rest.length + 1) c
  else malformed

/-- The handle of a tag: one mark, or a word between two of them. -/
def tagHandle (c : Cursor) : Except Fault (String × Cursor) :=
  if c.peek != some '!' then malformed
  else if c.peekAt 1 == some ' ' then .ok ("!", c.next)
  else
    let (word, c) := c.next.span isWordChar
    if c.peek == some '!' then .ok ("!" ++ String.ofList word ++ "!", c.next) else malformed

/-- A tag, behind which there must be a gap. -/
def tag (c : Cursor) : Except Fault (Token × Cursor) := do
  let (handle, suffix, c) ←
    if c.peekAt 1 == some '<' then do
      let (uri, c) ← tagUri (c.skip 2)
      if c.peek == some '>' then .ok ((none : Option String), uri, c.next) else malformed
    else if isGap (c.peekAt 1) then .ok (none, "!", c.next)
    else
      let ahead := c.next.rest.takeWhile fun x => x != '!' && !isSpaceGap (some x)
      if c.next.rest[ahead.length]? == some '!' then do
        let (handle, c) ← tagHandle c
        let (uri, c) ← tagUri c
        .ok (some handle, uri, c)
      else do
        let (uri, c) ← tagUri c.next
        .ok (some "!", uri, c)
  if isSpaceGap c.peek then .ok (.tag handle suffix, c) else malformed

/-! ## Instructions -/

/-- A number of a version. -/
def versionNumber (c : Cursor) : Except Fault (Nat × Cursor) :=
  let (digits, c) := c.span Char.isDigit
  if digits.isEmpty then malformed
  else if Text.digitLimit < digits.length then .error (.misuse (.longNumeral digits.length))
  else .ok (Text.numeral digits, c)

/-- The version that an instruction states. -/
def versionInstruction (c : Cursor) : Except Fault (Instruction × Cursor) := do
  let (major, c) ← versionNumber c.skipSpaces
  if c.peek != some '.' then malformed
  else
    let (_, c) ← versionNumber c.next
    if isSpaceGap c.peek then .ok (.version major, c) else malformed

/-- The short form for tags that an instruction states. -/
def handleInstruction (c : Cursor) : Except Fault (Instruction × Cursor) := do
  let (handle, c) ← tagHandle c.skipSpaces
  if c.peek != some ' ' then malformed
  else
    let (expansion, c) ← tagUri c.skipSpaces
    if isSpaceGap c.peek then .ok (.handle handle expansion, c) else malformed

/-- A line of instructions, behind its mark. -/
def instruction (c : Cursor) : Except Fault (Token × Cursor) := do
  let (name, c) := c.next.span isWordChar
  if name.isEmpty || !isSpaceGap c.peek then malformed
  else
    let (i, c) ←
      if name == "YAML".toList then versionInstruction c
      else if name == "TAG".toList then handleInstruction c
      else .ok (.other, c.skipWhile fun x => !isBreak x)
    let c ← c.skipLine
    .ok (.instruction i, c)

end Subgraph.Yaml
