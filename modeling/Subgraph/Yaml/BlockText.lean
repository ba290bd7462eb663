import Subgraph.Yaml.Cursor

/-!
# Block scalars

A block scalar is a header — its mark, a hint about the indentation, and what becomes of the breaks
at its end — and lines of one indentation. A literal block keeps its line breaks; a folded one joins
lines that are not indented further.

Contents

* `BlockHeader`, `blockHeader` — the header;
* `blockBreaks`, `leadingBreaks` — empty lines;
* `blockText` — the whole.
-/

namespace Subgraph.Yaml

/-- What becomes of the line breaks at the end of a block. -/
inductive Chomping where
  | strip
  | clip
  | keep
  deriving DecidableEq, Repr

/-- The header of a block. -/
structure BlockHeader where
  chomping : Chomping := .clip
  indentation : Option Nat := none

/-- The header, behind the mark of the block. -/
def blockHeader (c : Cursor) : Except Fault (BlockHeader × Cursor) := do
  let chomp (c : Cursor) : Option Chomping × Cursor :=
    match c.peek with
    | some '+' => (some .keep, c.next)
    | some '-' => (some .strip, c.next)
    | _ => (none, c)
  let indentation (c : Cursor) : Except Fault (Option Nat × Cursor) :=
    match c.peek with
    | some x =>
      if x == '0' then malformed
      else if x.isDigit then .ok (some (x.toNat - '0'.toNat), c.next)
      else .ok (none, c)
    | none => .ok (none, c)
  let (early, c) := chomp c
  let (hint, c) ← indentation c
  let (late, c) := if early.isNone && hint.isSome then chomp c else (none, c)
  if isSpaceGap c.peek then
    let c ← c.skipLine
    .ok (⟨(early.or late).getD .clip, hint⟩, c)
  else malformed

/-- The empty lines from a place on, where up to `indent` spaces count as none. -/
def blockBreaks (indent : Nat) : (fuel : Nat) → Cursor → List Char × Cursor
  | 0, c => ([], c)
  | fuel + 1, c =>
    let spaces := (c.rest.takeWhile (· == ' ')).length
    let c := c.skip (min spaces (indent - c.column))
    match c.lineBreak? with
    | some (b, c) =>
      let (rest, c) := blockBreaks indent fuel c
      (b :: rest, c)
    | none => ([], c)

/-- The empty lines before the first line with content, and the greatest indentation among them and
it. -/
def leadingBreaks : (fuel : Nat) → (deepest : Nat) → Cursor → List Char × Nat × Cursor
  | 0, deepest, c => ([], deepest, c)
  | fuel + 1, deepest, c =>
    let c := c.skipSpaces
    let deepest := max deepest c.column
    match c.lineBreak? with
    | some (b, c) =>
      let (rest, deepest, c) := leadingBreaks fuel deepest c
      (b :: rest, deepest, c)
    | none => ([], deepest, c)

/-- A space or a tab ahead. -/
def atIndent (c : Cursor) : Bool := c.peek == some ' ' || c.peek == some '\t'

/-- The lines of a block from a line with content on: `breaks` are the empty lines before it. -/
def blockLines (folded : Bool) (chomping : Chomping) (indent : Nat) :
    (fuel : Nat) → (breaks : List Char) → (lineBreak : List Char) → Cursor → List Char × Cursor
  | 0, _, _, c => ([], c)
  | fuel + 1, breaks, lineBreak, c =>
    if c.column != indent || c.peek.isNone then
      ((if chomping = .strip then [] else lineBreak) ++ (if chomping = .keep then breaks else []), c)
    else
      let solid := !atIndent c
      let (line, c) := c.span fun x => !isBreak x
      let (lineBreak, c) :=
        match c.lineBreak? with
        | some (b, c) => ([b], c)
        | none => ([], c)
      let (breaks', c) := blockBreaks indent (c.rest.length + 1) c
      let joint :=
        if c.column != indent || c.peek.isNone then []
        else if folded && lineBreak == ['\n'] && solid && !atIndent c then
          if breaks'.isEmpty then [' '] else []
        else lineBreak
      let (rest, c) := blockLines folded chomping indent fuel breaks' lineBreak c
      (breaks ++ line ++ joint ++ rest, c)

/-- A block scalar inside a collection of an indentation. -/
def blockText (folded : Bool) (parent : Int) (c : Cursor) : Except Fault (String × Cursor) := do
  let (header, c) ← blockHeader c.next
  let least := max 1 (parent + 1).toNat
  let (breaks, indent, c) :=
    match header.indentation with
    | some n =>
      let indent := least + n - 1
      let (breaks, c) := blockBreaks indent (c.rest.length + 1) c
      (breaks, indent, c)
    | none =>
      let (breaks, deepest, c) := leadingBreaks (c.rest.length + 1) 0 c
      (breaks, max least deepest, c)
  let (text, c) := blockLines folded header.chomping indent (c.rest.length + 2) breaks [] c
  .ok (String.ofList text, c)

end Subgraph.Yaml
