import Subgraph.Failure
import Subgraph.Text.Number

/-!
# Reading YAML text

Characters, and a place in a text from which it is read on. The place knows its line and its column,
by which YAML tells structure.

Contents

* `Fault` — why a text has no value;
* `isBreak`, `isGap`, `isAllowed` — classes of characters;
* `Cursor` — a place in a text: `peek`, `next`, `skip`, `span`, `lineBreak?`.
-/

namespace Subgraph.Yaml

/-- Why a text has no value: it is no YAML document, or a part of it cannot be made into a value. -/
inductive Fault where
  | malformed
  | misuse (misuse : Misuse)
  | missingKey (key : String)

/-- A text that is no YAML document. -/
abbrev malformed {α : Type} : Except Fault α := .error .malformed

/-! ## Characters -/

/-- A line break. -/
def isBreak (c : Char) : Bool :=
  c == '\n' || c == '\r' || c == '\u0085' || c == '\u2028' || c == '\u2029'

/-- A space or a line break, or the end of the text. -/
def isGap : Option Char → Bool
  | none => true
  | some c => c == ' ' || c == '\t' || isBreak c

/-- A space or a line break other than a tab, or the end of the text. -/
def isSpaceGap : Option Char → Bool
  | some '\t' => false
  | c => isGap c

/-- A line break or the end of the text. -/
def isLineEnd : Option Char → Bool
  | none => true
  | some c => isBreak c

/-- The characters that a document may have. -/
def isAllowed (c : Char) : Bool :=
  let n := c.toNat
  n == 9 || n == 10 || n == 13 || (0x20 ≤ n && n ≤ 0x7E) || n == 0x85 || (0xA0 ≤ n && n ≤ 0xD7FF) ||
    (0xE000 ≤ n && n ≤ 0xFFFD) || (0x10000 ≤ n && n ≤ 0x10FFFF)

/-- A character of a plain word: a letter or digit of ASCII, a hyphen or an underscore. -/
def isWordChar (c : Char) : Bool := c.isAlphanum || c == '-' || c == '_'

/-- A hexadecimal digit. -/
def isHexDigit (c : Char) : Bool := (Text.baseDigit? 16 c).isSome

/-! ## Places in a text -/

/-- A place in a text: what follows, how much came before, and the line and the column. -/
structure Cursor where
  rest : List Char
  index : Nat := 0
  line : Nat := 0
  column : Nat := 0

namespace Cursor

/-- The character some places ahead; nothing beyond the end. -/
def peekAt (c : Cursor) (n : Nat) : Option Char := c.rest[n]?

/-- The next character. -/
def peek (c : Cursor) : Option Char := c.rest.head?

/-- The place after the next character. A line break ends the line, the first half of a double one
does not, and a byte order mark takes no column. -/
def next (c : Cursor) : Cursor :=
  match c.rest with
  | [] => c
  | x :: r =>
    if isBreak x && !(x == '\r' && r.head? == some '\n') then
      ⟨r, c.index + 1, c.line + 1, 0⟩
    else if x == '\uFEFF' then ⟨r, c.index + 1, c.line, c.column⟩
    else ⟨r, c.index + 1, c.line, c.column + 1⟩

/-- The place some characters on. -/
def skip (c : Cursor) : Nat → Cursor
  | 0 => c
  | n + 1 => c.next.skip n

/-- The characters up to the first outside a class, and the place after them. -/
def span (c : Cursor) (p : Char → Bool) : List Char × Cursor :=
  let run := c.rest.takeWhile p
  (run, c.skip run.length)

/-- The place after the characters of a class. -/
def skipWhile (c : Cursor) (p : Char → Bool) : Cursor := (c.span p).2

/-- The place after the spaces. -/
def skipSpaces (c : Cursor) : Cursor := c.skipWhile (· == ' ')

/-- The place after a comment, if there is one. -/
def skipComment (c : Cursor) : Cursor :=
  if c.peek == some '#' then c.skipWhile fun x => !isBreak x else c

/-- The line break that follows, as it counts in a text, and the place after it. -/
def lineBreak? (c : Cursor) : Option (Char × Cursor) :=
  match c.rest with
  | '\r' :: '\n' :: _ => some ('\n', c.skip 2)
  | x :: _ =>
    if x == '\u2028' || x == '\u2029' then some (x, c.next)
    else if isBreak x then some ('\n', c.next)
    else none
  | [] => none

/-- Whether a mark of three characters between documents follows. -/
def atDocumentMark (c : Cursor) : Bool :=
  (c.rest.take 3 == ['-', '-', '-'] || c.rest.take 3 == ['.', '.', '.']) && isGap (c.peekAt 3)

/-- The place after the rest of a line, which may hold spaces and a comment only. -/
def skipLine (c : Cursor) : Except Fault Cursor :=
  let c := c.skipSpaces.skipComment
  if isLineEnd c.peek then .ok ((c.lineBreak?.map (·.2)).getD c) else malformed

end Cursor

end Subgraph.Yaml
