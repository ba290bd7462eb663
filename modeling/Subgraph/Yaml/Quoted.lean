import Subgraph.Yaml.Plain

/-!
# Quoted scalars

Between single quotes only the quote itself is written twice; between double quotes a backslash
starts an escape. Line breaks are folded as in plain scalars, and spaces around them are dropped.

Contents

* `escapeLetters`, `escapeWidths` — the escapes;
* `quotedText` — a quoted scalar.
-/

namespace Subgraph.Yaml

/-- The escapes of one letter. -/
def escapeLetters : List (Char × Char) :=
  [('0', '\x00'), ('a', '\x07'), ('b', '\x08'), ('t', '\t'), ('\t', '\t'), ('n', '\n'),
    ('v', '\x0B'), ('f', '\x0C'), ('r', '\r'), ('e', '\x1B'), (' ', ' '), ('"', '"'), ('\\', '\\'),
    ('/', '/'), ('N', '\u0085'), ('_', '\u00A0'), ('L', '\u2028'), ('P', '\u2029')]

/-- The escapes by number, and how many digits the number has. -/
def escapeWidths : List (Char × Nat) := [('x', 2), ('u', 4), ('U', 8)]

/-- The breaks between two lines of a quoted scalar. -/
def quotedBreaks : (fuel : Nat) → Cursor → List Char → Except Fault (List Char × Cursor)
  | 0, c, breaks => .ok (breaks, c)
  | fuel + 1, c, breaks =>
    if c.atDocumentMark then malformed
    else
      let c := c.skipWhile fun x => x == ' ' || x == '\t'
      match c.lineBreak? with
      | some (b, c) => quotedBreaks fuel c (breaks ++ [b])
      | none => .ok (breaks, c)

/-- A gap inside a quoted scalar. -/
def quotedGap (c : Cursor) : Except Fault (List Char × Cursor) :=
  let (spaces, c) := c.span fun x => x == ' ' || x == '\t'
  match c.peek, c.lineBreak? with
  | none, _ => malformed
  | _, none => .ok (spaces, c)
  | _, some (first, c) =>
    (quotedBreaks (c.rest.length + 1) c []).map fun r => (foldedBreak first r.1, r.2)

/-- The character of a number. -/
def charOf (n : Nat) : Except Fault Char :=
  if 0x7FFFFFFF < n then .error (.misuse .longCharacter)
  else if 0x10FFFF < n then .error (.misuse .noSuchCharacter)
  else if 0xD800 ≤ n && n ≤ 0xDFFF then .error (.misuse .halfCharacter)
  else .ok (Char.ofNat n)

/-- An escape, behind its backslash. -/
def escape (c : Cursor) : Except Fault (List Char × Cursor) :=
  match c.peek with
  | none => malformed
  | some x =>
    match escapeLetters.lookup x, escapeWidths.lookup x, c.lineBreak? with
    | some y, _, _ => .ok ([y], c.next)
    | none, some width, _ =>
      let digits := c.next.rest.take width
      if digits.length < width then malformed
      else
        match Text.baseNumeral? 16 digits with
        | some n => (charOf n).map fun y => ([y], c.next.skip width)
        | none => malformed
    | none, none, some (_, c) => quotedBreaks (c.rest.length + 1) c []
    | none, none, none => malformed

/-- A character that stands for itself between quotes. -/
def isQuotedChar (x : Char) : Bool := !(isGap (some x) || x == '\'' || x == '"' || x == '\\')

/-- The pieces of a quoted scalar up to its closing quote. -/
def quotedPieces (double : Bool) : (fuel : Nat) → Cursor → Except Fault (List Char × Cursor)
  | 0, _ => malformed
  | fuel + 1, c => do
    let (piece, c, closed) ←
      match c.peek with
      | none => malformed
      | some x =>
        if isQuotedChar x then
          let (run, c) := c.span isQuotedChar
          .ok (run, c, false)
        else if !double && x == '\'' && c.peekAt 1 == some '\'' then .ok (['\''], c.skip 2, false)
        else if x == (if double then '"' else '\'') then .ok ([], c.next, true)
        else if double && x == '\\' then (escape c.next).map fun r => (r.1, r.2, false)
        else if isGap (some x) then (quotedGap c).map fun r => (r.1, r.2, false)
        else .ok ([x], c.next, false)
    if closed then .ok ([], c)
    else
      let (rest, c) ← quotedPieces double fuel c
      .ok (piece ++ rest, c)

/-- A quoted scalar. -/
def quotedText (double : Bool) (c : Cursor) : Except Fault (String × Cursor) :=
  (quotedPieces double (c.rest.length + 1) c.next).map fun r => (String.ofList r.1, r.2)

end Subgraph.Yaml
