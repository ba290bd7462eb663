import Subgraph.Yaml.Cursor

/-!
# Plain scalars

A plain scalar ends before a comment, before a colon with a gap behind it, inside a flow collection
before its marks, and before a line that is indented too little. Line breaks inside it are folded: a
single one becomes a space, of several the first is dropped.

Contents

* `startsPlain` — where a plain scalar may start;
* `plainRun` — a run of it without spaces;
* `foldedBreak` — a folded line break;
* `plain` — the whole.
-/

namespace Subgraph.Yaml

/-- The marks of flow collections. -/
def flowMarks : List Char := [',', '[', ']', '\x7b', '\x7d']

/-- The characters that no plain scalar starts with, gaps apart. -/
def indicators : List Char :=
  ['-', '?', ':', ',', '[', ']', '\x7b', '\x7d', '#', '&', '*', '!', '|', '>', '\'', '"', '%', '@',
    '\u0060']

/-- Whether a plain scalar starts at a place. Three of the marks may start one if no gap follows, two
of them outside flow collections only. -/
def startsPlain (flow : Bool) (c : Cursor) : Bool :=
  match c.peek with
  | none => false
  | some x =>
    if isGap (some x) then false
    else if !indicators.contains x then true
    else !isGap (c.peekAt 1) && (x == '-' || (!flow && (x == '?' || x == ':')))

/-- The run of a plain scalar up to the next gap or its end. -/
def plainRun (flow : Bool) : List Char → List Char
  | [] => []
  | x :: r =>
    if isGap (some x) || (x == ':' && (isGap r.head? || (flow && r.head?.any flowMarks.contains))) ||
        (flow && (x == '?' || flowMarks.contains x)) then []
    else x :: plainRun flow r

/-- What a line break and the breaks behind it become. -/
def foldedBreak (first : Char) (others : List Char) : List Char :=
  if first != '\n' then first :: others else if others.isEmpty then [' '] else others

/-- The breaks and the spaces between them; nothing if they lead to a mark between documents. -/
def plainBreaks : (fuel : Nat) → Cursor → List Char → Option (List Char) × Cursor
  | 0, c, breaks => (some breaks, c)
  | fuel + 1, c, breaks =>
    if c.atDocumentMark && c.column == 0 then (none, c)
    else
      let c := c.skipSpaces
      match c.lineBreak? with
      | some (b, c) => plainBreaks fuel c (breaks ++ [b])
      | none => (some breaks, c)

/-- The gap behind a run: the text it becomes, whether it has a line break, and the place after. -/
def plainGap (c : Cursor) : List Char × Bool × Cursor :=
  let (spaces, c) := c.span (· == ' ')
  match c.lineBreak? with
  | none => (spaces, false, c)
  | some (first, c) =>
    match plainBreaks (c.rest.length + 1) c [] with
    | (none, c) => ([], true, c)
    | (some others, c) => (foldedBreak first others, true, c)

/-- The runs of a plain scalar from a place on, `gap` being the text of the gap before it and `broken`
whether that has a line break. -/
def plainRuns (flow : Bool) (indent : Int) :
    (fuel : Nat) → (gap : List Char) → (broken : Bool) → Cursor → List Char × Bool × Cursor
  | 0, _, broken, c => ([], broken, c)
  | fuel + 1, gap, broken, c =>
    let run := if c.peek == some '#' then [] else plainRun flow c.rest
    if run.isEmpty then ([], broken, c)
    else
      let (gap', broken', c) := plainGap (c.skip run.length)
      if gap'.isEmpty || c.peek == some '#' || (!flow && (c.column : Int) < indent) then
        (gap ++ run, broken', c)
      else
        let (rest, broken'', c) := plainRuns flow indent fuel gap' broken' c
        (gap ++ run ++ rest, broken'', c)

/-- A plain scalar: its text, whether a line break follows it, and the place after it. -/
def plain (flow : Bool) (indent : Int) (c : Cursor) : String × Bool × Cursor :=
  let (text, broken, c) := plainRuns flow indent (c.rest.length + 1) [] false c
  (String.ofList text, broken, c)

end Subgraph.Yaml
