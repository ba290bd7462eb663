import Subgraph.Text.Hex

/-!
# Texts in a document

A text stands in a document between double quotes on one line, or as a block between triple quotes.
A description is written as a block where the block reads back as it.

Contents

* `escapeChar`, `stringLiteral` — a text between double quotes;
* `isBlockText`, `blockString` — a text as a block;
* `description` — the description before an element, with the indentation of the element.
-/

namespace Subgraph.Sdl

open Text

/-! ## Between double quotes -/

/-- A character between double quotes: the quote and the backslash behind a backslash, the controls
by their letter or their number, all others as they are. -/
def escapeChar (c : Char) : List Char :=
  if c = '"' then ['\\', '"']
  else if c = '\\' then ['\\', '\\']
  else if c.toNat = 8 then ['\\', 'b']
  else if c.toNat = 12 then ['\\', 'f']
  else if c = '\n' then ['\\', 'n']
  else if c = '\r' then ['\\', 'r']
  else if c = '\t' then ['\\', 't']
  else if c.toNat < 0x20 || (0x7F ≤ c.toNat && c.toNat < 0xA0) then
    '\\' :: 'u' :: hexTextUpper 4 c.toNat
  else [c]

/-- A text between double quotes. -/
def stringLiteral (s : String) : String :=
  String.ofList ('"' :: s.toList.flatMap escapeChar ++ ['"'])

/-! ## Blocks -/

/-- A space or a tab. -/
def isIndent (c : Char) : Bool := c == ' ' || c == '\t'

/-- What is known of a text while its lines are scanned. -/
structure LineScan where
  /-- The current line is empty or indentation so far. -/
  emptyLine : Bool := true
  /-- The current line starts with indentation. -/
  indented : Bool := false
  /-- Every line with content so far starts with indentation. -/
  commonIndent : Bool := true
  /-- A line end has been met. -/
  severalLines : Bool := false

/-- The scan after one more character; nothing if the text cannot be a block. -/
def LineScan.step (s : LineScan) (c : Char) : Option LineScan :=
  if c = '\n' then
    if s.emptyLine && !s.severalLines then none
    else some { s with severalLines := true, emptyLine := true, indented := false }
  else if isIndent c then some { s with indented := s.indented || s.emptyLine }
  else if c.toNat ≤ 0x0F then none
  else some { s with commonIndent := s.commonIndent && s.indented, emptyLine := false }

/-- Whether a text reads back from a block: it has no control characters, no empty first or last
line, and no indentation common to all of its lines. -/
def isBlockText (s : String) : Bool :=
  s.isEmpty ||
    match s.toList.foldlM LineScan.step {} with
    | none => false
    | some scan => !scan.emptyLine && !(scan.commonIndent && scan.severalLines)

/-- A text in which no three double quotes end the block. -/
def escapeTripleQuotes : List Char → List Char
  | '"' :: '"' :: '"' :: r => '\\' :: '"' :: '"' :: '"' :: escapeTripleQuotes r
  | c :: r => c :: escapeTripleQuotes r
  | [] => []

/-- The lines of a text, cut at line feeds and carriage returns and at the two together. -/
def lines : List Char → List (List Char)
  | [] => [[]]
  | '\r' :: '\n' :: r => [] :: lines r
  | c :: r =>
    if c = '\n' ∨ c = '\r' then [] :: lines r
    else
      match lines r with
      | l :: ls => (c :: l) :: ls
      | [] => [[c]]

/-- Whether a line is empty or starts with indentation. -/
def isFreeLine (l : List Char) : Bool := l.head?.all isIndent

/-- A text as a block. It stands on lines of its own if it is long, has several lines, or ends in a
character that would join the closing quotes. -/
def blockString (s : String) : String :=
  let escaped := escapeTripleQuotes s.toList
  let ls := lines escaped
  let single := ls.length == 1
  let forceLead := 1 < ls.length && (ls.drop 1).all isFreeLine
  let tripleEnd := ['\\', '"', '"', '"'].isSuffixOf escaped
  let forceTrail :=
    (s.toList.getLast? == some '"' && !tripleEnd) || s.toList.getLast? == some '\\'
  let multiple :=
    !single || 70 < s.length || forceTrail || forceLead || tripleEnd
  let skipLead := single && s.toList.head?.any isIndent
  "\"\"\"" ++ (if (multiple && !skipLead) || forceLead then "\n" else "") ++
    String.ofList escaped ++ (if multiple || forceTrail then "\n" else "") ++ "\"\"\""

/-! ## Descriptions -/

/-- A text whose every further line starts with an indentation. -/
def indentLines (indent : String) (s : String) : String :=
  String.ofList (s.toList.flatMap fun c => if c = '\n' then '\n' :: indent.toList else [c])

/-- The description before an element of an indentation. Inside a block it is set off by an empty
line, unless the element is the first of the block. -/
def description (text : Option String) (indent : String) (first : Bool) : String :=
  match text with
  | none => ""
  | some s =>
    let block := if isBlockText s then blockString s else stringLiteral s
    (if indent ≠ "" ∧ !first then "\n" ++ indent else indent) ++ indentLines indent block ++ "\n"

end Subgraph.Sdl
