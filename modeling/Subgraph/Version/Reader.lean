import Subgraph.Failure
import Subgraph.Text.Blank

/-!
# Reading versions

A version is read from a natural number, a nonnegative floating-point value, or a text of digit runs
separated by single dots. Numbers are read through their text, so a number that is written with an
exponent is no version.

Contents

* `Version.runs` — the digit runs of a text;
* `IsVersionText` — the grammar;
* `Version.ofChars` — the version of a text without outer white space;
* `Version.parse` — the version of a value.
-/

namespace Subgraph

open Text

/-- The texts that write a version: nonempty digit runs with single dots between them. -/
def IsVersionText (cs : List Char) : Prop :=
  ∃ runs : List (List Char), runs ≠ [] ∧ (∀ run ∈ runs, run ≠ [] ∧ ∀ c ∈ run, isDigit c = true) ∧
    cs = ['.'].intercalate runs

namespace Version

/-- A text cut at its dots. -/
def runs (cs : List Char) : List (List Char) := cs.splitOn '.'

/-- Whether a part of a text is a nonempty run of digits. -/
def isRun (run : List Char) : Bool := !run.isEmpty && run.all isDigit

/-- The version that a text without outer white space writes. -/
def ofChars (source : Value) (cs : List Char) : Except Failure Version :=
  let parts := runs cs
  if parts.all isRun then
    match parts.find? fun run => digitLimit < run.length with
    | some run => .error (.misuse (.longNumeral run.length))
    | none => .ok ⟨dropTrailingZeros (parts.map numeral), String.ofList cs⟩
  else .error (.notVersion source)

/-- The version of a value; a version stands for itself. -/
def parse (value : Value) : Except Failure Version :=
  match value with
  | .version v => .ok v
  | .int n | .numeral _ n =>
    if n < 0 then .error (.notVersion value)
    else if exceedsDigitLimit n then .error (.misuse .longInteger)
    else ofChars value (toString n).toList
  | .float x =>
    if !x.isFinite || (x.isNegative && !x.isZero) then .error (.notVersion value)
    else ofChars value x.text.toList
  | .text s => ofChars value (trim s.toList)
  | _ => .error (.notVersion value)

end Version

end Subgraph
