import Subgraph.Text.Blank
import Subgraph.Text.Digit

/-!
# Numerals

How the text of a number is prepared before it is read: white space at the ends is dropped, digits
of every script become those of ASCII, and single underscores between two digits disappear.

Contents

* `plainNumeral` — the text without its outer white space, in ASCII digits;
* `withoutSeparators?` — the text without its underscores, if they stand between digits;
* `readInt?` — an integer in a base from 2 to 16.
-/

namespace Subgraph.Text

/-- The white space that may stand around a number: of ASCII without the information separators, and
beyond it all. -/
def isNumberBlank (c : Char) : Bool := if c.toNat < 128 then isAsciiBlank c else isBlank c

/-- A text without the white space around it, its digits those of ASCII. -/
def plainNumeral (cs : List Char) : List Char :=
  (trimBy isNumberBlank cs).map fun c =>
    match digitValue? c with
    | some d => Nat.digitChar d
    | none => c

/-- A digit of ASCII. -/
def isAsciiDigit (c : Char) : Bool := c.isDigit

/-- The text without its underscores; nothing if one of them lacks a digit before or after it.
`previous` is the character before. -/
def withoutSeparators? (previous : Option Char) : List Char → Option (List Char)
  | [] => if previous = some '_' then none else some []
  | c :: r =>
    if c = '_' then
      if previous.any isAsciiDigit then withoutSeparators? (some c) r else none
    else if previous = some '_' && !isAsciiDigit c then none
    else (withoutSeparators? (some c) r).map (c :: ·)

/-- A sign at the front, and what follows it. -/
def splitSign : List Char → Bool × List Char
  | '-' :: r => (true, r)
  | '+' :: r => (false, r)
  | r => (false, r)

/-- The value of a digit of a base up to sixteen. -/
def baseDigit? (base : Nat) (c : Char) : Option Nat :=
  let v :=
    if c.isDigit then some (c.toNat - '0'.toNat)
    else if 'a' ≤ c ∧ c ≤ 'f' then some (c.toNat - 'a'.toNat + 10)
    else if 'A' ≤ c ∧ c ≤ 'F' then some (c.toNat - 'A'.toNat + 10)
    else none
  v.filter (· < base)

/-- The number that a nonempty run of digits of a base writes. -/
def baseNumeral? (base : Nat) (cs : List Char) : Option Nat :=
  if cs.isEmpty then none
  else cs.foldlM (fun n c => (baseDigit? base c).map (base * n + ·)) 0

/-- The letter after a zero that may mark a base in front of its digits. -/
def baseMark? : Nat → Option Char
  | 2 => some 'b'
  | 8 => some 'o'
  | 16 => some 'x'
  | _ => none

/-- Digits without the mark of their base. -/
def withoutBaseMark (base : Nat) : List Char → List Char
  | '0' :: c :: r =>
    if baseMark? base = some c.toLower then
      match r with
      | '_' :: r => r
      | r => r
    else '0' :: c :: r
  | cs => cs

/-- The integer that a text writes in a base, with white space around it, a sign, and underscores
between digits allowed. In a base that is no power of two, the digits are limited in number. -/
def readInt? (base : Nat) (cs : List Char) : Option Int := do
  let (negative, digits) := splitSign (plainNumeral cs)
  let digits := withoutBaseMark base digits
  let digits ← if digits.contains '_' then separated digits else some digits
  if (baseMark? base).isNone && digitLimit < digits.length then none
  let n ← baseNumeral? base digits
  some (if negative then -(n : Int) else n)
where
  /-- Digits without underscores, each of which stands alone between two digits. -/
  separated (cs : List Char) : Option (List Char) :=
    let parts := cs.splitOn '_'
    if parts.any List.isEmpty then none else some parts.flatten

end Subgraph.Text
