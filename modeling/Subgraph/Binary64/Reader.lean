import Subgraph.Binary64.Basic
import Subgraph.Text.Number

/-!
# Reading floating-point text

`Binary64.ofText?` reads a decimal with an optional fraction and exponent, the words for the
infinities and for `nan` in any case, and a sign before any of them; white space around the number
and underscores between digits are allowed.
-/

namespace Subgraph.Binary64

open Text

/-- The words for the values that have no digits. -/
def ofWord? (negative : Bool) (cs : List Char) : Option Binary64 :=
  let word := String.ofList (cs.map Char.toLower)
  if word = "inf" ∨ word = "infinity" then some (.infinite negative)
  else if word = "nan" then some .nan
  else none

/-- The exponent part of a decimal: nothing, or the mark, an optional sign, and digits. -/
def readExponent? : List Char → Option Int
  | [] => some 0
  | c :: r =>
    if c = 'e' ∨ c = 'E' then
      let (negative, digits) := splitSign r
      (baseNumeral? 10 digits).map fun n => if negative then -(n : Int) else n
    else none

/-- The value nearest to an unsigned decimal, under a sign. -/
def ofDigits? (negative : Bool) (cs : List Char) : Option Binary64 := do
  let whole := cs.takeWhile isAsciiDigit
  let rest := cs.dropWhile isAsciiDigit
  let (fraction, rest) :=
    match rest with
    | '.' :: r => (r.takeWhile isAsciiDigit, r.dropWhile isAsciiDigit)
    | r => ([], r)
  let digits ← baseNumeral? 10 (whole ++ fraction)
  let exponent ← readExponent? rest
  some (ofDecimal negative digits (exponent - fraction.length))

/-- The value that a text writes. -/
def ofText? (cs : List Char) : Option Binary64 := do
  let cs ← withoutSeparators? none (plainNumeral cs)
  let (negative, rest) := splitSign cs
  (ofWord? negative rest).or (ofDigits? negative rest)

end Subgraph.Binary64
