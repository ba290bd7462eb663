import Subgraph.Binary64.Basic

/-!
# Shortest decimal text

A finite value is written with the fewest decimal digits that read back as it, and of those decimals
with the one nearest to it. The search walks from the coarse decimal grids to the fine ones and tries
the two neighbours of the value on each; a candidate counts only if reading it back gives the value.

Contents

* `Decimal` — `digits · 10^exponent`;
* `shortest` — the decimal of a positive finite value, with `readsBack_of_candidate?`: it reads back;
* `Decimal.layout` — positional or with an exponent;
* `Binary64.text` — the text of any value.
-/

namespace Subgraph

/-- The number `digits · 10^exponent`. -/
structure Decimal where
  digits : Nat
  exponent : Int
  deriving DecidableEq, Repr

namespace Decimal

/-- The same number without zeros at the end of its digits; `fuel` bounds their number. -/
def trimmedBy : (fuel : Nat) → Decimal → Decimal
  | 0, d => d
  | fuel + 1, d =>
    if d.digits % 10 = 0 ∧ d.digits ≠ 0 then trimmedBy fuel ⟨d.digits / 10, d.exponent + 1⟩ else d

/-- The same number without zeros at the end of its digits. -/
def trimmed (d : Decimal) : Decimal := trimmedBy (d.digits.log2 + 1) d

end Decimal

namespace Binary64

/-! ## The search -/

/-- Whether a decimal reads back as `m · 2^e`. -/
def readsBack (m : Nat) (e : Int) (d : Decimal) : Bool :=
  match ofDecimal false d.digits d.exponent with
  | .finite false m' e' _ => m' == m && e' == e
  | _ => false

/-- Of the two neighbours of `n / d` on the grid of multiples of `10^i`, the one that reads back as
`m · 2^e`; of two such the nearer one, and of two as near the one with an even number. -/
def candidate? (m : Nat) (e : Int) (n d : Nat) (i : Int) : Option Decimal :=
  let a := if 0 ≤ i then n else n * Nat.pow 10 (-i).toNat
  let b := if 0 ≤ i then d * Nat.pow 10 i.toNat else d
  let low : Decimal := ⟨a / b, i⟩
  let high : Decimal := ⟨a / b + 1, i⟩
  let nearer := if 2 * (a % b) < b ∨ (2 * (a % b) = b ∧ a / b % 2 = 0) then low else high
  let farther := if nearer = low then high else low
  [nearer, farther].find? (readsBack m e)

/-- The first grid with a decimal that reads back, from `10^i` downwards through `fuel` grids; the
exact value if there is none. -/
def searchFrom (m : Nat) (e : Int) (n d : Nat) : (fuel : Nat) → (i : Int) → Decimal
  | 0, _ => if 0 ≤ e then ⟨m * Nat.pow 2 e.toNat, 0⟩ else ⟨m * Nat.pow 5 (-e).toNat, e⟩
  | fuel + 1, i =>
    match candidate? m e n d i with
    | some c => c
    | none => searchFrom m e n d fuel (i - 1)

/-- The shortest decimal of `m · 2^e`, for positive `m`. The first grid is coarser than the value
and the last one has more than seventeen digits of it. -/
def shortest (m : Nat) (e : Int) : Decimal :=
  let n := if 0 ≤ e then m * Nat.pow 2 e.toNat else m
  let d := if 0 ≤ e then 1 else Nat.pow 2 (-e).toNat
  (searchFrom m e n d 22 (floorLog2 n d * 30103 / 100000 + 2)).trimmed

/-- What the search finds on a grid reads back as the value. -/
theorem readsBack_of_candidate? {m : Nat} {e : Int} {n d : Nat} {i : Int} {c : Decimal}
    (h : candidate? m e n d i = some c) : readsBack m e c = true :=
  List.find?_some h

end Binary64

/-! ## Layout -/

/-- Where positional writing is used: from `10^leastPositional` up to below `10^pastPositional`; and
the least number of digits that an exponent is written with. -/
structure Decimal.Style where
  leastPositional : Int
  pastPositional : Int
  exponentDigits : Nat

/-- Numbers are positional from one ten-thousandth up to ten quadrillion, and an exponent has a sign
and two digits at least. -/
def Decimal.plainStyle : Decimal.Style := ⟨-4, 16, 2⟩

/-- A run of zeros. -/
def Decimal.zeros (n : Nat) : String := String.ofList (List.replicate n '0')

/-- The exponent part: the mark, a sign, and the digits. -/
def Decimal.exponentText (style : Decimal.Style) (x : Int) : String :=
  let digits := toString x.natAbs
  (if x < 0 then "e-" else "e+") ++ Decimal.zeros (style.exponentDigits - digits.length) ++ digits

/-- The text of a positive decimal: positional with at least one digit on both sides of the point,
or with one digit before it and an exponent. -/
def Decimal.layout (style : Decimal.Style) (d : Decimal) : String :=
  let ds := (toString d.digits).toList
  let point : Int := ds.length + d.exponent
  if style.leastPositional ≤ point - 1 ∧ point - 1 < style.pastPositional then
    if point ≤ 0 then "0." ++ Decimal.zeros (-point).toNat ++ String.ofList ds
    else if ds.length ≤ point then
      String.ofList ds ++ Decimal.zeros (point - ds.length).toNat ++ ".0"
    else String.ofList (ds.take point.toNat) ++ "." ++ String.ofList (ds.drop point.toNat)
  else
    let rest := ds.drop 1
    String.ofList (ds.take 1) ++ (if rest.isEmpty then "" else "." ++ String.ofList rest) ++
      Decimal.exponentText style (point - 1)

namespace Binary64

/-- The text of a value: the shortest decimal that reads back, a sign for every negative value and
for the negative zero, and words for the others. -/
def text : Binary64 → String
  | .nan => "nan"
  | .infinite negative => if negative then "-inf" else "inf"
  | .finite negative m e _ =>
    (if negative then "-" else "") ++
      (if m = 0 then "0.0" else (shortest m e).layout Decimal.plainStyle)

end Binary64

end Subgraph
