/-!
# Binary floating point of 64 bits

A number is not a number, an infinity, or `± m · 2^e` with 53 bits in `m`. The last form is
canonical: every finite value has exactly one, so equality of the type is equality of bits.
Everything is computed exactly on natural numbers and rounded once, to the nearest value and from a
half to the even one.

Contents

* `Binary64` — the type, with `Canonical`;
* `roundDiv` — a quotient to the nearest natural number;
* `ofRatio`, `ofDecimal`, `ofInt?` — the nearest value of a fraction, a decimal, an integer;
* `add`, `mul`, `neg` — arithmetic;
* `ratio?`, `toInt?`, `isZero`, `isFinite` — views.
-/

namespace Subgraph

/-- The numbers of at most 53 bits are those below `2^53`. -/
abbrev Binary64.bound : Nat := 9007199254740992

/-- The numbers of 53 bits start at `2^52`. -/
abbrev Binary64.half : Nat := 4503599627370496

/-- The one form `m · 2^e` of a finite value: 53 bits, or fewer at the least exponent. -/
def Binary64.Canonical (m : Nat) (e : Int) : Prop :=
  m < bound ∧ -1074 ≤ e ∧ e ≤ 971 ∧ (half ≤ m ∨ e = -1074)

instance (m : Nat) (e : Int) : Decidable (Binary64.Canonical m e) := by
  unfold Binary64.Canonical; infer_instance

/-- A binary floating-point value of 64 bits. -/
inductive Binary64 where
  /-- Not a number; the payload is not kept. -/
  | nan
  /-- One of the two infinities. -/
  | infinite (negative : Bool)
  /-- The value `± m · 2^e`. -/
  | finite (negative : Bool) (m : Nat) (e : Int) (canonical : Binary64.Canonical m e)
  deriving DecidableEq

namespace Binary64

/-! ## Rounding -/

/-- `n / d` rounded to the nearest natural number, a half to the even neighbour. -/
def roundDiv (n d : Nat) : Nat :=
  if 2 * (n % d) < d then n / d
  else if d < 2 * (n % d) then n / d + 1
  else if n / d % 2 = 0 then n / d else n / d + 1

/-- `n / (d · 2^e)` as a fraction of natural numbers. -/
def scaled (n d : Nat) (e : Int) : Nat × Nat :=
  if 0 ≤ e then (n, d * Nat.pow 2 e.toNat) else (n * Nat.pow 2 (-e).toNat, d)

/-- The greatest `k` with `2^k ≤ n / d`, for positive `n` and `d`. -/
def floorLog2 (n d : Nat) : Int :=
  let k : Int := (n.log2 : Int) - d.log2
  let s := scaled n d k
  if s.1 < s.2 then k - 1 else k

/-- The zero of a sign. -/
def zero (negative : Bool) : Binary64 := .finite negative 0 (-1074) (by decide)

/-- The value `± m · 2^e`, where `m = 2^53` stands for the next binade and an exponent beyond the
range for an infinity. -/
def ofScaled (negative : Bool) (m : Nat) (e : Int) : Binary64 :=
  let p := if m = bound then (half, e + 1) else (m, e)
  if h : Canonical p.1 p.2 then .finite negative p.1 p.2 h else .infinite negative

/-- The value nearest to `± n / d`, for positive `d`. -/
def ofRatio (negative : Bool) (n d : Nat) : Binary64 :=
  if n = 0 then zero negative
  else
    let e := max (-1074) (floorLog2 n d - 52)
    let s := scaled n d e
    ofScaled negative (roundDiv s.1 s.2) e

/-- The value nearest to `± digits · 10^exponent`. Beyond the exponents at which every number with
as many digits is infinite or zero, nothing is computed. -/
def ofDecimal (negative : Bool) (digits : Nat) (exponent : Int) : Binary64 :=
  if digits = 0 then zero negative
  else if 400 < exponent then .infinite negative
  else if exponent < -(400 + (digits.log2 : Int)) then zero negative
  else if 0 ≤ exponent then ofRatio negative (digits * Nat.pow 10 exponent.toNat) 1
  else ofRatio negative digits (Nat.pow 10 (-exponent).toNat)

/-! ## Views -/

/-- Whether the value is finite. -/
def isFinite : Binary64 → Bool
  | .finite .. => true
  | _ => false

/-- Whether the value is a zero of either sign. -/
def isZero : Binary64 → Bool
  | .finite _ m _ _ => m == 0
  | _ => false

/-- Whether the sign is negative, that of a zero included. -/
def isNegative : Binary64 → Bool
  | .nan => false
  | .infinite negative => negative
  | .finite negative .. => negative

/-- A finite value as a fraction: a signed numerator and a power of two. -/
def ratio? : Binary64 → Option (Int × Nat)
  | .finite negative m e _ =>
    let n : Nat := if 0 ≤ e then m * Nat.pow 2 e.toNat else m
    let d : Nat := if 0 ≤ e then 1 else Nat.pow 2 (-e).toNat
    some (if negative then -(n : Int) else n, d)
  | _ => none

/-- The integer that a value equals, if there is one. -/
def toInt? (x : Binary64) : Option Int :=
  match x.ratio? with
  | some (n, d) => if n % (d : Int) = 0 then some (n / (d : Int)) else none
  | none => none

/-- The value nearest to an integer; nothing if that is beyond the finite values. -/
def ofInt? (n : Int) : Option Binary64 :=
  let x := ofRatio (n < 0) n.natAbs 1
  if x.isFinite then some x else none

/-- Numerical equality: the two zeros are equal, and nothing equals `nan`. -/
def same (x y : Binary64) : Bool :=
  match x, y with
  | .infinite s, .infinite t => s == t
  | _, _ =>
    match x.ratio?, y.ratio? with
    | some (a, b), some (c, d) => a * d == c * b
    | _, _ => false

/-! ## Arithmetic -/

/-- The value of a signed fraction, a zero taking the sign given for it. -/
def ofSignedRatio (zeroSign : Bool) (n : Int) (d : Nat) : Binary64 :=
  if n = 0 then zero zeroSign else ofRatio (n < 0) n.natAbs d

/-- The sum, rounded once. -/
def add : Binary64 → Binary64 → Binary64
  | .nan, _ | _, .nan => .nan
  | .infinite s, .infinite t => if s == t then .infinite s else .nan
  | .infinite s, _ => .infinite s
  | _, .infinite t => .infinite t
  | x, y =>
    match x.ratio?, y.ratio? with
    | some (a, b), some (c, d) => ofSignedRatio (x.isNegative && y.isNegative) (a * d + c * b) (b * d)
    | _, _ => .nan

/-- The product, rounded once. -/
def mul : Binary64 → Binary64 → Binary64
  | .nan, _ | _, .nan => .nan
  | x, y =>
    let negative := x.isNegative != y.isNegative
    match x.ratio?, y.ratio? with
    | some (a, b), some (c, d) => ofSignedRatio negative (a * c) (b * d)
    | _, _ => if x.isZero || y.isZero then .nan else .infinite negative

/-- The value with the other sign. -/
def neg : Binary64 → Binary64
  | .nan => .nan
  | .infinite s => .infinite !s
  | .finite s m e h => .finite (!s) m e h

end Binary64

end Subgraph
