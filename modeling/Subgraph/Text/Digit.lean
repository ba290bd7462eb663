/-!
# Decimal digits

A decimal digit is any character of the general category Nd: such characters come in runs of ten,
from a digit zero upwards, so `decimalZeros` — the zero of each run — is the whole class.

Contents

* `digitValue?`, `isDigit` — the value of a digit character, and the class;
* `numeral` — the number that a run of digits writes, most significant digit first;
* `digitLimit` — how many digits the decimal text of an integer may have, in and out.
-/

namespace Subgraph.Text

/-- The digit zero of every run of ten decimal digits, in ascending order. -/
def decimalZeros : List Nat :=
  [0x0030, 0x0660, 0x06F0, 0x07C0, 0x0966, 0x09E6, 0x0A66, 0x0AE6, 0x0B66, 0x0BE6, 0x0C66,
   0x0CE6, 0x0D66, 0x0DE6, 0x0E50, 0x0ED0, 0x0F20, 0x1040, 0x1090, 0x17E0, 0x1810, 0x1946,
   0x19D0, 0x1A80, 0x1A90, 0x1B50, 0x1BB0, 0x1C40, 0x1C50, 0xA620, 0xA8D0, 0xA900, 0xA9D0,
   0xA9F0, 0xAA50, 0xABF0, 0xFF10, 0x104A0, 0x10D30, 0x11066, 0x110F0, 0x11136, 0x111D0,
   0x112F0, 0x11450, 0x114D0, 0x11650, 0x116C0, 0x11730, 0x118E0, 0x11950, 0x11C50, 0x11D50,
   0x11DA0, 0x16A60, 0x16AC0, 0x16B50, 0x1D7CE, 0x1D7D8, 0x1D7E2, 0x1D7EC, 0x1D7F6, 0x1E140,
   0x1E2F0, 0x1E950, 0x1FBF0]

/-- The value of a decimal digit of any script, and nothing for another character. -/
def digitValue? (c : Char) : Option Nat :=
  if 0x30 ≤ c.toNat && c.toNat ≤ 0x39 then some (c.toNat - 0x30)
  else (decimalZeros.find? fun z => z ≤ c.toNat && c.toNat < z + 10).map (c.toNat - ·)

/-- A decimal digit of any script. -/
def isDigit (c : Char) : Bool := (digitValue? c).isSome

/-- The number that a run of digits writes, most significant digit first. -/
def numeral (cs : List Char) : Nat :=
  cs.foldl (fun n c => 10 * n + (digitValue? c).getD 0) 0

/-- The decimal text of an integer has at most this many digits, whether read or written. -/
def digitLimit : Nat := 4300

/-- Whether the decimal text of `n` has more digits than the limit. -/
def exceedsDigitLimit (n : Int) : Bool := Nat.pow 10 digitLimit ≤ n.natAbs

end Subgraph.Text
