import Subgraph.Text.Hex
import Subgraph.Text.Printable

/-!
# Quoted text

The written form of a text or of bytes inside a message: between quotes, on one line, with nothing
invisible in it. The quote is the single one unless that would need an escape and the double one
would not. A character without a visible form is written by its number.

Contents

* `quoteFor` — which quote encloses a text;
* `quoted` — the written form of a text;
* `quotedBytes` — the written form of bytes, marked by a leading `b`.
-/

namespace Subgraph.Text

/-- The double quote for a text with single quotes and no double ones, else the single quote. -/
def quoteFor (cs : List Char) : Char :=
  if cs.contains '\'' && !cs.contains '"' then '"' else '\''

/-- A character by its number, in two, four or eight hexadecimal digits. -/
def escapeNumber (c : Char) : List Char :=
  if c.toNat < 0x100 then '\\' :: 'x' :: hexText 2 c.toNat
  else if c.toNat < 0x10000 then '\\' :: 'u' :: hexText 4 c.toNat
  else '\\' :: 'U' :: hexText 8 c.toNat

/-- A character between quotes `q`. -/
def escapeChar (q c : Char) : List Char :=
  if c == q || c == '\\' then ['\\', c]
  else if c == '\n' then ['\\', 'n']
  else if c == '\r' then ['\\', 'r']
  else if c == '\t' then ['\\', 't']
  else if isPrintable c then [c]
  else escapeNumber c

/-- The characters of a text in its written form. -/
def quotedChars (cs : List Char) : List Char :=
  quoteFor cs :: cs.flatMap (escapeChar (quoteFor cs)) ++ [quoteFor cs]

/-- The written form of a text. -/
def quoted (s : String) : String := String.ofList (quotedChars s.toList)

/-- A byte between quotes `q`: the printable characters of ASCII as they are, the others escaped. -/
def escapeByte (q : Char) (b : UInt8) : List Char :=
  let c := Char.ofNat b.toNat
  if c == q || c == '\\' then ['\\', c]
  else if c == '\n' then ['\\', 'n']
  else if c == '\r' then ['\\', 'r']
  else if c == '\t' then ['\\', 't']
  else if 0x20 ≤ b.toNat && b.toNat < 0x7F then [c]
  else '\\' :: 'x' :: hexText 2 b.toNat

/-- The written form of bytes. -/
def quotedBytes (bs : List UInt8) : String :=
  let q := quoteFor (bs.map fun b => Char.ofNat b.toNat)
  String.ofList ('b' :: q :: bs.flatMap (escapeByte q) ++ [q])

end Subgraph.Text
