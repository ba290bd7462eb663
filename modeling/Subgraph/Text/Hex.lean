/-!
# Hexadecimal digits

`hexText` writes a number in a fixed number of lower-case hexadecimal digits, most significant
first; higher digits are dropped. `hexTextUpper` is the same in upper case. Escapes are made of it.
-/

namespace Subgraph.Text

/-- The last `width` hexadecimal digits of `n`, lower case. -/
def hexText : (width : Nat) → (n : Nat) → List Char
  | 0, _ => []
  | width + 1, n => hexText width (n / 16) ++ [Nat.digitChar (n % 16)]

/-- The last `width` hexadecimal digits of `n`, upper case. -/
def hexTextUpper (width n : Nat) : List Char := (hexText width n).map Char.toUpper

/-! ## Small facts -/

@[simp] theorem length_hexText (width n : Nat) : (hexText width n).length = width := by
  induction width generalizing n with
  | zero => rfl
  | succ w ih => simp [hexText, ih]

@[simp] theorem length_hexTextUpper (width n : Nat) : (hexTextUpper width n).length = width := by
  simp [hexTextUpper]

end Subgraph.Text
