import Mathlib.Algebra.Order.Ring.Nat
import Subgraph.Sdl.Text
import Subgraph.Text.Number

/-!
# `Sdl.Text` — texts between double quotes read back

Between double quotes every character stands as itself or behind a backslash, so a reader knows after
each character where the next one starts. `unescape` is such a reader; it gives back every character that
is written (`unescape_escapeChar`) and stops at the closing quote and nowhere before. Hence no text ends
its literal early, whatever stands in it and behind it (`stringLiteral_delimited`).
-/

namespace Subgraph.Sdl

open Text

/-! ## Reading a character -/

/-- The control that a letter behind a backslash stands for; any other character stands for itself. -/
def escapedBy (c : Char) : Char :=
  if c = 'b' then Char.ofNat 8
  else if c = 'f' then Char.ofNat 12
  else if c = 'n' then '\n'
  else if c = 'r' then '\r'
  else if c = 't' then '\t'
  else c

/-- The first character that is written between double quotes, and what follows it; nothing at the
closing quote. -/
def unescape : List Char → Option (Char × List Char)
  | '\\' :: 'u' :: a :: b :: c :: d :: r =>
    (baseNumeral? 16 [a, b, c, d]).map fun n => (Char.ofNat n, r)
  | '\\' :: c :: r => some (escapedBy c, r)
  | '"' :: _ => none
  | c :: r => some (c, r)
  | [] => none

/-- A hexadecimal digit is read as its value. -/
theorem baseDigit?_digitChar : ∀ d < 16, baseDigit? 16 (Nat.digitChar d).toUpper = some d := by
  decide

theorem foldlM_hexTextUpper (width n : Nat) :
    (hexTextUpper width n).foldlM (fun n c => (baseDigit? 16 c).map (16 * n + ·)) 0 =
      some (n % 16 ^ width) := by
  induction width generalizing n with
  | zero => rw [Nat.pow_zero, Nat.mod_one]; rfl
  | succ width ih =>
    have hdigit : baseDigit? 16 (Nat.digitChar (n % 16)).toUpper = some (n % 16) :=
      baseDigit?_digitChar _ (Nat.mod_lt n (by decide))
    have hmod : n % 16 ^ (width + 1) = n % 16 + 16 * (n / 16 % 16 ^ width) := by
      rw [Nat.pow_succ', Nat.mod_mul]
    have happend : hexTextUpper (width + 1) n =
        hexTextUpper width (n / 16) ++ [(Nat.digitChar (n % 16)).toUpper] := by
      rw [hexTextUpper, hexText, List.map_append]
      rfl
    rw [happend, List.foldlM_append, ih, hmod, Nat.add_comm]
    show ((baseDigit? 16 (Nat.digitChar (n % 16)).toUpper).map _ >>= _) = _
    rw [hdigit]
    rfl

/-- **A number is read from its hexadecimal digits**, as far as they go. -/
theorem baseNumeral?_hexTextUpper (width n : Nat) :
    baseNumeral? 16 (hexTextUpper (width + 1) n) = some (n % 16 ^ (width + 1)) := by
  have hempty : (hexTextUpper (width + 1) n).isEmpty = false := by
    rw [← Bool.not_eq_true, List.isEmpty_iff_length_eq_zero, length_hexTextUpper]
    exact Nat.succ_ne_zero width
  rw [baseNumeral?, hempty]
  exact foldlM_hexTextUpper (width + 1) n

/-- **Every character is read back**, whatever stands behind it. -/
theorem unescape_escapeChar (c : Char) (r : List Char) :
    unescape (escapeChar c ++ r) = some (c, r) := by
  unfold escapeChar
  split
  · next h => rw [h]; rfl
  split
  · next h => rw [h]; rfl
  split
  · next h => rw [← Char.ofNat_toNat c, h]; rfl
  split
  · next h => rw [← Char.ofNat_toNat c, h]; rfl
  split
  · next h => rw [h]; rfl
  split
  · next h => rw [h]; rfl
  split
  · next h => rw [h]; rfl
  split
  · next hcontrol =>
    have hlt : c.toNat < 16 ^ 4 := by
      simp only [Bool.or_eq_true, Bool.and_eq_true, decide_eq_true_eq] at hcontrol
      omega
    have hread := baseNumeral?_hexTextUpper 3 c.toNat
    -- four digits, by which the character is found
    show (baseNumeral? 16 (hexTextUpper 4 c.toNat)).map (fun n => (Char.ofNat n, r)) = _
    rw [hread, Option.map_some, Nat.mod_eq_of_lt hlt, Char.ofNat_toNat]
  · next hquote hback _ _ _ _ _ _ =>
    show unescape (c :: r) = some (c, r)
    unfold unescape
    split
    · next h => exact absurd (List.cons.inj h).1 hback
    · next h => exact absurd (List.cons.inj h).1 hback
    · next h => exact absurd (List.cons.inj h).1 hquote
    · next h =>
      obtain ⟨rfl, rfl⟩ := List.cons.inj h
      rfl
    · next h => exact absurd h (by simp)

/-! ## Reading a text -/

/-- What is written for the characters of a text ends at the closing quote, and not before. -/
theorem escaped_delimited {cs ds r r' : List Char}
    (h : cs.flatMap escapeChar ++ '"' :: r = ds.flatMap escapeChar ++ '"' :: r') :
    cs = ds ∧ r = r' := by
  -- along the characters, each of which a reader gives back from both sides
  induction cs generalizing ds with
  | nil =>
    cases ds with
    | nil => exact ⟨rfl, (List.cons.inj h).2⟩
    | cons d ds =>
      rw [List.flatMap_cons, List.append_assoc] at h
      have hread := congrArg unescape h
      rw [unescape_escapeChar] at hread
      exact absurd hread (by simp [unescape])
  | cons c cs ih =>
    rw [List.flatMap_cons, List.append_assoc] at h
    have hread := congrArg unescape h
    rw [unescape_escapeChar] at hread
    cases ds with
    | nil => exact absurd hread (by simp [unescape])
    | cons d ds =>
      rw [List.flatMap_cons, List.append_assoc, unescape_escapeChar, Option.some_inj,
        Prod.mk.injEq] at hread
      obtain ⟨rfl, hrest⟩ := hread
      obtain ⟨rfl, hr⟩ := ih hrest
      exact ⟨rfl, hr⟩

theorem stringLiteral_toList (s : String) :
    (stringLiteral s).toList = '"' :: (s.toList.flatMap escapeChar ++ ['"']) := by
  rw [stringLiteral, String.toList_ofList]
  rfl

/-- **A literal of a text ends at its closing quote and nowhere before**, so that neither what stands in
the text nor what stands behind it can be taken for the other. -/
theorem stringLiteral_delimited {s t : String} {r r' : List Char}
    (h : (stringLiteral s).toList ++ r = (stringLiteral t).toList ++ r') : s = t ∧ r = r' := by
  rw [stringLiteral_toList, stringLiteral_toList, List.cons_append, List.cons_append,
    List.append_assoc, List.append_assoc] at h
  obtain ⟨htext, hr⟩ := escaped_delimited (List.cons.inj h).2
  exact ⟨String.toList_inj.mp htext, hr⟩

end Subgraph.Sdl
