import Mathlib.Algebra.Order.Ring.Nat
import Subgraph.Text.Number

/-!
# `Text.Number` — runs of digits

A run of characters of a class ends where another character starts (`takeWhile_run`), so that a text is
cut there in one way only (`run_unique`). A run of digits of ASCII is read as the number that it writes
(`baseNumeral?_digits`), and the decimal text of a number is such a run and writes that number
(`ofDigitChars_toString`). Runs are closed under what layouts do to them: they are joined, cut, and filled
up with zeros.

## Contents
- **Runs.** `takeWhile_run`, `dropWhile_run`, `run_unique`.
- **Runs of digits.** `Digits`, with what keeps it: `append`, `subset`, `zeros`, `of_toString`.
- **Reading.** `baseDigit?_digit`, `foldlM_digits`, `baseNumeral?_digits`.
- **What a run writes.** `ofDigitChars_toString`, and what zeros in front and behind do to it.
- **Texts of integers.** `toString_int`, `mem_toString_int`, `eq_of_toString_int`.
-/

namespace Subgraph.Text

/-! ## Runs -/

section Runs

variable {p : Char → Bool} {cs r : List Char}

/-- A condition on the first character of a text, where the text has one. -/
theorem forall_mem_head?_cons {P : Char → Prop} {c : Char} :
    (∀ d ∈ (c :: r).head?, P d) ↔ P c := by
  simp

/-- A run ends where something else starts. -/
theorem takeWhile_run (h : ∀ c ∈ cs, p c = true) (hr : ∀ c ∈ r.head?, p c = false) :
    (cs ++ r).takeWhile p = cs := by
  rw [List.takeWhile_append_of_pos h]
  cases r with
  | nil => simp
  | cons c r =>
    have hc : p c = false := hr c rfl
    rw [List.takeWhile_cons_of_neg (by simp [hc]), List.append_nil]

theorem dropWhile_run (h : ∀ c ∈ cs, p c = true) (hr : ∀ c ∈ r.head?, p c = false) :
    (cs ++ r).dropWhile p = r := by
  rw [List.dropWhile_append_of_pos h]
  cases r with
  | nil => rfl
  | cons c r =>
    have hc : p c = false := hr c rfl
    rw [List.dropWhile_cons_of_neg (by simp [hc])]

/-- **A text is a run and something else in one way only.** -/
theorem run_unique {cs' r' : List Char} (h : ∀ c ∈ cs, p c = true) (h' : ∀ c ∈ cs', p c = true)
    (hr : ∀ c ∈ r.head?, p c = false) (hr' : ∀ c ∈ r'.head?, p c = false)
    (heq : cs ++ r = cs' ++ r') : cs = cs' ∧ r = r' := by
  constructor
  · rw [← takeWhile_run h hr, heq, takeWhile_run h' hr']
  · rw [← dropWhile_run h hr, heq, dropWhile_run h' hr']

end Runs

/-! ## Runs of digits -/

/-- All of the characters are digits of ASCII. -/
def Digits (cs : List Char) : Prop := ∀ c ∈ cs, isAsciiDigit c = true

namespace Digits

theorem append {cs ds : List Char} (hc : Digits cs) (hd : Digits ds) : Digits (cs ++ ds) := by
  intro c h
  rcases List.mem_append.mp h with h | h
  · exact hc c h
  · exact hd c h

/-- Any part of a run is a run. -/
theorem subset {cs ds : List Char} (hd : Digits ds) (h : cs ⊆ ds) : Digits cs :=
  fun c hc => hd c (h hc)

theorem zeros (n : Nat) : Digits (List.replicate n '0') := by
  intro c hc
  rw [List.eq_of_mem_replicate hc]
  rfl

/-- The decimal text of a number is a run. -/
theorem of_toString (n : Nat) : Digits (toString n).toList := by
  rw [Nat.toString_eq_ofList_toDigits, String.toList_ofList]
  intro c hc
  exact Nat.isDigit_of_mem_toDigits (by decide) (by decide) hc

end Digits

theorem toString_ne_nil (n : Nat) : (toString n).toList ≠ [] := by
  rw [Nat.toString_eq_ofList_toDigits, String.toList_ofList]
  exact Nat.toDigits_ne_nil

/-! ## Reading a run -/

/-- The digits of ASCII come in a row. -/
theorem range_of_ascii {c : Char} (h : isAsciiDigit c = true) :
    0x30 ≤ c.toNat ∧ c.toNat ≤ 0x39 := by
  simp only [isAsciiDigit, Char.isDigit, Bool.and_eq_true, decide_eq_true_eq] at h
  exact h

/-- A digit has its place after the zero as value. -/
theorem baseDigit?_digit {c : Char} (h : isAsciiDigit c = true) :
    baseDigit? 10 c = some (c.toNat - '0'.toNat) := by
  have hc : c.isDigit = true := h
  have hlt : c.toNat - '0'.toNat < 10 := by
    have hnine : c.toNat ≤ 0x39 := (range_of_ascii h).2
    show c.toNat - 48 < 10
    omega
  unfold baseDigit?
  rw [if_pos hc]
  exact Option.filter_eq_some_iff.mpr ⟨rfl, by simpa using hlt⟩

/-- Digit after digit is added to what has been read. -/
theorem foldlM_digits {cs : List Char} (h : Digits cs) (init : Nat) :
    cs.foldlM (fun n c => (baseDigit? 10 c).map (10 * n + ·)) init =
      some (Nat.ofDigitChars 10 cs init) := by
  induction cs generalizing init with
  | nil => rfl
  | cons c cs ih =>
    have hc : isAsciiDigit c = true := h c List.mem_cons_self
    have hcs : Digits cs := h.subset (List.subset_cons_self c cs)
    rw [List.foldlM_cons, baseDigit?_digit hc, Nat.ofDigitChars_cons]
    exact ih hcs _

/-- **A run of digits is read as the number that it writes.** -/
theorem baseNumeral?_digits {cs : List Char} (h : Digits cs) (hne : cs ≠ []) :
    baseNumeral? 10 cs = some (Nat.ofDigitChars 10 cs 0) := by
  have hempty : cs.isEmpty = false := by simpa using hne
  rw [baseNumeral?, hempty]
  exact foldlM_digits h 0

/-- A digit of ASCII is a digit of some script, with its place after the zero as value. -/
theorem digitValue?_ascii {c : Char} (h : isAsciiDigit c = true) :
    digitValue? c = some (c.toNat - '0'.toNat) := by
  simp [digitValue?, range_of_ascii h]

/-- A run of digits of ASCII writes the number that it writes among the runs of all scripts. -/
theorem numeral_digits {cs : List Char} (h : Digits cs) : numeral cs = Nat.ofDigitChars 10 cs 0 := by
  have hfold : ∀ init, cs.foldl (fun n c => 10 * n + (digitValue? c).getD 0) init =
      Nat.ofDigitChars 10 cs init := by
    induction cs with
    | nil => exact fun _ => rfl
    | cons c cs ih =>
      intro init
      rw [List.foldl_cons, digitValue?_ascii (h c List.mem_cons_self), Nat.ofDigitChars_cons]
      exact ih (h.subset (List.subset_cons_self c cs)) _
  exact hfold 0

/-- The decimal text of a number writes that number. -/
theorem ofDigitChars_toString (n : Nat) : Nat.ofDigitChars 10 (toString n).toList 0 = n := by
  rw [Nat.toString_eq_ofList_toDigits, String.toList_ofList, Nat.ofDigitChars_ten_toDigits]

/-- Zeros in front change nothing. -/
theorem ofDigitChars_zeros_append (n : Nat) (cs : List Char) :
    Nat.ofDigitChars 10 (List.replicate n '0' ++ cs) 0 = Nat.ofDigitChars 10 cs 0 := by
  rw [Nat.ofDigitChars_append, Nat.ofDigitChars_replicate_zero, Nat.mul_zero]

/-- Every zero behind is a factor of ten. -/
theorem ofDigitChars_append_zeros (cs : List Char) (n : Nat) :
    Nat.ofDigitChars 10 (cs ++ List.replicate n '0') 0 = 10 ^ n * Nat.ofDigitChars 10 cs 0 := by
  rw [Nat.ofDigitChars_append, Nat.ofDigitChars_replicate_zero]

/-! ## Texts of integers -/

/-- The text of an integer is a sign, if it is negative, and a run of digits. -/
theorem toString_int (n : Int) :
    (toString n).toList = (if n < 0 then ['-'] else []) ++ (toString n.natAbs).toList := by
  rw [Int.toString_eq_repr, Int.repr_eq_if]
  by_cases hn : n < 0
  · have habs : (-n).toNat = n.natAbs := by omega
    rw [if_neg (by omega), if_pos hn, String.toList_append, habs]
    rfl
  · have habs : n.toNat = n.natAbs := by omega
    rw [if_pos (by omega), if_neg hn, habs]
    rfl

theorem mem_toString_int {n : Int} {c : Char} (hc : c ∈ (toString n).toList) :
    isAsciiDigit c = true ∨ c = '-' := by
  rw [toString_int, List.mem_append] at hc
  rcases hc with hsign | hc
  · split at hsign
    · exact .inr (List.mem_singleton.mp hsign)
    · exact absurd hsign (by simp)
  · exact .inl (Digits.of_toString _ c hc)

theorem toString_int_ne_nil (n : Int) : (toString n).toList ≠ [] := by
  rw [toString_int]
  intro h
  exact toString_ne_nil _ (List.append_eq_nil_iff.mp h).2

/-- The sign of a negative integer is no digit of another one. -/
theorem minus_mem_toString_int {n : Int} : '-' ∈ (toString n).toList ↔ n < 0 := by
  rw [toString_int, List.mem_append]
  constructor
  · rintro (hsign | hdigits)
    · by_cases hn : n < 0
      · exact hn
      · rw [if_neg hn] at hsign
        exact absurd hsign (by simp)
    · exact absurd (Digits.of_toString _ _ hdigits) (by decide)
  · intro hn
    rw [if_pos hn]
    exact .inl List.mem_cons_self

/-- **The text of an integer determines it.** -/
theorem eq_of_toString_int {n n' : Int} (h : toString n = toString n') : n = n' := by
  have hsign : n < 0 ↔ n' < 0 := by
    rw [← minus_mem_toString_int, h, minus_mem_toString_int]
  have htext := congrArg String.toList h
  rw [toString_int, toString_int] at htext
  simp only [hsign] at htext
  have habs : n.natAbs = n'.natAbs := by
    rw [← ofDigitChars_toString n.natAbs, List.append_cancel_left htext, ofDigitChars_toString]
  omega

end Subgraph.Text
