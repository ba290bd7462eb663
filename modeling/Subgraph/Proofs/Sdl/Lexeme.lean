import Subgraph.Proofs.Binary64.Plain
import Subgraph.Proofs.Sdl.Reading

/-!
# `Sdl.Literal` — the lexemes of literals

A literal is made of names, numbers, texts between quotes, and single marks. The grammar of documents
says what these look like: an integer has no zero in front (`IsInteger`), a number with a fraction or an
exponent has an integer before it and at least one digit in each part (`IsFloat`), and between quotes
stands no quote, no backslash and no line end except behind a backslash (`IsStringCharacter`).

What is written for an integer, for a finite floating-point value and for a text is such a lexeme
(`isInteger_toString`, `isFloat_text`, `isStringCharacter_escapeChar`), and none of them has a control
character in it.
-/

namespace Subgraph

open Text

namespace Sdl

/-! ## The grammar of numbers -/

/-- Digits of a whole number: a zero alone, or digits of which the first is none. -/
def IsWhole (ds : List Char) : Prop := Digits ds ∧ (ds = ['0'] ∨ ∃ c ∈ ds.head?, c ≠ '0')

/-- An integer: a whole number, perhaps with a minus in front. -/
inductive IsInteger : List Char → Prop
  | positive {ds : List Char} (h : IsWhole ds) : IsInteger ds
  | negative {ds : List Char} (h : IsWhole ds) : IsInteger ('-' :: ds)

/-- A point and digits. -/
inductive IsFraction : List Char → Prop
  | point {ds : List Char} (h : Digits ds) (hne : ds ≠ []) : IsFraction ('.' :: ds)

/-- The mark of an exponent, perhaps a sign, and digits. -/
inductive IsExponent : List Char → Prop
  | unsigned {mark : Char} (hmark : mark = 'e' ∨ mark = 'E') {ds : List Char} (h : Digits ds)
      (hne : ds ≠ []) : IsExponent (mark :: ds)
  | signed {mark : Char} (hmark : mark = 'e' ∨ mark = 'E') {sign : Char}
      (hsign : sign = '+' ∨ sign = '-') {ds : List Char} (h : Digits ds) (hne : ds ≠ []) :
      IsExponent (mark :: sign :: ds)

/-- What makes a number of an integer that is none: a fraction, an exponent, or both. -/
inductive IsTail : List Char → Prop
  | fraction {f : List Char} (hf : IsFraction f) : IsTail f
  | exponent {x : List Char} (hx : IsExponent x) : IsTail x
  | both {f x : List Char} (hf : IsFraction f) (hx : IsExponent x) : IsTail (f ++ x)

/-- A number with a fraction or an exponent: an integer, and what makes it one. -/
inductive IsFloat : List Char → Prop
  | number {i t : List Char} (hi : IsInteger i) (ht : IsTail t) : IsFloat (i ++ t)

/-! ## Texts of integers -/

/-- The digits of a positive number do not start with a zero. -/
theorem exists_head_toDigits {n : Nat} (hn : 0 < n) : ∃ c ∈ (Nat.toDigits 10 n).head?, c ≠ '0' := by
  induction n using Nat.strongRecOn with
  | ind n ih =>
    by_cases hlt : n < 10
    · -- a single digit
      have hdigit : ∀ d < 10, 0 < d → Nat.digitChar d ≠ '0' := by decide
      rw [Nat.toDigits_of_lt_base hlt]
      exact ⟨_, rfl, hdigit n hlt hn⟩
    · -- the digits of the tenth come first
      obtain ⟨c, hc, hne⟩ := ih (n / 10) (by omega) (by omega)
      rw [Nat.toDigits_of_base_le (by decide) (by omega), List.head?_append]
      exact ⟨c, by rw [Option.mem_def.mp hc]; rfl, hne⟩

theorem exists_head_toString {n : Nat} (hn : 0 < n) : ∃ c ∈ (toString n).toList.head?, c ≠ '0' := by
  rw [Nat.toString_eq_ofList_toDigits, String.toList_ofList]
  exact exists_head_toDigits hn

theorem isWhole_toString (n : Nat) : IsWhole (toString n).toList := by
  refine ⟨Digits.of_toString n, ?_⟩
  rcases Nat.eq_zero_or_pos n with rfl | hn
  · exact Or.inl rfl
  · exact Or.inr (exists_head_toString hn)

/-- **The text of an integer is an integer.** -/
theorem isInteger_toString (n : Int) : IsInteger (toString n).toList := by
  rw [toString_int]
  by_cases hn : n < 0
  · rw [if_pos hn]
    exact .negative (isWhole_toString _)
  · rw [if_neg hn]
    exact .positive (isWhole_toString _)

/-! ## Texts of floating-point values -/

/-- An exponent has a sign and digits. -/
theorem isExponent_exponentText (style : Decimal.Style) (x : Int) :
    IsExponent (Decimal.exponentText style x).toList := by
  have hne : Decimal.exponentDigits style x ≠ [] := by
    intro h
    exact toString_ne_nil _ (List.append_eq_nil_iff.mp h).2
  rw [Decimal.exponentText_toList]
  refine .signed (Or.inl rfl) ?_ (Decimal.exponentDigits_digits style x) hne
  split
  · exact Or.inr rfl
  · exact Or.inl rfl

section Layouts

variable {d : Decimal} (hd : 0 < d.digits)
include hd

/-- The digits of a positive decimal up to a place are a whole number. -/
theorem isWhole_take {k : Nat} (hk : 0 < k) : IsWhole (d.digitChars.take k) := by
  obtain ⟨c, hc, hne⟩ := exists_head_toString hd
  refine ⟨d.digitChars_digits.subset (List.take_subset _ _), Or.inr ⟨c, ?_, hne⟩⟩
  rw [List.head?_take, if_neg (by omega)]
  exact hc

/-- So are they with zeros behind them. -/
theorem isWhole_append_zeros (k : Nat) : IsWhole (d.digitChars ++ List.replicate k '0') := by
  obtain ⟨c, hc, hne⟩ := exists_head_toString hd
  refine ⟨d.digitChars_digits.append (Digits.zeros _), Or.inr ⟨c, ?_, hne⟩⟩
  have hhead : d.digitChars.head? = some c := hc
  rw [List.head?_append, hhead]
  rfl

/-- **Every layout of a positive decimal is a whole number and what makes it a number that is none.** -/
theorem exists_layout (style : Decimal.Style) :
    ∃ ds t, IsWhole ds ∧ IsTail t ∧ (d.layout style).toList = ds ++ t := by
  have hdigits : Digits d.digitChars := d.digitChars_digits
  have hpos : 0 < d.digitChars.length := d.length_digitChars_pos
  have hchars : (toString d.digits).toList = d.digitChars := rfl
  unfold Decimal.layout
  dsimp only
  rw [hchars]
  split
  · split
    · -- zeros between the point and the digits
      generalize (-((d.digitChars.length : Int) + d.exponent)).toNat = k
      have hnil : List.replicate k '0' ++ d.digitChars ≠ [] :=
        List.append_ne_nil_of_right_ne_nil _ (List.ne_nil_of_length_pos hpos)
      refine ⟨['0'], _, ⟨Digits.zeros 1, Or.inl rfl⟩,
        .fraction (.point ((Digits.zeros k).append hdigits) hnil), ?_⟩
      simp [Decimal.zeros, String.toList_append]
    · split
      · -- zeros between the digits and the point
        generalize ((d.digitChars.length : Int) + d.exponent - d.digitChars.length).toNat = k
        refine ⟨_, ['.', '0'], isWhole_append_zeros hd k,
          .fraction (.point (Digits.zeros 1) (by simp)), ?_⟩
        simp [Decimal.zeros, String.toList_append]
      · -- the point between the digits
        generalize hk : ((d.digitChars.length : Int) + d.exponent).toNat = k
        have hnil : d.digitChars.drop k ≠ [] := by
          apply List.ne_nil_of_length_pos
          rw [List.length_drop]
          omega
        refine ⟨_, _, isWhole_take hd (k := k) (by omega),
          .fraction (.point (hdigits.subset (List.drop_subset _ _)) hnil), ?_⟩
        simp [String.toList_append]
  · -- one digit, and an exponent behind the others
    have hexponent := isExponent_exponentText style ((d.digitChars.length : Int) + d.exponent - 1)
    have hone : IsWhole (d.digitChars.take 1) := isWhole_take hd Nat.one_pos
    by_cases hrest : d.digitChars.drop 1 = []
    · refine ⟨_, _, hone, .exponent hexponent, ?_⟩
      simp [hrest, String.toList_append]
    · refine ⟨_, _, hone,
        .both (.point (hdigits.subset (List.drop_subset _ _)) hrest) hexponent, ?_⟩
      rw [if_neg (by simpa using hrest)]
      simp [String.toList_append]

end Layouts

/-- **The text of a finite value is a number with a fraction or an exponent.** -/
theorem isFloat_text {x : Binary64} (hx : x.isFinite = true) : IsFloat x.text.toList := by
  cases x with
  | nan => exact absurd hx (by simp [Binary64.isFinite])
  | infinite => exact absurd hx (by simp [Binary64.isFinite])
  | finite negative m e h =>
    have hunsigned : ∃ ds t, IsWhole ds ∧ IsTail t ∧
        (Binary64.unsignedText m e).toList = ds ++ t := by
      unfold Binary64.unsignedText
      split
      · exact ⟨['0'], ['.', '0'], ⟨Digits.zeros 1, Or.inl rfl⟩,
          .fraction (.point (Digits.zeros 1) (by simp)), rfl⟩
      · next hm => exact exists_layout (Binary64.shortest_pos (Nat.pos_of_ne_zero hm) h) _
    obtain ⟨ds, t, hds, ht, htext⟩ := hunsigned
    rw [Binary64.text_finite, htext, ← List.append_assoc]
    refine .number ?_ ht
    cases negative with
    | false => exact .positive hds
    | true => exact .negative hds

/-! ## Control characters -/

/-- The control characters, line ends among them. -/
def isControl (c : Char) : Bool := c.toNat < 0x20 || (0x7F ≤ c.toNat && c.toNat < 0xA0)

/-- The text has no control character in it, and so stands on one line. -/
def OneLine (cs : List Char) : Prop := ∀ c ∈ cs, isControl c = false

namespace OneLine

theorem nil : OneLine [] := by
  intro c hc
  exact absurd hc (by simp)

theorem append {cs ds : List Char} (hc : OneLine cs) (hd : OneLine ds) : OneLine (cs ++ ds) :=
  List.forall_mem_append.mpr ⟨hc, hd⟩

theorem cons {c : Char} {cs : List Char} (hc : isControl c = false) (h : OneLine cs) :
    OneLine (c :: cs) :=
  List.forall_mem_cons.mpr ⟨hc, h⟩

end OneLine

theorem not_isControl_of_isAlphanum {c : Char} (h : c.isAlphanum = true) : isControl c = false := by
  -- letters of either case and digits lie in a row each, between the control characters
  have hbounds : ∀ lo hi : UInt32, 0x20 ≤ lo.toNat → hi.toNat < 0x7F → lo ≤ c.val → c.val ≤ hi →
      0x20 ≤ c.toNat ∧ c.toNat < 0x7F := by
    intro lo hi hlo hhi hl hu
    exact ⟨hlo.trans (UInt32.le_iff_toNat_le.mp hl), (UInt32.le_iff_toNat_le.mp hu).trans_lt hhi⟩
  have hrow : 0x20 ≤ c.toNat ∧ c.toNat < 0x7F := by
    rcases Bool.or_eq_true_iff.mp h with halpha | hdigit
    · rcases Bool.or_eq_true_iff.mp halpha with hupper | hlower
      · obtain ⟨hl, hu⟩ : 'A'.val ≤ c.val ∧ c.val ≤ 'Z'.val := of_decide_eq_true hupper
        exact hbounds _ _ (by decide) (by decide) hl hu
      · obtain ⟨hl, hu⟩ := Bool.and_eq_true_iff.mp hlower
        exact hbounds _ _ (by decide) (by decide) (of_decide_eq_true hl) (of_decide_eq_true hu)
    · obtain ⟨hl, hu⟩ := Bool.and_eq_true_iff.mp hdigit
      exact hbounds _ _ (by decide) (by decide) (of_decide_eq_true hl) (of_decide_eq_true hu)
  simp only [isControl, Bool.or_eq_false_iff, Bool.and_eq_false_iff, decide_eq_false_iff_not]
  omega

theorem oneLine_of_isName {n : String} (h : IsName n) : OneLine n.toList := by
  intro c hc
  have hname : c.isAlphanum = true ∨ c = '_' := by
    simpa [isNameContinue] using name_chars h c hc
  rcases hname with halnum | rfl
  · exact not_isControl_of_isAlphanum halnum
  · rfl

theorem not_isControl_of_isAtomChar {c : Char} (h : isAtomChar c = true) : isControl c = false := by
  simp only [isAtomChar, Bool.or_eq_true, beq_iff_eq] at h
  rcases h with ((halnum | rfl) | rfl) | rfl
  · exact not_isControl_of_isAlphanum halnum
  all_goals rfl

/-! ## Texts between quotes -/

/-- The characters that stand for one behind a backslash. -/
def escapeLetters : List Char := ['"', '\\', '/', 'b', 'f', 'n', 'r', 't']

/-- What stands for a character between quotes: the character itself, if it is no quote, no backslash and
no line end; a backslash and one of those eight; or a backslash and the number of a character in four
hexadecimal digits. -/
inductive IsStringCharacter : List Char → Prop
  | plain {c : Char} (hquote : c ≠ '"') (hback : c ≠ '\\') (hline : c ≠ '\n') (hreturn : c ≠ '\r') :
      IsStringCharacter [c]
  | escape {c : Char} (hc : c ∈ escapeLetters) : IsStringCharacter ['\\', c]
  | code {ds : List Char} {n : Nat} (hlength : ds.length = 4) (hread : baseNumeral? 16 ds = some n)
      (hn : n.isValidChar) : IsStringCharacter ('\\' :: 'u' :: ds)

/-- A character is written by a letter or mark behind a backslash, by its number if it is a control
character, or else as itself. -/
theorem escapeChar_cases (c : Char) :
    (∃ d ∈ escapeLetters, escapeChar c = ['\\', d]) ∨
      (isControl c = true ∧ escapeChar c = '\\' :: 'u' :: hexTextUpper 4 c.toNat) ∨
        (isControl c = false ∧ c ≠ '"' ∧ c ≠ '\\' ∧ escapeChar c = [c]) := by
  unfold escapeChar
  split
  · exact .inl ⟨'"', by simp [escapeLetters], rfl⟩
  split
  · exact .inl ⟨'\\', by simp [escapeLetters], rfl⟩
  split
  · exact .inl ⟨'b', by simp [escapeLetters], rfl⟩
  split
  · exact .inl ⟨'f', by simp [escapeLetters], rfl⟩
  split
  · exact .inl ⟨'n', by simp [escapeLetters], rfl⟩
  split
  · exact .inl ⟨'r', by simp [escapeLetters], rfl⟩
  split
  · exact .inl ⟨'t', by simp [escapeLetters], rfl⟩
  split
  · next hcontrol => exact .inr (.inl ⟨hcontrol, rfl⟩)
  · next hquote hback _ _ _ _ _ hcontrol =>
    exact .inr (.inr ⟨by simpa [isControl] using hcontrol, hquote, hback, rfl⟩)

/-- **What is written for a character stands for a character.** -/
theorem isStringCharacter_escapeChar (c : Char) : IsStringCharacter (escapeChar c) := by
  rcases escapeChar_cases c with ⟨d, hd, hc⟩ | ⟨hcontrol, hc⟩ | ⟨hcontrol, hquote, hback, hc⟩
  · rw [hc]
    exact .escape hd
  · have hlt : c.toNat < 16 ^ 4 := by
      simp only [isControl, Bool.or_eq_true, Bool.and_eq_true, decide_eq_true_eq] at hcontrol
      omega
    have hread := baseNumeral?_hexTextUpper 3 c.toNat
    rw [Nat.mod_eq_of_lt hlt] at hread
    rw [hc]
    exact .code (length_hexTextUpper 4 c.toNat) hread c.valid
  · have hne : ∀ d, isControl d = true → c ≠ d := by
      rintro d hd rfl
      exact absurd hd (by simp [hcontrol])
    rw [hc]
    exact .plain hquote hback (hne _ rfl) (hne _ rfl)

/-- The hexadecimal digits in upper case. -/
theorem mem_hexTextUpper {width n : Nat} {c : Char} (hc : c ∈ hexTextUpper width n) :
    ∃ d < 16, c = (Nat.digitChar d).toUpper := by
  induction width generalizing n with
  | zero => exact absurd hc (by simp [hexTextUpper, hexText])
  | succ width ih =>
    rw [hexTextUpper, hexText, List.map_append, List.mem_append] at hc
    rcases hc with hc | hc
    · exact ih hc
    · obtain rfl := List.mem_singleton.mp hc
      exact ⟨n % 16, Nat.mod_lt n (by decide), rfl⟩

/-- **Between quotes no control character stands as itself.** -/
theorem oneLine_escapeChar (c : Char) : OneLine (escapeChar c) := by
  rcases escapeChar_cases c with ⟨d, hd, hc⟩ | ⟨-, hc⟩ | ⟨hcontrol, -, -, hc⟩
  · have hplain : ∀ d ∈ escapeLetters, isControl d = false := by simp [escapeLetters, isControl]
    rw [hc]
    exact .cons rfl (.cons (hplain d hd) .nil)
  · have hdigit : ∀ d < 16, isControl (Nat.digitChar d).toUpper = false := by decide
    rw [hc]
    refine .cons rfl (.cons rfl fun d hd => ?_)
    obtain ⟨n, hn, rfl⟩ := mem_hexTextUpper hd
    exact hdigit n hn
  · rw [hc]
    exact .cons hcontrol .nil

end Sdl
end Subgraph
