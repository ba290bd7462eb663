import Subgraph.Proofs.Binary64.Plain
import Subgraph.Proofs.Version.Padding

/-!
# `Version.Numbers` — which numbers are versions

A number is read through its text, so it is the text that decides. That of an integer is digits, with a
sign if the integer is negative: every natural number is a version (`parse_whole`). That of a
floating-point value is digits, a point and digits only if the value is plain: one with a sign, be it a
zero, and one that is written with an exponent because it is very small or very large are refused
(`parse_float_eq_error_iff`), although they are numbers and need not be negative.

So a number is accepted iff it is a natural number or a plain value (`number_versions`).
-/

namespace Subgraph

open Text

/-- Without an exponent, what a decimal is written as are two runs of digits with a point between them. -/
theorem Spelling.isVersionText (style : Decimal.Style) (s : Spelling) (h : 'e' ∉ s.text style) :
    IsVersionText (s.text style) := by
  have hexponent : s.exponent = none := by
    by_contra hsome
    obtain ⟨x, hx⟩ := Option.ne_none_iff_exists'.mp hsome
    apply h
    rw [text, exponentText, hx]
    dsimp only
    rw [Decimal.exponentText_toList]
    simp
  have hfraction : s.fraction ≠ [] := by
    rcases s.marked with hfraction | hsome
    · exact hfraction
    · exact absurd hsome (by simp [hexponent])
  rw [s.text_of_fraction style hfraction hexponent]
  refine ⟨[s.whole, s.fraction], by simp, ?_, by simp⟩
  intro run hrun
  rcases List.mem_cons.mp hrun with rfl | hrun
  · exact ⟨s.whole_ne_nil, fun c hc => (Version.isDigit_of_ascii (s.whole_digits c hc)).1⟩
  · obtain rfl : run = s.fraction := List.mem_singleton.mp hrun
    exact ⟨hfraction, fun c hc => (Version.isDigit_of_ascii (s.fraction_digits c hc)).1⟩

namespace Version

variable {v : Value} {n : Int} {x : Binary64}

/-! ## Floating-point values -/

/-- A text with another character than digits and dots writes no version. -/
theorem not_isVersionText_of_mem {cs : List Char} {c : Char} (hc : c ∈ cs) (hdigit : isDigit c = false)
    (hdot : c ≠ '.') : ¬ IsVersionText cs := by
  intro h
  rcases mem_of_isVersionText h hc with hdigit' | hdot'
  · exact absurd (hdigit.symm.trans hdigit') (by simp)
  · exact hdot hdot'

/-- **The text of a floating-point value writes a version iff the value is plain.** -/
theorem isVersionText_text_iff (x : Binary64) : IsVersionText x.text.toList ↔ x.Plain := by
  cases x with
  | nan =>
    refine iff_of_false (not_isVersionText_of_mem (c := 'n') (by decide) (by decide) (by decide)) ?_
    rintro ⟨⟩
  | infinite negative =>
    refine iff_of_false ?_ (by rintro ⟨⟩)
    cases negative with
    | false => exact not_isVersionText_of_mem (c := 'i') (by decide) (by decide) (by decide)
    | true => exact not_isVersionText_of_mem (c := 'i') (by decide) (by decide) (by decide)
  | finite negative m e h =>
    cases negative with
    | true =>
      have hsign : '-' ∈ (Binary64.finite true m e h).text.toList := by
        rw [Binary64.text_finite]
        exact List.mem_cons_self
      exact iff_of_false (not_isVersionText_of_mem hsign (by decide) (by decide)) (by rintro ⟨⟩)
    | false =>
      rw [Binary64.plain_iff]
      constructor
      · intro hwrites hmark
        exact not_isVersionText_of_mem hmark (by decide) (by decide) hwrites
      · intro hmark
        obtain ⟨s, hs, -⟩ := Binary64.exists_spelling h
        have htext : (Binary64.finite false m e h).text.toList = s.text Decimal.plainStyle := by
          rw [Binary64.text_finite, hs]
          rfl
        rw [htext] at hmark ⊢
        exact s.isVersionText Decimal.plainStyle hmark

/-- A plain value is finite and has no sign. -/
theorem guard_of_plain (h : x.Plain) :
    (!x.isFinite || (x.isNegative && !x.isZero)) = false := by
  cases h with
  | zero => rfl
  | between => rfl

/-- A plain value is read as its text. -/
theorem parse_float (h : x.Plain) :
    ∃ version, parse (.float x) = .ok version ∧ version.literal = x.text := by
  have hwrites : IsVersionText x.text.toList := (isVersionText_text_iff x).mpr h
  rw [parse, guard_of_plain h]
  exact ⟨_, ofChars_eq_ok (.float x) hwrites (not_firstLong_text x hwrites), String.ofList_toList⟩

/-- **A floating-point value is refused iff it is not plain.** -/
theorem parse_float_eq_error_iff :
    parse (.float x) = .error (.invalidVersion (.float x)) ↔ ¬ x.Plain := by
  constructor
  · intro hrefused hplain
    obtain ⟨version, hok, -⟩ := parse_float hplain
    exact absurd (hok.symm.trans hrefused) (by simp)
  · intro hplain
    have hno : ¬ IsVersionText x.text.toList := fun hwrites =>
      hplain ((isVersionText_text_iff x).mp hwrites)
    have hshown : Failure.notVersion (.float x) = .invalidVersion (.float x) := rfl
    rw [parse]
    split
    · rw [hshown]
    · rcases ofChars_outcome (.float x) x.text.toList with ⟨-, h⟩ | ⟨run, hs, -⟩ | ⟨hs, -⟩
      · rw [h, hshown]
      · exact absurd hs hno
      · exact absurd hs hno

/-! ## Integers -/

/-- The values that are integers, members of an enumeration among them. -/
inductive Whole : Value → Int → Prop where
  | int (n : Int) : Whole (.int n) n
  | numeral (name : String) (n : Int) : Whole (.numeral name n) n

theorem Whole.parse_eq (hv : Whole v n) :
    parse v = if n < 0 then .error (.notVersion v)
      else if exceedsDigitLimit n then .error (.misuse .longInteger)
      else ofChars v (toString n).toList := by
  cases hv with
  | int => rfl
  | numeral => rfl

/-- An integer within the limit can be shown. -/
theorem Whole.notVersion (hv : Whole v n) (hlimit : exceedsDigitLimit n = false) :
    Failure.notVersion v = .invalidVersion v := by
  apply if_pos
  cases hv with
  | int => simp [Value.withinDigitLimit, hlimit]
  | numeral => simp [Value.withinDigitLimit, hlimit]

/-- A number is its only component, unless it is zero. -/
theorem dropTrailingZeros_singleton (k : Nat) : dropTrailingZeros [k] = if k = 0 then [] else [k] := by
  rw [dropTrailingZeros_cons]
  simp [dropTrailingZeros]

/-- **A natural number is read as its decimal text**, with itself as its only component. -/
theorem parse_whole {k : Nat} (hv : Whole v k) (hlimit : exceedsDigitLimit k = false) :
    parse v = .ok ⟨if k = 0 then [] else [k], toString k⟩ := by
  have hchars : (toString (k : Int)).toList = (toString k).toList := rfl
  have hnumbers : (runs (toString k).toList).map numeral = [k] := written_natCast k
  have hwrites : IsVersionText (toString k).toList :=
    isVersionText_of_digits (Digits.of_toString k) (toString_ne_nil k)
  have hshort : (toString k).toList.length ≤ digitLimit := (length_toString_le k).mpr hlimit
  rw [hv.parse_eq, if_neg (by omega), if_neg (by simp [hlimit]), hchars]
  rw [ofChars_eq_ok v hwrites (not_firstLong_of_short hshort), hnumbers, dropTrailingZeros_singleton,
    String.ofList_toList]

/-- **An integer is refused iff it is negative.** -/
theorem parse_whole_eq_error_iff (hv : Whole v n) (hlimit : exceedsDigitLimit n = false) :
    parse v = .error (.invalidVersion v) ↔ n < 0 := by
  constructor
  · intro hrefused
    by_contra hnatural
    obtain ⟨k, rfl⟩ := Int.eq_ofNat_of_zero_le (not_lt.mp hnatural)
    exact absurd ((parse_whole hv hlimit).symm.trans hrefused) (by simp)
  · intro hnegative
    rw [hv.parse_eq, if_pos hnegative, hv.notVersion hlimit]

/-- **The numbers that are versions.**

An integer is refused iff it is negative, and otherwise read as its decimal text. A floating-point value
is refused iff it is not plain: not the zero without a sign, and not at least one ten-thousandth and below
ten quadrillion; otherwise it is read as its text. Truth values are no numbers here. -/
theorem number_versions (v : Value) :
    (∀ n, Whole v n → exceedsDigitLimit n = false →
      (parse v = .error (.invalidVersion v) ↔ n < 0) ∧
      (0 ≤ n → parse v = .ok ⟨if n = 0 then [] else [n.toNat], toString n⟩)) ∧
    (∀ x : Binary64, v = .float x →
      (parse v = .error (.invalidVersion v) ↔ ¬ x.Plain) ∧
      (x.Plain → ∃ version, parse v = .ok version ∧ version.literal = x.text)) ∧
    ∀ b : Bool, v = .bool b → parse v = .error (.invalidVersion v) := by
  refine ⟨?_, ?_, ?_⟩
  · intro n hv hlimit
    refine ⟨parse_whole_eq_error_iff hv hlimit, ?_⟩
    intro hnatural
    obtain ⟨k, rfl⟩ := Int.eq_ofNat_of_zero_le hnatural
    rw [parse_whole hv hlimit]
    simp
    rfl
  · rintro x rfl
    exact ⟨parse_float_eq_error_iff, parse_float⟩
  · rintro b rfl
    rfl

/-- Ten quadrillion is a version as an integer and none as a floating-point value, where it is written
`1e+16`; two and a half is one. -/
theorem number_versions_large :
    parse (.int 10000000000000000) = .ok ⟨[10000000000000000], "10000000000000000"⟩ ∧
      parse (.float (.finite false 5000000000000000 1 (by decide))) =
        .error (.invalidVersion (.float (.finite false 5000000000000000 1 (by decide)))) ∧
      ∃ version, parse (.float (.finite false 5629499534213120 (-51) (by decide))) = .ok version ∧
        version.literal = "2.5" := by
  have hlimit : exceedsDigitLimit 10000000000000000 = false := by decide +kernel
  have hlarge : ¬ (Binary64.finite false 5000000000000000 1 (by decide)).Plain := by
    intro hplain
    cases hplain with
    | between _ hhigh => norm_num at hhigh
  have hplain : (Binary64.finite false 5629499534213120 (-51) (by decide)).Plain :=
    .between (by norm_num) (by norm_num)
  have hshown : (Binary64.finite false 5629499534213120 (-51) (by decide)).text = "2.5" := by
    decide +kernel
  refine ⟨((number_versions (.int 10000000000000000)).1 _ (.int _) hlimit).2 (by decide),
    ((number_versions (.float _)).2.1 _ rfl).1.mpr hlarge, ?_⟩
  rw [← hshown]
  exact ((number_versions (.float _)).2.1 _ rfl).2 hplain

end Version
end Subgraph
