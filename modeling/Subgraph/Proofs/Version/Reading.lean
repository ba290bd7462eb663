import Subgraph.Proofs.Binary64.Length
import Subgraph.Proofs.Failure.Chain
import Subgraph.Version.Reader

/-!
# `Version.Reader` — which values write a version, and which are too long for one

Reading a version ends in one of three ways (`parse_ends`): with the version, with the refusal of the
value, or, where a number in it has too many digits, with a misuse that is no refusal (`Overlong`,
`parse_eq_misuse_iff`). A floating-point value is never too long: without an exponent its text is short
(`Binary64.length_text`). A text is cut at its dots into the digit runs that it writes a version with, if
it does (`isVersionText_iff`), and is refused iff it does not (`parse_text_eq_invalid_iff`).
-/

namespace Subgraph

open Text

namespace Version

variable {cs : List Char} {v source : Value} {s : String} {m : Misuse} {version : Version}

/-! ## The grammar -/

/-- A nonempty run of digits. -/
theorem isRun_iff {run : List Char} :
    isRun run = true ↔ run ≠ [] ∧ ∀ c ∈ run, isDigit c = true := by
  simp [isRun, Bool.and_eq_true, List.all_eq_true]

/-- **A text writes a version iff all its parts between dots are digit runs.** -/
theorem isVersionText_iff : IsVersionText cs ↔ (runs cs).all isRun = true := by
  simp only [List.all_eq_true, isRun_iff]
  constructor
  · rintro ⟨parts, hne, hparts, rfl⟩
    have hdot : ∀ part ∈ parts, '.' ∉ part := fun part hpart hmem =>
      absurd ((hparts part hpart).2 '.' hmem) (by decide)
    rwa [runs, List.splitOn_intercalate '.' hdot hne]
  · intro h
    exact ⟨runs cs, List.splitOn_ne_nil _ _, h, (List.intercalate_splitOn '.').symm⟩

/-- A version is written in digits and dots. -/
theorem mem_of_isVersionText {c : Char} (h : IsVersionText cs) (hc : c ∈ cs) :
    isDigit c = true ∨ c = '.' := by
  obtain ⟨parts, -, hparts, rfl⟩ := h
  induction parts with
  | nil => exact absurd hc (by simp)
  | cons part parts ih =>
    rw [List.forall_mem_cons] at hparts
    cases parts with
    | nil =>
      rw [List.intercalate_singleton] at hc
      exact Or.inl (hparts.1.2 c hc)
    | cons part' parts =>
      rw [List.intercalate_cons_cons, List.mem_append, List.mem_append] at hc
      rcases hc with (hc | hc) | hc
      · exact Or.inl (hparts.1.2 c hc)
      · exact Or.inr (List.mem_singleton.mp hc)
      · exact ih hparts.2 hc

/-- A text of the grammar is not empty. -/
theorem ne_nil_of_isVersionText (h : IsVersionText cs) : cs ≠ [] := by
  obtain ⟨parts, hne, hparts, rfl⟩ := h
  obtain ⟨part, rest, rfl⟩ := List.exists_cons_of_ne_nil hne
  have hpart : part ≠ [] := (hparts part List.mem_cons_self).1
  cases rest with
  | nil => rwa [List.intercalate_singleton]
  | cons part' rest =>
    rw [List.intercalate_cons_cons, List.append_assoc]
    intro hnil
    exact hpart (List.append_eq_nil_iff.mp hnil).1

/-- What stands between two dots is a part of a text. -/
theorem infix_of_mem_runs {run : List Char} (h : run ∈ runs cs) : run <:+: cs := by
  have hjoined : ∀ parts : List (List Char), run ∈ parts → run <:+: ['.'].intercalate parts := by
    intro parts hrun
    induction parts with
    | nil => exact absurd hrun (by simp)
    | cons part parts ih =>
      cases parts with
      | nil =>
        rw [List.intercalate_singleton]
        exact List.mem_singleton.mp hrun ▸ List.infix_rfl
      | cons part' parts =>
        rw [List.intercalate_cons_cons]
        rcases List.mem_cons.mp hrun with rfl | hrun
        · exact ⟨[], ['.'] ++ ['.'].intercalate (part' :: parts), by simp⟩
        · exact (ih hrun).trans (List.suffix_append _ _).isInfix
  have hinfix := hjoined (runs cs) h
  rwa [runs, List.intercalate_splitOn] at hinfix

/-- So it is not longer than the text. -/
theorem length_le_of_mem_runs {run : List Char} (h : run ∈ runs cs) : run.length ≤ cs.length :=
  (infix_of_mem_runs h).length_le

/-! ## Runs that are too long -/

/-- The first digit run of a text that has more digits than a number may have. -/
def FirstLong (cs run : List Char) : Prop :=
  IsFirst (fun run : List Char => digitLimit < run.length) (runs cs) run

/-- The search for a long run finds the first. -/
theorem find?_eq_some_iff_firstLong {run : List Char} :
    (runs cs).find? (fun run => digitLimit < run.length) = some run ↔ FirstLong cs run :=
  find?_eq_some_iff_isFirst fun run => by simp

/-- A short text has no long run. -/
theorem not_firstLong_of_short (h : cs.length ≤ digitLimit) (run : List Char) :
    ¬ FirstLong cs run := by
  rintro ⟨hlong, before, after, hruns, -⟩
  have hle : run.length ≤ cs.length := length_le_of_mem_runs (by simp [hruns])
  omega

/-- **What a text without outer white space gives**: a version if it writes one with runs that are short
enough, and otherwise a refusal or a misuse. -/
theorem ofChars_outcome (source : Value) (cs : List Char) :
    (¬ IsVersionText cs ∧ ofChars source cs = .error (.notVersion source)) ∨
      (∃ run, IsVersionText cs ∧ FirstLong cs run ∧
        ofChars source cs = .error (.misuse (.longNumeral run.length))) ∨
      (IsVersionText cs ∧ (∀ run, ¬ FirstLong cs run) ∧
        ofChars source cs =
          .ok ⟨dropTrailingZeros ((runs cs).map numeral), String.ofList cs⟩) := by
  unfold ofChars
  dsimp only
  rw [isVersionText_iff]
  split
  · next htext =>
    cases hlong : (runs cs).find? fun run => digitLimit < run.length with
    | some run => exact Or.inr (Or.inl ⟨run, htext, find?_eq_some_iff_firstLong.mp hlong, rfl⟩)
    | none =>
      refine Or.inr (Or.inr ⟨htext, fun run hrun => ?_, rfl⟩)
      exact absurd (find?_eq_some_iff_firstLong.mpr hrun) (by simp [hlong])
  · next htext => exact Or.inl ⟨htext, rfl⟩

/-- A text of the grammar with runs that are short enough is read. -/
theorem ofChars_eq_ok (source : Value) (hcs : IsVersionText cs) (hshort : ∀ run, ¬ FirstLong cs run) :
    ofChars source cs = .ok ⟨dropTrailingZeros ((runs cs).map numeral), String.ofList cs⟩ := by
  rcases ofChars_outcome source cs with ⟨hno, -⟩ | ⟨run, -, hrun, -⟩ | ⟨-, -, hok⟩
  · exact absurd hcs hno
  · exact absurd hrun (hshort run)
  · exact hok

/-- A text that is read is one of these, and is read as its numerals. -/
theorem of_ofChars_eq_ok {source : Value} {version : Version} (h : ofChars source cs = .ok version) :
    IsVersionText cs ∧ (∀ run, ¬ FirstLong cs run) ∧
      version = ⟨dropTrailingZeros ((runs cs).map numeral), String.ofList cs⟩ := by
  rcases ofChars_outcome source cs with ⟨-, hno⟩ | ⟨run, -, -, hno⟩ | ⟨hwrites, hshort, hok⟩
  · exact absurd (hno.symm.trans h) (by simp [Failure.notVersion])
  · exact absurd (hno.symm.trans h) (by simp)
  · exact ⟨hwrites, hshort, (Except.ok.inj (hok.symm.trans h)).symm⟩

/-! ## Numbers -/

/-- An integer has a text within the limit iff it does not exceed it. -/
theorem length_toString_le (n : Nat) :
    (toString n).toList.length ≤ digitLimit ↔ exceedsDigitLimit n = false := by
  have hchars : (toString n).toList = Nat.toDigits 10 n := by
    rw [Nat.toString_eq_repr, Nat.toList_repr]
  have hlimit : exceedsDigitLimit n = false ↔ n < 10 ^ digitLimit := by
    unfold exceedsDigitLimit
    simp
  rw [hchars, hlimit]
  exact Nat.length_toDigits_le_iff (by decide) (by decide)

/-- A digit of ASCII is a digit, and no white space. -/
theorem isDigit_of_ascii {c : Char} (h : isAsciiDigit c = true) :
    isDigit c = true ∧ isBlank c = false := by
  constructor
  · rw [isDigit, digitValue?_ascii h]
    rfl
  · have hascii := range_of_ascii h
    simp [isBlank]
    omega

/-- A run of digits of ASCII writes a version. -/
theorem isVersionText_of_digits (h : Digits cs) (hne : cs ≠ []) : IsVersionText cs := by
  refine ⟨[cs], by simp, ?_, by rw [List.intercalate_singleton]⟩
  intro run hrun
  obtain rfl : run = cs := List.mem_singleton.mp hrun
  exact ⟨hne, fun c hc => (isDigit_of_ascii (h c hc)).1⟩

/-- The text of a floating-point value has no long run, if it writes a version. -/
theorem not_firstLong_text (x : Binary64) (h : IsVersionText x.text.toList) (run : List Char) :
    ¬ FirstLong x.text.toList run := by
  rcases x.length_text with hmark | hshort
  · -- the mark of an exponent is no part of a version
    rcases mem_of_isVersionText h hmark with hdigit | hdot
    · exact absurd hdigit (by decide)
    · exact absurd hdot (by decide)
  · have hlongest : Binary64.longest ≤ digitLimit := by decide
    exact not_firstLong_of_short (by omega) run

/-! ## Values -/

/-- The values that are too long for a version, with the misuse that they are: those with an integer
inside that has no text within the limit, and the texts that write a version with a run beyond it. -/
inductive Overlong : Value → Misuse → Prop where
  | integer {v : Value} (hv : ∀ version, v ≠ .version version) (h : v.withinDigitLimit = false) :
    Overlong v .longInteger
  | text {s : String} {run : List Char} (hs : IsVersionText (trim s.toList))
    (hrun : FirstLong (trim s.toList) run) : Overlong (.text s) (.longNumeral run.length)

theorem overlong_text_iff :
    Overlong (.text s) m ↔ ∃ run, IsVersionText (trim s.toList) ∧ FirstLong (trim s.toList) run ∧
      m = .longNumeral run.length := by
  constructor
  · intro h
    cases h with
    | integer hv h => exact absurd h (by simp [Value.withinDigitLimit])
    | text hs hrun => exact ⟨_, hs, hrun, rfl⟩
  · rintro ⟨run, hs, hrun, rfl⟩
    exact .text hs hrun

/-- **A run of more digits than a number may have is too long for a version.** -/
theorem overlong_of_digits (h : Digits cs) (hlong : digitLimit < cs.length) :
    Overlong (.text (String.ofList cs)) (.longNumeral cs.length) := by
  have htrim : trim (String.ofList cs).toList = cs := by
    have hblank : ∀ c ∈ cs, isBlank c = false := fun c hc => (isDigit_of_ascii (h c hc)).2
    rw [String.toList_ofList]
    exact trim_of_ends (fun c hc => hblank c (List.mem_of_mem_head? hc))
      fun c hc => hblank c (List.mem_of_getLast? hc)
  have hdot : '.' ∉ cs := fun hmem => absurd (h '.' hmem) (by decide)
  have hne : cs ≠ [] := List.ne_nil_of_length_pos (by omega)
  refine .text ?_ ?_
  · rw [htrim]
    exact isVersionText_of_digits h hne
  · rw [htrim]
    exact ⟨hlong, [], [], List.splitOn_eq_singleton hdot, by simp⟩

theorem overlong_iff (hversion : ∀ version, v ≠ .version version) (htext : ∀ s, v ≠ .text s) :
    Overlong v m ↔ v.withinDigitLimit = false ∧ m = .longInteger := by
  constructor
  · intro h
    cases h with
    | integer hv h => exact ⟨h, rfl⟩
    | text => exact absurd rfl (htext _)
  · rintro ⟨h, rfl⟩
    exact .integer hversion h

/-- How reading a version from a value ends, with what it says of the length of the value. -/
def Ends (v : Value) (result : Except Failure Version) : Prop :=
  ((∃ version, result = .ok version) ∧ ∀ m, ¬ Overlong v m) ∨
    (result = .error (.invalidVersion v) ∧ ∀ m, ¬ Overlong v m) ∨
      ∃ m, result = .error (.misuse m) ∧ ∀ m', Overlong v m' ↔ m' = m

/-- A refusal shows the value where it can be shown. -/
theorem notVersion_ends (hversion : ∀ version, v ≠ .version version) (htext : ∀ s, v ≠ .text s) :
    Ends v (.error (.notVersion v)) := by
  unfold Failure.notVersion
  by_cases h : v.withinDigitLimit = true
  · rw [if_pos h]
    refine Or.inr (Or.inl ⟨rfl, fun m hm => ?_⟩)
    obtain ⟨hlong, -⟩ := (overlong_iff hversion htext).mp hm
    exact absurd hlong (by simp [h])
  · rw [if_neg h]
    refine Or.inr (Or.inr ⟨.longInteger, rfl, fun m => ?_⟩)
    rw [overlong_iff hversion htext]
    simp [h]

/-- The digits of an integer within the limit write a version. -/
theorem ofChars_int_ends {n : Int} (hn : 0 ≤ n) (hlimit : exceedsDigitLimit n = false)
    (hversion : ∀ version, v ≠ .version version) (htext : ∀ s, v ≠ .text s)
    (hv : v.withinDigitLimit = true) : Ends v (ofChars v (toString n).toList) := by
  have hchars : (toString n).toList = (toString n.toNat).toList := by
    rw [toString_int, if_neg (by omega), List.nil_append, show n.natAbs = n.toNat by omega]
  have hwrites : IsVersionText (toString n.toNat).toList :=
    isVersionText_of_digits (Digits.of_toString _) (toString_ne_nil _)
  have hshort : (toString n.toNat).toList.length ≤ digitLimit := by
    rw [length_toString_le, Int.toNat_of_nonneg hn]
    exact hlimit
  rw [hchars]
  refine Or.inl ⟨⟨_, ofChars_eq_ok v hwrites (not_firstLong_of_short hshort)⟩, ?_⟩
  intro m hm
  obtain ⟨hlong, -⟩ := (overlong_iff hversion htext).mp hm
  exact absurd hlong (by simp [hv])

/-- **Every reading ends in one of the three ways**, and in the third iff the value is too long. -/
theorem parse_ends (v : Value) : Ends v (parse v) := by
  cases v with
  | version version =>
    refine Or.inl ⟨⟨version, rfl⟩, fun m hm => ?_⟩
    cases hm with
    | integer hv _ => exact hv version rfl
  | text s =>
    have hshown : Failure.notVersion (.text s) = .invalidVersion (.text s) := rfl
    rw [parse]
    rcases ofChars_outcome (.text s) (trim s.toList) with
      ⟨hno, h⟩ | ⟨run, hs, hrun, h⟩ | ⟨hs, hnone, h⟩
    · rw [h, hshown]
      refine Or.inr (Or.inl ⟨rfl, fun m hm => ?_⟩)
      obtain ⟨run, hs, -⟩ := overlong_text_iff.mp hm
      exact hno hs
    · refine Or.inr (Or.inr ⟨_, h, fun m => ?_⟩)
      rw [overlong_text_iff]
      constructor
      · rintro ⟨run', -, hrun', rfl⟩
        rw [IsFirst.unique hrun hrun']
      · rintro rfl
        exact ⟨run, hs, hrun, rfl⟩
    · refine Or.inl ⟨⟨_, h⟩, fun m hm => ?_⟩
      obtain ⟨run, -, hrun, -⟩ := overlong_text_iff.mp hm
      exact hnone run hrun
  | int n | numeral _ n =>
    rw [parse]
    split
    · exact notVersion_ends (by simp) (by simp)
    · next hn =>
      split
      · next hlimit =>
        refine Or.inr (Or.inr ⟨.longInteger, rfl, fun m => ?_⟩)
        rw [overlong_iff (by simp) (by simp)]
        simp [Value.withinDigitLimit, hlimit]
      · next hlimit =>
        have hlimit : exceedsDigitLimit n = false := by simpa using hlimit
        exact ofChars_int_ends (by omega) hlimit (by simp) (by simp)
          (by simp [Value.withinDigitLimit, hlimit])
  | float x =>
    have hshown : Failure.notVersion (.float x) = .invalidVersion (.float x) := rfl
    have hshort : ∀ m, ¬ Overlong (.float x) m := by
      intro m hm
      obtain ⟨hlong, -⟩ := (overlong_iff (by simp) (by simp)).mp hm
      exact absurd hlong (by simp [Value.withinDigitLimit])
    rw [parse]
    split
    · exact notVersion_ends (by simp) (by simp)
    · rcases ofChars_outcome (.float x) x.text.toList with ⟨-, h⟩ | ⟨run, hs, hrun, -⟩ | ⟨-, -, h⟩
      · rw [h, hshown]
        exact Or.inr (Or.inl ⟨rfl, hshort⟩)
      · exact absurd hrun (not_firstLong_text x hs run)
      · exact Or.inl ⟨⟨_, h⟩, hshort⟩
  | _ => exact notVersion_ends (by simp) (by simp)

/-- **Reading a version fails in another way than by a refusal iff the value is too long.** -/
theorem parse_eq_misuse_iff : parse v = .error (.misuse m) ↔ Overlong v m := by
  rcases parse_ends v with ⟨⟨version, h⟩, hnone⟩ | ⟨h, hnone⟩ | ⟨m', h, hm'⟩
  · rw [h]
    simp [hnone]
  · rw [h]
    simp [hnone]
  · rw [h, hm']
    simp [eq_comm]

/-- Reading a version fails with a refusal of the value or with a misuse. -/
theorem parse_eq_error {f : Failure} (h : parse v = .error f) :
    f = .invalidVersion v ∨ ∃ m, f = .misuse m := by
  rcases parse_ends v with ⟨⟨version, hok⟩, -⟩ | ⟨hrefused, -⟩ | ⟨m, hmisuse, -⟩
  · exact absurd (h.symm.trans hok) (by simp)
  · exact Or.inl (Except.error.inj (h.symm.trans hrefused))
  · exact Or.inr ⟨m, Except.error.inj (h.symm.trans hmisuse)⟩

/-- The text by which a number or a text writes a version. -/
def spelling : Value → List Char
  | .int n | .numeral _ n => (toString n).toList
  | .float x => x.text.toList
  | .text s => trim s.toList
  | _ => []

/-- A version is read from the text that writes it, unless it stands for itself. -/
theorem ofChars_of_parse (hversion : ∀ version, v ≠ .version version) (h : parse v = .ok version) :
    ofChars v (spelling v) = .ok version := by
  cases v with
  | version version' => exact absurd rfl (hversion version')
  | text s => exact h
  | int n | numeral _ n =>
    rw [parse] at h
    split at h
    · exact absurd h (by simp [Failure.notVersion])
    · split at h
      · exact absurd h (by simp)
      · exact h
  | float x =>
    rw [parse] at h
    split at h
    · exact absurd h (by simp [Failure.notVersion])
    · exact h
  | _ => exact absurd h (by simp [parse, Failure.notVersion])

/-- **What is read**: the numbers between the dots of a text of the grammar, without the zeros at the end,
and the text. -/
theorem eq_of_parse (hversion : ∀ version, v ≠ .version version) (h : parse v = .ok version) :
    IsVersionText (spelling v) ∧
      version = ⟨dropTrailingZeros ((runs (spelling v)).map numeral), String.ofList (spelling v)⟩ := by
  have hchars := ofChars_of_parse hversion h
  obtain ⟨hwrites, -, hversion⟩ := of_ofChars_eq_ok hchars
  exact ⟨hwrites, hversion⟩

/-- **A version that is read keeps the text that wrote it**, which is one of the grammar. -/
theorem literal_of_parse (hversion : ∀ version, v ≠ .version version) (h : parse v = .ok version) :
    IsVersionText version.literal.toList := by
  obtain ⟨hwrites, rfl⟩ := eq_of_parse hversion h
  rwa [String.toList_ofList]

/-- A version that was read from a value other than a version. -/
def Parsed (v : Version) : Prop :=
  ∃ x : Value, (∀ u, x ≠ .version u) ∧ Version.parse x = .ok v

/-- A version that has been read is shown as the text that wrote it. -/
theorem Parsed.text_eq (h : Parsed version) : version.text = version.literal := by
  obtain ⟨w, hw, hparse⟩ := h
  have hne : version.literal ≠ "" := by
    intro hempty
    apply ne_nil_of_isVersionText (literal_of_parse hw hparse)
    rw [hempty]
    rfl
  rw [Version.text, if_pos hne]

/-- A text is refused iff, without its outer white space, it writes no version. -/
theorem parse_text_eq_invalid_iff :
    parse (.text s) = .error (.invalidVersion (.text s)) ↔ ¬ IsVersionText (trim s.toList) := by
  have hshown : Failure.notVersion (.text s) = .invalidVersion (.text s) := rfl
  rw [parse]
  rcases ofChars_outcome (.text s) (trim s.toList) with ⟨hno, h⟩ | ⟨run, hs, -, h⟩ | ⟨hs, -, h⟩
  · simp [h, hshown, hno]
  · simp [h, hs]
  · simp [h, hs]

end Version
end Subgraph
