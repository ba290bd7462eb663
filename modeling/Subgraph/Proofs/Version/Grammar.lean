import Mathlib.Data.List.TakeWhile
import Mathlib.Data.Nat.Digits.Defs
import Subgraph.Proofs.Version.Padding

/-!
# `Version.Grammar` — which texts write a version, and what they write

A text is read without the white space around it (`Strips`). What is left writes a list of numbers if it
is made of nonempty digit runs with single dots between them (`Writes`); the digits are those of every
script, and a run stands for its value in base ten (`numeral_eq_ofDigits`). These are the texts of the
grammar, no more and no less (`exists_writes_iff`), and a text writes one list of numbers
(`Writes.unique`).

What is read is what is written, but for zeros at the end, and is kept with the text that wrote it. That
text has no white space around it, so that reading it once more gives the same version
(`parse_text_of_parse`).

## Contents
- **White space.** `Strips`, `strips_trim`, `isBlank_of_isDigit`.
- **Numbers.** `WritesNumber`, `Writes`, `exists_writes_iff`, `Writes.unique`.
- **Long runs.** `ShortRuns`, `not_firstLong_of_shortRuns`.
- **Reading.** `writes_of_parse_text`, `parse_text_of_parse`, `texts_of_versions`.
-/

namespace Subgraph

namespace Text

/-! ## White space at the ends -/

/-- `cs` is what is left of a text without the white space around it. -/
def Strips (text cs : List Char) : Prop :=
  (∃ left right, text = left ++ cs ++ right ∧ ∀ c ∈ left ++ right, isBlank c = true) ∧
    (∀ c ∈ cs.head?, isBlank c = false) ∧ ∀ c ∈ cs.getLast?, isBlank c = false

/-- Without a run at its end a text ends with something else. -/
theorem trimEndBy_split (p : Char → Bool) (cs : List Char) :
    (∃ right, cs = trimEndBy p cs ++ right ∧ ∀ c ∈ right, p c = true) ∧
      ∀ c ∈ (trimEndBy p cs).getLast?, p c = false := by
  unfold trimEndBy
  refine ⟨⟨(cs.reverse.takeWhile p).reverse, ?_, ?_⟩, ?_⟩
  · rw [← List.reverse_append, List.takeWhile_append_dropWhile, List.reverse_reverse]
  · intro c hc
    exact List.mem_takeWhile_imp (List.mem_reverse.mp hc)
  · intro c hc
    rw [List.getLast?_reverse] at hc
    have hnot := List.head?_dropWhile_not p cs.reverse
    rw [hc] at hnot
    simpa using hnot

/-- **Trimming takes away the white space around a text and nothing else.** -/
theorem strips_trim (cs : List Char) : Strips cs (trim cs) := by
  obtain ⟨⟨right, hright, hblank⟩, hlast⟩ := trimEndBy_split isBlank (cs.dropWhile isBlank)
  have hsplit : cs.dropWhile isBlank = trim cs ++ right := hright
  refine ⟨⟨cs.takeWhile isBlank, right, ?_, ?_⟩, ?_, hlast⟩
  · rw [List.append_assoc, ← hsplit, List.takeWhile_append_dropWhile]
  · intro c hc
    rcases List.mem_append.mp hc with hc | hc
    · exact List.mem_takeWhile_imp hc
    · exact hblank c hc
  · intro c hc
    -- what is left starts where the text without white space in front does
    have hhead : (cs.dropWhile isBlank).head? = some c := by
      rw [hsplit, List.head?_append, hc]
      rfl
    have hnot := List.head?_dropWhile_not isBlank cs
    rw [hhead] at hnot
    simpa using hnot

/-- What is left of a text is a part of it. -/
theorem Strips.isInfix {text cs : List Char} (h : Strips text cs) : cs <:+: text := by
  obtain ⟨⟨left, right, hsplit, -⟩, -⟩ := h
  exact ⟨left, right, hsplit.symm⟩

/-- A digit of any script is no white space. -/
theorem isBlank_of_isDigit {c : Char} (h : isDigit c = true) : isBlank c = false := by
  -- the runs of ten digits lie between the blanks
  have hgaps : ∀ z ∈ decimalZeros, (0x21 ≤ z ∧ z + 10 ≤ 0x85) ∨ (0xA1 ≤ z ∧ z + 10 ≤ 0x1680) ∨
      (0x1681 ≤ z ∧ z + 10 ≤ 0x2000) ∨ 0x3001 ≤ z := by decide
  have hrange : ∃ z ∈ decimalZeros, z ≤ c.toNat ∧ c.toNat < z + 10 := by
    obtain ⟨d, hd⟩ := Option.isSome_iff_exists.mp h
    unfold digitValue? at hd
    split at hd
    · next hascii =>
      simp only [Bool.and_eq_true, decide_eq_true_eq] at hascii
      exact ⟨0x30, by decide, hascii.1, by omega⟩
    · obtain ⟨z, hz, -⟩ := Option.map_eq_some_iff.mp hd
      have hin := List.find?_some hz
      simp only [Bool.and_eq_true, decide_eq_true_eq] at hin
      exact ⟨z, List.mem_of_find?_eq_some hz, hin⟩
  obtain ⟨z, hz, hlow, hhigh⟩ := hrange
  have hgap := hgaps z hz
  simp [isBlank]
  omega

end Text

open Text

namespace Version

variable {cs : List Char} {ns ms : List Nat} {s : String} {v : Value} {version : Version}

/-! ## What is written -/

/-- A nonempty run of digits writes the number that it stands for in base ten. -/
def WritesNumber (run : List Char) (n : Nat) : Prop :=
  run ≠ [] ∧ ∃ ds : List Nat, run.map digitValue? = ds.map some ∧ n = Nat.ofDigits 10 ds.reverse

/-- A text writes numbers as digit runs with single dots between them. -/
def Writes (cs : List Char) (ns : List Nat) : Prop :=
  ∃ parts, parts ≠ [] ∧ cs = ['.'].intercalate parts ∧ List.Forall₂ WritesNumber parts ns

/-- **The numeral of a run is the value of its digits in base ten.** -/
theorem numeral_eq_ofDigits {run : List Char} {ds : List Nat} (h : run.map digitValue? = ds.map some) :
    numeral run = Nat.ofDigits 10 ds.reverse := by
  have hfold : ∀ init, run.foldl (fun n c => 10 * n + (digitValue? c).getD 0) init =
      ds.foldl (fun n d => 10 * n + d) init := by
    induction run generalizing ds with
    | nil =>
      obtain rfl : ds = [] := List.map_eq_nil_iff.mp h.symm
      exact fun _ => rfl
    | cons c run ih =>
      cases ds with
      | nil => exact absurd h (by simp)
      | cons d ds =>
        rw [List.map_cons, List.map_cons] at h
        obtain ⟨hd, hds⟩ := List.cons.inj h
        intro init
        rw [List.foldl_cons, List.foldl_cons, hd]
        exact ih hds _
  rw [numeral, hfold, Nat.ofDigits_eq_foldr, List.foldr_reverse]
  congr 1
  funext n d
  simp [Nat.add_comm]

/-- A run writes a number iff it is a nonempty run of digits, and then its numeral. -/
theorem writesNumber_iff {run : List Char} {n : Nat} :
    WritesNumber run n ↔ (run ≠ [] ∧ ∀ c ∈ run, isDigit c = true) ∧ n = numeral run := by
  constructor
  · rintro ⟨hne, ds, hds, rfl⟩
    refine ⟨⟨hne, ?_⟩, (numeral_eq_ofDigits hds).symm⟩
    intro c hc
    have hmem : digitValue? c ∈ ds.map some := hds ▸ List.mem_map_of_mem hc
    obtain ⟨d, -, hd⟩ := List.mem_map.mp hmem
    rw [isDigit, ← hd]
    rfl
  · rintro ⟨⟨hne, hdigits⟩, rfl⟩
    have hds : run.map digitValue? = (run.map fun c => (digitValue? c).getD 0).map some := by
      rw [List.map_map]
      apply List.map_congr_left
      intro c hc
      obtain ⟨d, hd⟩ := Option.isSome_iff_exists.mp (hdigits c hc)
      simp [hd]
    exact ⟨hne, _, hds, numeral_eq_ofDigits hds⟩

/-- Runs write the list of their numerals. -/
theorem forall₂_writesNumber_iff {parts : List (List Char)} :
    List.Forall₂ WritesNumber parts ns ↔
      (∀ part ∈ parts, part ≠ [] ∧ ∀ c ∈ part, isDigit c = true) ∧ ns = parts.map numeral := by
  induction parts generalizing ns with
  | nil => simp
  | cons part parts ih =>
    cases ns with
    | nil => simp
    | cons n ns =>
      rw [List.forall₂_cons, writesNumber_iff, ih, List.forall_mem_cons, List.map_cons,
        List.cons.injEq]
      tauto

/-- **A text writes numbers iff it is one of the grammar.** -/
theorem exists_writes_iff : (∃ ns, Writes cs ns) ↔ IsVersionText cs := by
  constructor
  · rintro ⟨ns, parts, hne, hcs, hparts⟩
    exact ⟨parts, hne, (forall₂_writesNumber_iff.mp hparts).1, hcs⟩
  · rintro ⟨parts, hne, hparts, hcs⟩
    exact ⟨_, parts, hne, hcs, forall₂_writesNumber_iff.mpr ⟨hparts, rfl⟩⟩

/-- The numbers that a text writes are the numerals between its dots. -/
theorem Writes.eq (h : Writes cs ns) : ns = (runs cs).map numeral := by
  obtain ⟨parts, hne, rfl, hparts⟩ := h
  obtain ⟨hdigits, rfl⟩ := forall₂_writesNumber_iff.mp hparts
  have hdot : ∀ part ∈ parts, '.' ∉ part := fun part hpart hmem =>
    absurd ((hdigits part hpart).2 '.' hmem) (by decide)
  rw [runs, List.splitOn_intercalate '.' hdot hne]

/-- A text writes one list of numbers. -/
theorem Writes.unique (h : Writes cs ns) (h' : Writes cs ms) : ns = ms :=
  h.eq.trans h'.eq.symm

/-- A text of the grammar has no white space at its ends. -/
theorem trim_of_isVersionText (h : IsVersionText cs) : trim cs = cs := by
  have hblank : ∀ c ∈ cs, isBlank c = false := by
    intro c hc
    rcases mem_of_isVersionText h hc with hdigit | rfl
    · exact isBlank_of_isDigit hdigit
    · rfl
  exact trim_of_ends (fun c hc => hblank c (List.mem_of_mem_head? hc))
    fun c hc => hblank c (List.mem_of_getLast? hc)

/-! ## Runs that are short enough -/

/-- No run of digits in a text is longer than a number may be. -/
def ShortRuns (cs : List Char) : Prop :=
  ∀ run, run <:+: cs → (∀ c ∈ run, isDigit c = true) → run.length ≤ digitLimit

/-- A short text has short runs only. -/
theorem shortRuns_of_length (h : cs.length ≤ digitLimit) : ShortRuns cs :=
  fun _ hrun _ => hrun.length_le.trans h

/-- What is left of a text with short runs has short runs. -/
theorem ShortRuns.trim (h : ShortRuns cs) : ShortRuns (trim cs) :=
  fun run hrun => h run (hrun.trans (strips_trim cs).isInfix)

/-- In a text of the grammar with short runs no run is too long. -/
theorem not_firstLong_of_shortRuns (hcs : IsVersionText cs) (h : ShortRuns cs) (run : List Char) :
    ¬ FirstLong cs run := by
  rintro ⟨hlong, before, after, hruns, -⟩
  have hmem : run ∈ runs cs := by simp [hruns]
  have hrun : isRun run = true := List.all_eq_true.mp (isVersionText_iff.mp hcs) run hmem
  have hle : run.length ≤ digitLimit := h run (infix_of_mem_runs hmem) (isRun_iff.mp hrun).2
  omega

/-! ## Reading -/

/-- What is read from a text does not depend on the value that it is the text of. -/
theorem ofChars_congr {source source' : Value} (h : ofChars source cs = .ok version) :
    ofChars source' cs = .ok version := by
  obtain ⟨hwrites, hshort, rfl⟩ := of_ofChars_eq_ok h
  exact ofChars_eq_ok source' hwrites hshort

/-- A text of the grammar with short runs is read. -/
theorem exists_parse_text (hs : IsVersionText (trim s.toList)) (hshort : ShortRuns s.toList) :
    ∃ version, parse (.text s) = .ok version := by
  rw [parse]
  exact ⟨_, ofChars_eq_ok (.text s) hs (not_firstLong_of_shortRuns hs hshort.trim)⟩

/-- **What is read from a text**: the numbers that it writes, without the zeros at the end, and the text
itself. -/
theorem writes_of_parse_text (h : parse (.text s) = .ok version) :
    version.literal.toList = trim s.toList ∧
      ∃ ns, Writes (trim s.toList) ns ∧ version.components.getLast? ≠ some 0 ∧
        ∃ k, ns = version.components ++ List.replicate k 0 := by
  have htext : ∀ x, Value.text s ≠ .version x := by simp
  obtain ⟨hs, hversion⟩ := eq_of_parse htext h
  obtain ⟨ns, hns⟩ := exists_writes_iff.mpr hs
  obtain ⟨hlast, k, hk⟩ := components_of_parse htext h
  refine ⟨?_, ns, hns, hlast, k, ?_⟩
  · rw [hversion]
    exact String.toList_ofList
  · rw [hns.eq]
    exact hk

/-- **A version that has been read is read again from its text.** -/
theorem Parsed.parse_literal (h : Parsed version) :
    parse (.text version.literal) = .ok version := by
  obtain ⟨w, hw, hparse⟩ := h
  have hchars := ofChars_of_parse hw hparse
  obtain ⟨hwrites, hversion⟩ := eq_of_parse hw hparse
  have hliteral : version.literal.toList = spelling w := by
    rw [hversion]
    exact String.toList_ofList
  show ofChars _ (trim version.literal.toList) = .ok version
  rw [hliteral, trim_of_isVersionText hwrites]
  exact ofChars_congr hchars

/-- Whatever is accepted, if it is no version that was put together by hand, is a version that has been
read. -/
theorem parsed_of_parse (hv : ∀ x, v = .version x → Parsed x) (h : parse v = .ok version) :
    Parsed version := by
  by_cases hversion : ∃ x, v = .version x
  · obtain ⟨x, rfl⟩ := hversion
    obtain rfl : x = version := Except.ok.inj h
    exact hv x rfl
  · exact ⟨v, fun x hx => hversion ⟨x, hx⟩, h⟩

/-- Reading the text of what was read changes nothing. -/
theorem parse_text_of_parse (hv : ∀ x, v = .version x → Parsed x) (h : parse v = .ok version) :
    parse (.text version.text) = .ok version := by
  have hparsed := parsed_of_parse hv h
  rw [hparsed.text_eq]
  exact hparsed.parse_literal

/-- **The texts that are versions.**

A text is refused iff what is left of it without the white space around it writes no numbers as digit
runs between single dots; the refusal shows the text as it was given. Where it writes numbers, with no
digit run that is too long, it is read: as what is left, and the numbers without the zeros at the end.

And whatever is accepted has a text from which it is read again, unchanged. -/
theorem texts_of_versions :
    (∀ s : String,
      Strips s.toList (trim s.toList) ∧
      (parse (.text s) = .error (.invalidVersion (.text s)) ↔
        ¬ ∃ ns, Writes (trim s.toList) ns) ∧
      (ShortRuns s.toList →
        ((∃ version, parse (.text s) = .ok version) ↔ ∃ ns, Writes (trim s.toList) ns)) ∧
      ∀ version, parse (.text s) = .ok version →
        version.literal.toList = trim s.toList ∧
          ∃ ns, Writes (trim s.toList) ns ∧ version.components.getLast? ≠ some 0 ∧
            ∃ k, ns = version.components ++ List.replicate k 0) ∧
    ∀ (v : Value) (version : Version), (∀ x, v = .version x → Parsed x) → parse v = .ok version →
      parse (.text version.text) = .ok version := by
  constructor
  · intro s
    refine ⟨strips_trim s.toList, ?_, ?_, ?_⟩
    · rw [exists_writes_iff]
      exact parse_text_eq_invalid_iff
    · intro hshort
      constructor
      · rintro ⟨version, h⟩
        obtain ⟨-, ns, hns, -⟩ := writes_of_parse_text h
        exact ⟨ns, hns⟩
      · intro hwrites
        exact exists_parse_text (exists_writes_iff.mp hwrites) hshort
    · intro version h
      exact writes_of_parse_text h
  · intro v version hv h
    exact parse_text_of_parse hv h

/-- Digits of another script, zeros at the end and white space around: the version is 2.3, and its text
is what was written. -/
theorem texts_of_versions_scripts :
    parse (.text " ٢.٠3.0\n") = .ok ⟨[2, 3], "٢.٠3.0"⟩ ∧
      (∃ ns, Writes (trim " ٢.٠3.0\n".toList) ns) ∧
      parse (.text "٢.٠3.0") = .ok ⟨[2, 3], "٢.٠3.0"⟩ := by
  have hchars : " ٢.٠3.0\n".toList = [' ', '٢', '.', '٠', '3', '.', '0', '\n'] := by decide
  have hparse : parse (.text " ٢.٠3.0\n") = .ok ⟨[2, 3], "٢.٠3.0"⟩ := by
    show ofChars (.text " ٢.٠3.0\n") (trim " ٢.٠3.0\n".toList) = _
    rw [hchars]
    rfl
  have hshown : (⟨[2, 3], "٢.٠3.0"⟩ : Version).text = "٢.٠3.0" := if_pos (by decide)
  have hshort : ShortRuns " ٢.٠3.0\n".toList := by
    apply shortRuns_of_length
    rw [hchars]
    decide
  have hagain := texts_of_versions.2 _ _ (by simp) hparse
  rw [hshown] at hagain
  exact ⟨hparse, ((texts_of_versions.1 _).2.2.1 hshort).mp ⟨_, hparse⟩, hagain⟩

end Version
end Subgraph
