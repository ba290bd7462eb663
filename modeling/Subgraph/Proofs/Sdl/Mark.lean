import Mathlib.Algebra.Order.BigOperators.Group.List
import Mathlib.Algebra.Order.Ring.Nat
import Subgraph.Proofs.Sdl.Body

/-!
# `Sdl.Mark` — what the printer with directives forgets

An input object of which exactly one field is to be given has the mark `@oneOf` in its plain text. The
printer with directives does not write it, and forgets nothing else. This module says what follows for
whole documents.

* Without any text behind its parts, a type sent through the printer with directives is the plain
  text of the type without its mark (`decoratedType_blank_eq_iff`).
* A body is the text of all types sent through that printer iff every marked input object has an active
  directive, and it is the plain document with texts put in iff none has (`decorated_eq_body_iff`,
  `plain_eq_bare_iff`).

Texts that differ by marks are told apart by their lengths (`fill_eq_iff_of_forgets`).
-/

namespace Subgraph

/-! ## Lengths of joined texts -/

/-- Each text of a joined text counts with one separator; the last separator is missing. -/
theorem length_intercalate_add (sep : String) (xs : List String) (h : xs ≠ []) :
    (sep.intercalate xs).length + sep.length = (xs.map fun x => x.length + sep.length).sum := by
  induction xs with
  | nil => exact absurd rfl h
  | cons x xs ih =>
    cases xs with
    | nil => simp
    | cons y ys =>
      have hys := ih (by simp)
      rw [String.intercalate_cons_cons, List.map_cons, List.sum_cons, ← hys]
      simp only [String.length_append]
      omega

/-- Sums are equal only if their summands are, where none of one sum is less than its counterpart. -/
theorem eq_of_sum_eq {α : Type} {f g : α → Nat} {xs : List α} (hle : ∀ x ∈ xs, g x ≤ f x)
    (h : (xs.map f).sum = (xs.map g).sum) : ∀ x ∈ xs, f x = g x := by
  induction xs with
  | nil => simp
  | cons x xs ih =>
    rw [List.forall_mem_cons] at hle ⊢
    rw [List.map_cons, List.map_cons, List.sum_cons, List.sum_cons] at h
    -- what the first summand has too much the rest cannot make up for
    have hrest : (xs.map g).sum ≤ (xs.map f).sum := List.sum_le_sum hle.2
    have hx := hle.1
    exact ⟨by omega, ih hle.2 (by omega)⟩

/-- Joined texts are equal only if their texts have equal lengths, where none of one is shorter than its
counterpart. -/
theorem length_eq_of_intercalate_eq {α : Type} {sep : String} {before : List String}
    {a b : α → String} {xs : List α} (hle : ∀ x ∈ xs, (b x).length ≤ (a x).length)
    (h : sep.intercalate (before ++ xs.map a) = sep.intercalate (before ++ xs.map b)) :
    ∀ x ∈ xs, (a x).length = (b x).length := by
  cases xs with
  | nil => simp
  | cons x xs =>
    -- neither list is empty, so both texts lack one separator
    have ha := length_intercalate_add sep (before ++ (x :: xs).map a) (by simp)
    have hb := length_intercalate_add sep (before ++ (x :: xs).map b) (by simp)
    rw [h, hb, List.map_append, List.map_append, List.sum_append, List.sum_append] at ha
    have hsum := Nat.add_left_cancel ha
    rw [List.map_map, List.map_map] at hsum
    have hadd := eq_of_sum_eq (fun y hy => Nat.add_le_add_right (hle y hy) sep.length) hsum.symm
    exact fun y hy => Nat.add_right_cancel (hadd y hy)

namespace Sdl

open Layout

variable (g : TypeGraph)

/-! ## The mark of a type -/

/-- A type with the mark is an input object. -/
theorem exists_fields_of_isOneOf {t : TypeDef} (h : t.isOneOf = true) :
    ∃ fields, t.body = .inputObject true fields := by
  unfold TypeDef.isOneOf at h
  split at h
  · next oneOf fields hb => exact ⟨fields, by rw [hb, h]⟩
  · exact absurd h (by simp)

/-- A text with the mark is longer than the text without it. -/
theorem length_lt_marked (head rest : String) :
    (head ++ rest).length < (head ++ " @oneOf" ++ rest).length := by
  have hmark : " @oneOf".length = 7 := by decide
  simp only [String.length_append, hmark]
  omega

/-- The mark is not in the head of a type. -/
theorem typeHead_withoutOneOf (t : TypeDef) : typeHead t.withoutOneOf = typeHead t := by
  obtain ⟨name, body, desc, element⟩ := t
  cases body <;> rfl

/-- The mark stands behind the head of a plain text, and the text without it is that of the type without
it. -/
theorem typeText_of_isOneOf {t : TypeDef} (h : t.isOneOf = true) :
    ∃ rest : Except Failure String,
      typeText g t = rest.map (fun r => typeHead t ++ " @oneOf" ++ r) ∧
        typeText g t.withoutOneOf = rest.map fun r => typeHead t ++ r := by
  obtain ⟨fields, hb⟩ := exists_fields_of_isOneOf h
  refine ⟨(eachText (inputFieldText g) true fields).map block, ?_, ?_⟩
  · simp only [typeText, hb]
    cases eachText (inputFieldText g) true fields <;> rfl
  · have hbody : t.withoutOneOf.body = .inputObject false fields := by
      simp [TypeDef.withoutOneOf, hb]
    simp only [typeText, hbody, typeHead_withoutOneOf]
    cases eachText (inputFieldText g) true fields with
    | error f => rfl
    | ok items => simp [Except.map]

/-- The mark stands behind the head of a layout. -/
theorem typeLayout_of_isOneOf {t : TypeDef} (h : t.isOneOf = true) (b : Part → String) :
    ∃ rest, (typeLayout g t).fill b = typeHead t ++ " @oneOf" ++ rest ∧
      (typeLayout g t.withoutOneOf).fill b = typeHead t ++ rest := by
  obtain ⟨fields, hb⟩ := exists_fields_of_isOneOf h
  refine ⟨b t.ownPart ++ block ((eachLayout (inputFieldLayout g) true fields).map (fill b)), ?_, ?_⟩
  · simp [typeLayout, hb, oneOfMark, String.append_assoc]
  · simp [typeLayout, TypeDef.withoutOneOf, hb, oneOfMark, TypeDef.ownPart, TypeBody.location,
      typeHead, keyword, String.append_assoc]

/-- A type is refused with its mark iff it is without, in the same way. -/
theorem typeText_sameFailure (t : TypeDef) :
    SameFailure (typeText g t.withoutOneOf) (typeText g t) := by
  by_cases h : t.isOneOf = true
  · obtain ⟨rest, htext, hwithout⟩ := typeText_of_isOneOf g h
    rw [htext, hwithout]
    exact .map rest _ _
  · rw [TypeDef.withoutOneOf_eq_self (by simpa using h)]
    exact .refl _

/-- The mark is missed wherever there was one. -/
theorem typeText_withoutOneOf_eq_iff (t : TypeDef) :
    typeText g t.withoutOneOf = typeText g t ↔
      t.isOneOf = false ∨ ∃ f, typeText g t = .error f := by
  by_cases hone : t.isOneOf = true
  · obtain ⟨rest, htext, hwithout⟩ := typeText_of_isOneOf g hone
    cases rest with
    | error f =>
      rw [htext, hwithout]
      exact ⟨fun _ => Or.inr ⟨f, rfl⟩, fun _ => rfl⟩
    | ok r =>
      have hne : typeHead t ++ r ≠ typeHead t ++ " @oneOf" ++ r := by
        intro h
        have hlt := length_lt_marked (typeHead t) r
        rw [← h] at hlt
        exact Nat.lt_irrefl _ hlt
      rw [htext, hwithout]
      simp [Except.map, hone, hne]
  · have hoff : t.isOneOf = false := by simpa using hone
    rw [TypeDef.withoutOneOf_eq_self hoff]
    simp [hoff]

/-- **Without any text behind its parts, the printer with directives gives the plain text of the type
without its mark**; that is its plain text iff there is no mark, or no text at all. -/
theorem decoratedType_blank_eq_iff (t : TypeDef) :
    decoratedType g (fun _ => .ok "") t = typeText g t.withoutOneOf ∧
      (decoratedType g (fun _ => .ok "") t = typeText g t ↔
        t.isOneOf = false ∨ ∃ f, typeText g t = .error f) := by
  have h : decoratedType g (fun _ => .ok "") t = typeText g t.withoutOneOf := by
    rw [decoratedType_eq, markedType_blank]
  rw [h]
  exact ⟨rfl, typeText_withoutOneOf_eq_iff g t⟩

/-! ## Marks in documents -/

variable {g}

/-- Schemas fail alike under printers of types that fail alike. -/
theorem document_sameFailure {s : Schema} {a b : TypeDef → Except Failure String}
    (h : ∀ t ∈ s.definedTypes g, SameFailure (a t) (b t)) :
    SameFailure (document g s a) (document g s b) := by
  refine (SameFailure.refl _).bind fun ds ds' => (SameFailure.mapM h).bind fun as bs e => ?_
  simp

/-- A document without directives is its bare layout. -/
theorem document_eq_bare {s : Schema} (form : TypeDef → TypeDef) {text : String}
    (h : document g s (fun t => typeText g (form t)) = .ok text) :
    text = (documentLayout g s fun t => typeLayout g (form t)).bare := by
  have hlaid := document_laid (s := s) g (fun _ => .ok "") fun t _ =>
    typeText_laid g (fun _ => .ok "") (t := form t) fun _ _ => rfl
  obtain ⟨-, -, htext⟩ := hlaid.ok h
  exact htext

/-- A layout that may have forgotten the mark is no longer than the one with it, and is as long only if
there was none. -/
theorem length_fill_of_forgets {t t' : TypeDef} (b : Part → String)
    (h : t' = t ∨ t' = t.withoutOneOf) :
    ((typeLayout g t').fill b).length ≤ ((typeLayout g t).fill b).length ∧
      (((typeLayout g t).fill b).length = ((typeLayout g t').fill b).length → t' = t) := by
  rcases h with rfl | rfl
  · exact ⟨le_refl _, fun _ => rfl⟩
  · by_cases hone : t.isOneOf = true
    · obtain ⟨rest, hfill, hwithout⟩ := typeLayout_of_isOneOf g hone b
      have hlt := length_lt_marked (typeHead t) rest
      rw [hfill, hwithout]
      exact ⟨hlt.le, fun h => absurd h hlt.ne'⟩
    · have hself := TypeDef.withoutOneOf_eq_self (t := t) (by simpa using hone)
      rw [hself]
      exact ⟨le_refl _, fun _ => rfl⟩

/-- Two layouts of a schema, of which the second may have forgotten the marks of some types, are filled
alike iff it has forgotten none. -/
theorem fill_eq_iff_of_forgets {s : Schema} {p q : TypeDef → TypeDef} (b : Part → String)
    (h : ∀ t ∈ s.definedTypes g, q t = p t ∨ q t = (p t).withoutOneOf) :
    (documentLayout g s fun t => typeLayout g (p t)).fill b =
        (documentLayout g s fun t => typeLayout g (q t)).fill b ↔
      ∀ t ∈ s.definedTypes g, q t = p t := by
  have hfill : ∀ form : TypeDef → TypeDef,
      (documentLayout g s fun t => typeLayout g (form t)).fill b =
        "\n\n".intercalate (preamble g s ++
          (s.definedTypes g).map fun t => (typeLayout g (form t)).fill b) := by
    intro form
    rw [documentLayout, fill_joined, List.map_append, map_fill_texts, List.map_map]
    rfl
  rw [hfill, hfill]
  constructor
  · intro heq t ht
    have hlength := length_eq_of_intercalate_eq
      (fun t ht => (length_fill_of_forgets b (h t ht)).1) heq
    exact (length_fill_of_forgets b (h t ht)).2 (hlength t ht)
  · intro hall
    have htypes : (s.definedTypes g).map (fun t => (typeLayout g (p t)).fill b) =
        (s.definedTypes g).map fun t => (typeLayout g (q t)).fill b :=
      List.map_congr_left fun t ht => by rw [hall t ht]
    rw [htypes]

/-! ## The marks of a body -/

variable {w : Workspace} {s : Schema} {c : Catalog} {v : Version}

/-- Printing a type leaves it as it is iff it has no mark, or no active directive. -/
theorem printedForm_eq_self_iff {t : TypeDef} :
    printedForm w c v t = t ↔ (t.isOneOf = true → hasActive w c v t = false) := by
  unfold printedForm
  by_cases ha : hasActive w c v t = true
  · rw [if_pos ha, TypeDef.withoutOneOf_eq_self_iff]
    simp [ha]
  · rw [if_neg ha]
    simp [ha]

/-- Printing a type takes its mark iff it has none, or an active directive. -/
theorem withoutOneOf_eq_printedForm_iff {t : TypeDef} :
    t.withoutOneOf = printedForm w c v t ↔ (t.isOneOf = true → hasActive w c v t = true) := by
  unfold printedForm
  by_cases ha : hasActive w c v t = true
  · rw [if_pos ha]
    simp [ha]
  · rw [if_neg ha, TypeDef.withoutOneOf_eq_self_iff]
    simp [ha]

/-- Types as printed fail as the types do. -/
theorem printedForm_sameFailure (t : TypeDef) :
    SameFailure (typeText w.graph (printedForm w c v t)) (typeText w.graph t) := by
  rcases printedForm_eq_or (w := w) (c := c) (v := v) t with h | h
  · rw [h]
    exact typeText_sameFailure w.graph t
  · rw [h]
    exact .refl _

/-- A schema that is sent type by type through the printer with directives gives the body iff every
marked type has an active directive. -/
theorem decorated_eq_body_iff
    (hplaces : ∀ part ∈ s.parts w.graph,
      decoration w c v part.element = .ok (textBehind (decoration w c v) part))
    (hplain : document w.graph s (fun t => typeText w.graph (printedForm w c v t)) =
      .ok (bodyLayout w s c v).bare) :
    document w.graph s (decoratedType w.graph (decoration w c v)) =
        .ok ((bodyLayout w s c v).fill (textBehind (decoration w c v))) ↔
      ∀ t ∈ s.definedTypes w.graph, t.isOneOf = true → hasActive w c v t = true := by
  -- the layout of all types without their marks
  have hlaid := document_laid (s := s) w.graph (decoration w c v) fun t _ => by
    have h := type_laid w.graph (decoration w c v) t.withoutOneOf
    rwa [← decoratedType_eq] at h
  have hparts : ∀ t : TypeDef, (typeLayout w.graph t.withoutOneOf).parts.Perm t.parts := fun t => by
    have h := typeLayout_parts w.graph t.withoutOneOf
    rwa [t.withoutOneOf_parts] at h
  -- there is such a text, since marks do not change what fails
  have hfail := document_sameFailure fun t (_ : t ∈ s.definedTypes w.graph) f =>
    (printedForm_sameFailure (w := w) (c := c) (v := v) t f).trans
      (typeText_sameFailure w.graph t f).symm
  obtain ⟨text, htext⟩ := hfail.exists_ok hplain
  have hfilled := hlaid.eq_filled htext fun part hpart =>
    ⟨_, hplaces part ((documentLayout_parts w.graph s hparts).mem_iff.mp hpart)⟩
  have hforgets : ∀ t ∈ s.definedTypes w.graph, t.withoutOneOf = printedForm w c v t ∨
      t.withoutOneOf = (printedForm w c v t).withoutOneOf := by
    intro t _
    rcases printedForm_eq_or (w := w) (c := c) (v := v) t with h | h
    · exact Or.inl h.symm
    · exact Or.inr (by rw [h])
  have hiff := fill_eq_iff_of_forgets (textBehind (decoration w c v)) hforgets
  simp only [withoutOneOf_eq_printedForm_iff] at hiff
  rw [hfilled, Except.ok.injEq, eq_comm]
  exact hiff

/-- Without what stands behind the parts the body is the plain document iff no marked type has an active
directive. -/
theorem plain_eq_bare_iff
    (hplain : document w.graph s (fun t => typeText w.graph (printedForm w c v t)) =
      .ok (bodyLayout w s c v).bare) :
    plainDocument w.graph s = .ok (bodyLayout w s c v).bare ↔
      ∀ t ∈ s.definedTypes w.graph, t.isOneOf = true → hasActive w c v t = false := by
  have hforgets : ∀ t ∈ s.definedTypes w.graph,
      printedForm w c v t = t ∨ printedForm w c v t = t.withoutOneOf :=
    fun t _ => (printedForm_eq_or t).symm
  have hfail := document_sameFailure fun t (_ : t ∈ s.definedTypes w.graph) =>
    printedForm_sameFailure (w := w) (c := c) (v := v) t
  obtain ⟨text, htext⟩ := hfail.exists_ok hplain
  have hbare := document_eq_bare (fun t => t) htext
  have hiff := fill_eq_iff_of_forgets (fun _ => "") hforgets
  rw [plainDocument, htext, hbare, Except.ok.injEq]
  simp only [printedForm_eq_self_iff] at hiff
  exact hiff

/-! ## Documents -/

/-- **The printer with directives forgets the mark `@oneOf`, and nothing else.**

For a type without any text behind its parts it gives the plain text of the type without its mark. A
printed body is what it gives for all types iff every marked type has an active directive on it or its
parts. The body is a layout with one place for every part, filled with the directives of the parts;
with nothing in its places it is the plain document iff no marked type has an active directive. -/
theorem forgotten_marks (g : TypeGraph) (t : TypeDef) (w : Workspace) (s : Schema) (c : Catalog)
    (v : Version) :
    (decoratedType g (fun _ => .ok "") t = typeText g t.withoutOneOf ∧
      (decoratedType g (fun _ => .ok "") t = typeText g t ↔
        t.isOneOf = false ∨ ∃ f, typeText g t = .error f)) ∧
    ∀ text, v.isFederation2 = true → documentAt w s c v = .ok text →
      ∃ body, federationBody w s c v = .ok body ∧ text = joinHeader (linkHeader c v) body ∧
        (document w.graph s (decoratedType w.graph (decoration w c v)) = .ok body ↔
          ∀ t ∈ s.definedTypes w.graph, t.isOneOf = true → hasActive w c v t = true) ∧
        ∃ behind : Part → String, body = (bodyLayout w s c v).fill behind ∧
          (∀ part ∈ s.parts w.graph, decoration w c v part.element = .ok (behind part)) ∧
          (bodyLayout w s c v).parts.Perm (s.parts w.graph) ∧
          (plainDocument w.graph s = .ok (bodyLayout w s c v).bare ↔
            ∀ t ∈ s.definedTypes w.graph, t.isOneOf = true → hasActive w c v t = false) := by
  refine ⟨decoratedType_blank_eq_iff g t, fun text hv h => ?_⟩
  obtain ⟨hk, body, hbody, htext⟩ := exists_body_of_documentAt hv h
  obtain ⟨hplaces, hplain, rfl⟩ := (body_laid hk).ok hbody
  have hparts : ∀ part ∈ s.parts w.graph,
      decoration w c v part.element = .ok (textBehind (decoration w c v) part) :=
    fun part hpart => hplaces part (bodyLayout_parts.mem_iff.mpr hpart)
  exact ⟨_, hbody, htext, decorated_eq_body_iff hparts hplain, _, rfl, hparts, bodyLayout_parts,
    plain_eq_bare_iff hplain⟩

/-- A type whose field takes an input object. -/
def askingType : TypeDef :=
  ⟨"Query",
    .object []
      [⟨"a", .named BuiltIn.int, [⟨"i", .named 14, none, none, none, none⟩], none, none, none⟩],
    none, none⟩

/-- An input object with the mark and a directive on one of its fields. -/
def choiceType : TypeDef :=
  ⟨"I",
    .inputObject true
      [⟨"x", .named BuiltIn.int, none, none, none, some 0⟩,
        ⟨"y", .named BuiltIn.string, none, none, none, none⟩],
    none, none⟩

/-- The workspace of these types. -/
def choiceWorkspace : Workspace where
  elements :=
    #[⟨.inputFieldDefinition, Workspace.standardCatalog, ⟨[⟨"tag", [⟨"name", .text "t"⟩]⟩], true⟩⟩]
  graph := ⟨(BuiltIn.types ++ [askingType, choiceType]).toArray⟩

/-- The schema of these types. -/
def choiceSchema : Schema where
  typeMap := [("Query", 13), ("I", 14), ("Int", BuiltIn.int), ("String", BuiltIn.string)]
  query := some 13

/-- Its document at version `2.3`, in which the mark is missing. -/
def choiceText : String :=
  joinHeader (linkHeader .standard ⟨[2, 3], "2.3"⟩)
    "type Query \x7b\n  a(i: I): Int\n\x7d

input I \x7b\n  x: Int @tag(name: \"t\")\n  y: String\n\x7d"

/-- `forgotten_marks` at that schema: its types do not come out as they are without directives. -/
theorem forgotten_marks_choice :
    Version.isFederation2 ⟨[2, 3], "2.3"⟩ = true ∧
      documentAt choiceWorkspace choiceSchema .standard ⟨[2, 3], "2.3"⟩ = .ok choiceText ∧
      decoratedType choiceWorkspace.graph (fun _ => .ok "") choiceType ≠
        typeText choiceWorkspace.graph choiceType ∧
      plainDocument choiceWorkspace.graph choiceSchema ≠
        .ok (bodyLayout choiceWorkspace choiceSchema .standard ⟨[2, 3], "2.3"⟩).bare := by
  have hv : Version.isFederation2 ⟨[2, 3], "2.3"⟩ = true := by decide
  have hprint : documentAt choiceWorkspace choiceSchema .standard ⟨[2, 3], "2.3"⟩ =
      .ok choiceText := by rfl
  have htypes : choiceSchema.definedTypes choiceWorkspace.graph = [askingType, choiceType] := by rfl
  obtain ⟨⟨-, htype⟩, hdocument⟩ := forgotten_marks choiceWorkspace.graph choiceType choiceWorkspace
    choiceSchema .standard ⟨[2, 3], "2.3"⟩
  obtain ⟨-, -, -, -, -, -, -, -, hplain⟩ := hdocument _ hv hprint
  refine ⟨hv, hprint, fun h => ?_, fun h => ?_⟩
  · rcases htype.mp h with hone | ⟨f, hf⟩
    · exact absurd hone (by decide)
    · have htext : typeText choiceWorkspace.graph choiceType =
          .ok "input I @oneOf \x7b\n  x: Int\n  y: String\n\x7d" := by rfl
      exact absurd hf (by simp [htext])
  · have hoff := hplain.mp h choiceType (by simp [htypes]) (by decide)
    exact absurd hoff (by decide)

end Sdl
end Subgraph
