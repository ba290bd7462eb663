import Subgraph.Sdl.Document

/-!
# `Sdl.Layout` — documents with places for directives

A document with directives and the document without them share everything but what stands behind the
parts of its types. A `Layout` is what they share: stretches of text, and in between the places behind
the parts. Filling the places with nothing leaves the plain text (`bare`); filling them with the texts
of directives gives the decorated one (`fill`).

Contents

* `Segment`, `Layout`, `fill`, `bare`, `Layout.parts` — layouts, and what is read off them;
* `joined`, `braced` — layouts with separators and in braces;
* `typeLayout`, `documentLayout` — the layout of a type and of a document, with the mark `@oneOf`;
* `typeLayout_parts`, `documentLayout_parts` — every part has exactly one place.

The layout says where things stand and not in which order they are computed: an enumeration has its own
place before those of its values, although its values are written first.
-/

namespace Subgraph

/-- A type as a part of itself. -/
def TypeDef.ownPart (t : TypeDef) : Part := ⟨t.body.location, t.element⟩

namespace Sdl

/-! ## Layouts -/

/-- A stretch of a document: text of its own, or the place behind a part. -/
inductive Segment where
  | text (s : String)
  | behind (part : Part)

/-- A document with places behind its parts. -/
abbrev Layout := List Segment

namespace Layout

/-- The document with a text in every place. -/
def fill (behind : Part → String) : Layout → String
  | [] => ""
  | .text s :: l => s ++ fill behind l
  | .behind part :: l => behind part ++ fill behind l

/-- The document without what stands in its places. -/
def bare (l : Layout) : String := l.fill fun _ => ""

/-- The parts that have a place, in the order of the text. -/
def parts : Layout → List Part
  | [] => []
  | .text _ :: l => parts l
  | .behind part :: l => part :: parts l

/-- Layouts with a text between them. -/
def joined (sep : String) : List Layout → Layout
  | [] => []
  | [l] => l
  | l :: m :: ls => l ++ .text sep :: joined sep (m :: ls)

/-- Layouts in braces, each on lines of its own; nothing for none. -/
def braced (ls : List Layout) : Layout :=
  if ls.isEmpty then [] else .text " \x7b\n" :: (joined "\n" ls ++ [.text "\n\x7d"])

@[simp] theorem fill_nil (b : Part → String) : fill b [] = "" := rfl
@[simp] theorem fill_text (b : Part → String) (s : String) (l : Layout) :
    fill b (.text s :: l) = s ++ fill b l := rfl
@[simp] theorem fill_behind (b : Part → String) (p : Part) (l : Layout) :
    fill b (.behind p :: l) = b p ++ fill b l := rfl
@[simp] theorem parts_nil : parts [] = [] := rfl
@[simp] theorem parts_text (s : String) (l : Layout) : parts (.text s :: l) = parts l := rfl
@[simp] theorem parts_behind (p : Part) (l : Layout) : parts (.behind p :: l) = p :: parts l := rfl

@[simp] theorem fill_append (b : Part → String) (l m : Layout) :
    fill b (l ++ m) = fill b l ++ fill b m := by
  induction l with
  | nil => simp
  | cons x l ih => cases x <;> simp [ih, String.append_assoc]

@[simp] theorem parts_append (l m : Layout) : parts (l ++ m) = parts l ++ parts m := by
  induction l with
  | nil => rfl
  | cons x l ih => cases x <;> simp [ih]

/-- Filling only looks at the parts that have a place. -/
theorem fill_congr {b b' : Part → String} {l : Layout} (h : ∀ p ∈ l.parts, b p = b' p) :
    l.fill b = l.fill b' := by
  induction l with
  | nil => rfl
  | cons x l ih =>
    cases x with
    | text s => rw [fill_text, fill_text, ih h]
    | behind p =>
      rw [parts_behind, List.forall_mem_cons] at h
      rw [fill_behind, fill_behind, h.1, ih h.2]

@[simp] theorem fill_joined (b : Part → String) (sep : String) (ls : List Layout) :
    fill b (joined sep ls) = sep.intercalate (ls.map (fill b)) := by
  induction ls with
  | nil => simp [joined]
  | cons l ls ih =>
    cases ls with
    | nil => simp [joined]
    | cons m ls =>
      rw [joined, fill_append, fill_text, ih, List.map_cons, List.map_cons, List.map_cons,
        String.intercalate_cons_cons, String.append_assoc]

@[simp] theorem parts_joined (sep : String) (ls : List Layout) :
    parts (joined sep ls) = ls.flatMap parts := by
  induction ls with
  | nil => rfl
  | cons l ls ih =>
    cases ls with
    | nil => simp [joined]
    | cons m ls => rw [joined, parts_append, parts_text, ih, ← List.flatMap_cons]

@[simp] theorem fill_braced (b : Part → String) (ls : List Layout) :
    fill b (braced ls) = block (ls.map (fill b)) := by
  cases ls with
  | nil => rfl
  | cons l ls => simp [braced, block, String.append_assoc]

@[simp] theorem parts_braced (ls : List Layout) : parts (braced ls) = ls.flatMap parts := by
  cases ls with
  | nil => rfl
  | cons l ls => simp [braced]

/-- Texts that have no places. -/
def texts (ss : List String) : List Layout := ss.map fun s => [.text s]

@[simp] theorem map_fill_texts (b : Part → String) (ss : List String) :
    (texts ss).map (fill b) = ss := by
  induction ss with
  | nil => rfl
  | cons s ss ih =>
    rw [texts, List.map_cons, List.map_cons, ← texts, ih, fill_text, fill_nil, String.append_empty]

@[simp] theorem parts_texts (ss : List String) : (texts ss).flatMap parts = [] := by
  induction ss with
  | nil => rfl
  | cons s ss ih => exact ih

@[simp] theorem map_bare_texts (ss : List String) : (texts ss).map bare = ss :=
  map_fill_texts (fun _ => "") ss

@[simp] theorem bare_nil : bare [] = "" := rfl
@[simp] theorem bare_text (s : String) (l : Layout) : bare (.text s :: l) = s ++ bare l := rfl
@[simp] theorem bare_behind (p : Part) (l : Layout) : bare (.behind p :: l) = bare l :=
  String.empty_append
@[simp] theorem bare_append (l m : Layout) : bare (l ++ m) = bare l ++ bare m := fill_append _ l m
@[simp] theorem bare_joined (sep : String) (ls : List Layout) :
    bare (joined sep ls) = sep.intercalate (ls.map bare) := fill_joined _ sep ls
@[simp] theorem bare_braced (ls : List Layout) : bare (braced ls) = block (ls.map bare) :=
  fill_braced _ ls

end Layout

/-! ## Layouts of parts -/

open Layout

/-- A text that may not be had; nothing then. -/
def shown (x : Except Failure String) : String := x.toOption.getD ""

@[simp] theorem shown_ok (s : String) : shown (.ok s) = s := rfl

/-- Layouts of items, each of which may depend on being the first. -/
def eachLayout {α : Type} (layout : Bool → α → Layout) (first : Bool) : List α → List Layout
  | [] => []
  | x :: xs => layout first x :: eachLayout layout false xs

/-- Layouts that do not depend on being the first. -/
theorem eachLayout_eq_map {α : Type} (layout : α → Layout) (first : Bool) (xs : List α) :
    eachLayout (fun _ => layout) first xs = xs.map layout := by
  induction xs generalizing first with
  | nil => rfl
  | cons x xs ih => rw [eachLayout, ih, List.map_cons]

variable (g : TypeGraph)

/-- An argument or an input field, with its place. -/
def inputValueLayout (part : Part) (a : InputValue) : Layout :=
  [.text (shown (inputValueText g a)), .behind part]

/-- An argument on a line of its own. -/
def argumentLineLayout (first : Bool) (a : InputValue) : Layout :=
  .text (description a.description "    " first ++ "    ") :: inputValueLayout g a.argumentPart a

/-- The arguments of a field. -/
def argumentsLayout (as : List InputValue) : Layout :=
  if as.isEmpty then []
  else if as.any fun a => isDescribed a.description then
    .text "(\n" :: (joined "\n" (eachLayout (argumentLineLayout g) true as) ++ [.text "\n  )"])
  else
    .text "(" ::
      (joined ", " (eachLayout (fun _ a => inputValueLayout g a.argumentPart a) true as) ++
        [.text ")"])

/-- A field of an object or an interface. -/
def fieldLayout (first : Bool) (f : Field) : Layout :=
  .text (description f.description "  " first ++ "  " ++ f.name) ::
    (argumentsLayout g f.arguments ++
      [.text (": " ++ g.refText f.type ++ deprecated f.deprecation),
        .behind ⟨.fieldDefinition, f.element⟩])

/-- A field of an input object. -/
def inputFieldLayout (first : Bool) (f : InputValue) : Layout :=
  .text (description f.description "  " first ++ "  ") :: inputValueLayout g f.fieldPart f

/-- A value of an enumeration. -/
def enumValueLayout (first : Bool) (v : EnumValue) : Layout :=
  [.text (enumValueText first v), .behind v.part]

/-! ## Layouts of types and documents -/

/-- The mark of an input object of which exactly one field is to be given. -/
def oneOfMark (oneOf : Bool) : String := if oneOf then " @oneOf" else ""

/-- A type with its places, its own behind everything that belongs to its head. -/
def typeLayout (t : TypeDef) : Layout :=
  match t.body with
  | .scalar url => [.text (typeHead t ++ specifiedBy url), .behind t.ownPart]
  | .object interfaces fields | .interface interfaces fields =>
    .text (typeHead t ++ implementsText g interfaces) :: .behind t.ownPart ::
      braced (eachLayout (fieldLayout g) true fields)
  | .union members =>
    [.text (typeHead t), .behind t.ownPart, .text (membersText g members)]
  | .enum values =>
    .text (typeHead t) :: .behind t.ownPart ::
      braced (eachLayout enumValueLayout true values)
  | .inputObject oneOf fields =>
    .text (typeHead t ++ oneOfMark oneOf) :: .behind t.ownPart ::
      braced (eachLayout (inputFieldLayout g) true fields)

/-- What a document states before its types: the schema definition and the declared directives. -/
def preamble (s : Schema) : List String :=
  (schemaDefinition g s).toList ++ (statedDirectives s).map fun d => shown (directiveText g d)

/-- A document with its places, its types laid out by a given function. -/
def documentLayout (s : Schema) (layout : TypeDef → Layout) : Layout :=
  joined "\n\n" (texts (preamble g s) ++ (s.definedTypes g).map layout)

/-! ## One place for every part -/

/-- The places of items, if every item has those of its parts. -/
theorem eachLayout_parts {α : Type} (layout : Bool → α → Layout) (ps : α → List Part)
    (h : ∀ first x, (layout first x).parts.Perm (ps x)) (first : Bool) (xs : List α) :
    ((eachLayout layout first xs).flatMap parts).Perm (xs.flatMap ps) := by
  induction xs generalizing first with
  | nil => exact .refl _
  | cons x xs ih =>
    rw [eachLayout, List.flatMap_cons, List.flatMap_cons]
    exact (h first x).append (ih false)

/-- The places of items that have one place each. -/
theorem eachLayout_parts_eq_map {α : Type} (layout : Bool → α → Layout) (part : α → Part)
    (h : ∀ first x, (layout first x).parts = [part x]) (first : Bool) (xs : List α) :
    (eachLayout layout first xs).flatMap parts = xs.map part := by
  induction xs generalizing first with
  | nil => rfl
  | cons x xs ih => rw [eachLayout, List.flatMap_cons, h, ih, List.map_cons, List.singleton_append]

theorem argumentsLayout_parts (as : List InputValue) :
    (argumentsLayout g as).parts = as.map InputValue.argumentPart := by
  unfold argumentsLayout
  split
  · next h => rw [List.isEmpty_iff.mp h]; rfl
  · split
    · simpa using eachLayout_parts_eq_map (argumentLineLayout g) _ (fun _ _ => rfl) true as
    · simpa using eachLayout_parts_eq_map (fun _ a => inputValueLayout g a.argumentPart a) _
        (fun _ _ => rfl) true as

/-- The place of a field stands behind those of its arguments. -/
theorem fieldLayout_parts (first : Bool) (f : Field) :
    (fieldLayout g first f).parts.Perm f.parts := by
  simp only [fieldLayout, parts_text, parts_append, parts_behind, parts_nil,
    argumentsLayout_parts g f.arguments]
  exact List.perm_append_comm

/-- **Every part of a type has exactly one place.** -/
theorem typeLayout_parts (t : TypeDef) : (typeLayout g t).parts.Perm t.parts := by
  unfold typeLayout TypeDef.parts
  cases hb : t.body with
  | scalar url => simp [TypeBody.parts, TypeDef.ownPart, hb]
  | union members => simp [TypeBody.parts, TypeDef.ownPart, hb]
  -- only fields with arguments have their places in another order than their parts
  | object interfaces fields =>
    simpa [TypeBody.parts, TypeDef.ownPart, hb] using
      eachLayout_parts _ _ (fieldLayout_parts g) true fields
  | interface interfaces fields =>
    simpa [TypeBody.parts, TypeDef.ownPart, hb] using
      eachLayout_parts _ _ (fieldLayout_parts g) true fields
  | enum values =>
    have h := eachLayout_parts_eq_map enumValueLayout EnumValue.part (fun _ _ => rfl) true values
    simp [TypeBody.parts, TypeDef.ownPart, hb, h]
  | inputObject oneOf fields =>
    have h := eachLayout_parts_eq_map (inputFieldLayout g) InputValue.fieldPart (fun _ _ => rfl) true
      fields
    simp [TypeBody.parts, TypeDef.ownPart, hb, h]

/-- **Every part of a schema has exactly one place in its document.** -/
theorem documentLayout_parts (s : Schema) {layout : TypeDef → Layout}
    (h : ∀ t, (layout t).parts.Perm t.parts) :
    (documentLayout g s layout).parts.Perm (s.parts g) := by
  have htypes : ∀ ts : List TypeDef, ((ts.map layout).flatMap parts).Perm
      (ts.flatMap TypeDef.parts) := by
    intro ts
    induction ts with
    | nil => exact .refl _
    | cons t ts ih =>
      rw [List.map_cons, List.flatMap_cons, List.flatMap_cons]
      exact (h t).append ih
  rw [documentLayout, parts_joined, List.flatMap_append, parts_texts, List.nil_append]
  exact htypes _

end Sdl
end Subgraph
