import Subgraph.Proofs.Failure.Chain
import Subgraph.Proofs.Sdl.Layout

/-!
# `Sdl.Decoration` — printing with directives fills a layout

The printers with directives are written piece by piece beside those without. `Decorated` relates the
two: where printing with directives succeeds, so does printing without, and the two texts are one layout
filled in two ways; where it fails, printing without fails in the same way, or the text behind some part
cannot be had. The relation goes through chains of steps (`Decorated.pair`) and through lists
(`Decorated.each`), so every printer needs one line or two.

The printer of input objects forgets the mark `@oneOf`. `markedType` is the printer that does not forget
it; `decoratedType_eq` says that the one at hand is that printer on the type without its mark.
-/

namespace Subgraph
namespace TypeDef

/-- Whether a type is an input object with the mark. -/
def isOneOf (t : TypeDef) : Bool :=
  match t.body with
  | .inputObject oneOf _ => oneOf
  | _ => false

/-- A type without the mark. -/
def withoutOneOf (t : TypeDef) : TypeDef :=
  match t.body with
  | .inputObject _ fields => { t with body := .inputObject false fields }
  | _ => t

/-- Only an input object with the mark changes. -/
theorem withoutOneOf_eq_self {t : TypeDef} (h : t.isOneOf = false) : t.withoutOneOf = t := by
  obtain ⟨name, body, description, element⟩ := t
  cases body with
  | inputObject oneOf fields =>
    have hone : oneOf = false := h
    rw [hone]
    rfl
  | _ => rfl

/-- A type without the mark is the type iff there is no mark. -/
theorem withoutOneOf_eq_self_iff {t : TypeDef} : t.withoutOneOf = t ↔ t.isOneOf = false := by
  refine ⟨fun h => ?_, withoutOneOf_eq_self⟩
  rw [← h]
  obtain ⟨name, body, description, element⟩ := t
  cases body <;> rfl

/-- The mark is no part. -/
theorem withoutOneOf_parts (t : TypeDef) : t.withoutOneOf.parts = t.parts := by
  obtain ⟨name, body, description, element⟩ := t
  cases body <;> rfl

end TypeDef

namespace Sdl

open Layout

/-! ## The relation -/

/-- The text that a decoration puts behind a part; nothing where there is none to be had. -/
def textBehind (of : Decoration) (part : Part) : String := shown (of part.element)

/-- `x` is `plain` with texts behind the parts `ps`, which turn the result `bare` into `filled`. -/
structure Decorated {α : Type} (of : Decoration) (ps : List Part) (plain : Except Failure α)
    (bare filled : α) (x : Except Failure α) : Prop where
  ok : ∀ {a}, x = .ok a →
    (∀ p ∈ ps, of p.element = .ok (textBehind of p)) ∧ plain = .ok bare ∧ a = filled
  error : ∀ {f}, x = .error f → plain = .error f ∨ ∃ p ∈ ps, of p.element = .error f

/-- The relation for texts, along a layout. -/
abbrev Laid (of : Decoration) (plain : Except Failure String) (l : Layout)
    (x : Except Failure String) : Prop :=
  Decorated of l.parts plain l.bare (l.fill (textBehind of)) x

namespace Decorated

variable {α β γ : Type} {of : Decoration} {ps qs : List Part}

/-- Where neither the plain text fails nor the text behind a part, there is a result. -/
theorem eq_filled {px : Except Failure α} {b c a : α} {x : Except Failure α}
    (h : Decorated of ps px b c x) (hplain : px = .ok a)
    (hplaces : ∀ p ∈ ps, ∃ text, of p.element = .ok text) : x = .ok c := by
  cases x with
  | error f =>
    rcases h.error rfl with hf | ⟨p, hp, hf⟩
    · exact absurd hf (by simp [hplain])
    · obtain ⟨text, htext⟩ := hplaces p hp
      exact absurd hf (by simp [htext])
  | ok a' => rw [(h.ok rfl).2.2]

/-- A result that is there in any case. -/
theorem const (a : α) : Decorated of [] (.ok a) a a (.ok a) := by
  refine ⟨fun h => ⟨by simp, rfl, ?_⟩, fun h => absurd h (by simp)⟩
  injection h with h
  exact h.symm

/-- A text that has no places. -/
theorem fixed (x : Except Failure String) : Laid of x [.text (shown x)] x := by
  refine ⟨?_, Or.inl⟩
  rintro a rfl
  exact ⟨by simp, by simp, by simp⟩

/-- The place behind a part. -/
theorem place (p : Part) : Decorated of [p] (.ok "") "" (textBehind of p) (of p.element) := by
  refine ⟨fun {a} h => ?_, fun {f} h => Or.inr ⟨p, by simp, h⟩⟩
  have ha : textBehind of p = a := by rw [textBehind, h, shown_ok]
  refine ⟨fun q hq => ?_, rfl, ha.symm⟩
  rw [List.mem_singleton.mp hq, ha, h]

/-- Two steps one after the other. -/
theorem pair {px : Except Failure α} {bx fx : α} {x : Except Failure α} {py : Except Failure β}
    {b c : β} {y : Except Failure β} (hx : Decorated of ps px bx fx x)
    (hy : Decorated of qs py b c y) (k : α → β → γ) :
    Decorated of (ps ++ qs) (do let a ← px; let b ← py; .ok (k a b)) (k bx b) (k fx c)
      (do let a ← x; let b ← y; .ok (k a b)) := by
  refine ⟨fun {r} h => ?_, fun {f} h => ?_⟩
  · obtain ⟨a, ha, h⟩ := bind_eq_ok.mp h
    obtain ⟨b', hb, h⟩ := bind_eq_ok.mp h
    obtain ⟨hps, hpx, rfl⟩ := hx.ok ha
    obtain ⟨hqs, hpy, rfl⟩ := hy.ok hb
    injection h with h
    refine ⟨fun p hp => ?_, by rw [hpx, hpy]; rfl, h.symm⟩
    rcases List.mem_append.mp hp with hp | hp
    · exact hps p hp
    · exact hqs p hp
  · rcases bind_eq_error.mp h with hx' | ⟨a, ha, h⟩
    · -- the first step fails
      rcases hx.error hx' with hpx | ⟨p, hp, hf⟩
      · exact Or.inl (by rw [hpx]; rfl)
      · exact Or.inr ⟨p, List.mem_append_left _ hp, hf⟩
    · obtain ⟨-, hpx, -⟩ := hx.ok ha
      rcases bind_eq_error.mp h with hy' | ⟨b', -, h⟩
      · rcases hy.error hy' with hpy | ⟨p, hp, hf⟩
        · exact Or.inl (by rw [hpx, hpy]; rfl)
        · exact Or.inr ⟨p, List.mem_append_right _ hp, hf⟩
      · exact absurd h (by simp)

/-- A step whose result is put into a frame. -/
theorem framed {px : Except Failure α} {b c : α} {x : Except Failure α}
    (h : Decorated of ps px b c x) (k : α → β) :
    Decorated of ps (do let a ← px; .ok (k a)) (k b) (k c) (do let a ← x; .ok (k a)) := by
  have hk := h.pair (const ()) fun a _ => k a
  rw [List.append_nil] at hk
  exact hk

/-- The order of the parts does not matter. -/
theorem comm {px : Except Failure α} {b c : α} {x : Except Failure α}
    (h : Decorated of (ps ++ qs) px b c x) : Decorated of (qs ++ ps) px b c x := by
  have hmem : ∀ p, p ∈ qs ++ ps ↔ p ∈ ps ++ qs := fun p => by
    rw [List.mem_append, or_comm, ← List.mem_append]
  refine ⟨fun ha => ?_, fun hf => ?_⟩
  · obtain ⟨hps, hrest⟩ := h.ok ha
    exact ⟨fun p hp => hps p ((hmem p).mp hp), hrest⟩
  · exact (h.error hf).imp_right fun ⟨p, hp, hf⟩ => ⟨p, (hmem p).mpr hp, hf⟩

/-- The texts of items. -/
theorem each {plain text : Bool → α → Except Failure String} {layout : Bool → α → Layout}
    (xs : List α) (h : ∀ first, ∀ x ∈ xs, Laid of (plain first x) (layout first x) (text first x))
    (first : Bool) :
    Decorated of ((eachLayout layout first xs).flatMap parts) (eachText plain first xs)
      ((eachLayout layout first xs).map bare)
      ((eachLayout layout first xs).map (fill (textBehind of))) (eachText text first xs) := by
  induction xs generalizing first with
  | nil => exact const []
  | cons x xs ih =>
    -- the rest is never first, whatever the first item was
    have hxs := ih (fun b y hy => h b y (List.mem_cons_of_mem _ hy)) false
    simpa [eachLayout, eachText] using (h first x List.mem_cons_self).pair hxs (· :: ·)

end Decorated

/-! ## Parts -/

variable (g : TypeGraph) (of : Decoration)

/-- An argument or an input field, as the part `p` of its annotations. -/
theorem inputValue_laid {p : Part} {a : InputValue} (hp : p.element = a.element) :
    Laid of (inputValueText g a) (inputValueLayout g p a) (decoratedInputValue g of a) := by
  have hvalue : Laid of _ _ (inputValueText g a) := .fixed _
  have h := hvalue.pair (.place p) (· ++ ·)
  simpa [Laid, hp, inputValueLayout, decoratedInputValue] using h

/-- An argument on a line of its own. -/
theorem argumentLine_laid (first : Bool) (a : InputValue) :
    Laid of
      (do let t ← inputValueText g a; .ok (description a.description "    " first ++ "    " ++ t))
      (argumentLineLayout g first a)
      (do
        let t ← decoratedInputValue g of a
        .ok (description a.description "    " first ++ "    " ++ t)) := by
  have h := (inputValue_laid g of (p := a.argumentPart) rfl).framed
    (description a.description "    " first ++ "    " ++ ·)
  exact h

/-- The arguments of a field. -/
theorem arguments_laid (as : List InputValue) :
    Laid of (argumentsText g "  " as) (argumentsLayout g as) (decoratedArguments g of as) := by
  unfold argumentsText argumentsLayout decoratedArguments
  by_cases he : as.isEmpty = true
  · simp only [he, if_true]
    exact .const ""
  · by_cases hd : (as.any fun a => isDescribed a.description) = true
    · have hall : (as.all fun a => !isDescribed a.description) = false := by
        simpa [List.all_eq_false] using hd
      have h := (Decorated.each as (fun first a _ => argumentLine_laid g of first a)
        true).framed fun ts => "(\n" ++ "\n".intercalate ts ++ "\n  )"
      simpa [Laid, he, hd, hall, String.append_assoc] using h
    · have hall : (as.all fun a => !isDescribed a.description) = true := by
        simpa [List.all_eq_true] using hd
      have h := (Decorated.each as
        (fun _ a _ => inputValue_laid g of (p := a.argumentPart) rfl) true).framed
          fun ts => "(" ++ ", ".intercalate ts ++ ")"
      simpa [Laid, he, hd, hall, String.append_assoc] using h

/-- A field of an object or an interface. -/
theorem field_laid (first : Bool) (f : Field) :
    Laid of (fieldText g first f) (fieldLayout g first f) (decoratedField g of first f) := by
  have h := (arguments_laid g of f.arguments).pair (.place ⟨.fieldDefinition, f.element⟩)
    fun arguments ds =>
      description f.description "  " first ++ "  " ++ f.name ++ arguments ++ ": " ++
        g.refText f.type ++ deprecated f.deprecation ++ ds
  simpa [Laid, fieldText, fieldLayout, decoratedField, String.append_assoc] using h

/-- A field of an input object. -/
theorem inputField_laid (first : Bool) (f : InputValue) :
    Laid of (inputFieldText g first f) (inputFieldLayout g first f)
      (decoratedInputField g of first f) :=
  (inputValue_laid g of (p := f.fieldPart) rfl).framed
    (description f.description "  " first ++ "  " ++ ·)

/-- A value of an enumeration. -/
theorem enumValue_laid (first : Bool) (v : EnumValue) :
    Laid of (.ok (enumValueText first v)) (enumValueLayout first v)
      (decoratedEnumValue of first v) := by
  have hplace : Decorated of [v.part] (.ok "") "" _ (of v.element) := .place v.part
  have h := hplace.framed (enumValueText first v ++ ·)
  simpa [Laid, enumValueLayout, enumValueText, decoratedEnumValue] using h

/-! ## Types -/

/-- The values of an enumeration are always written. -/
theorem eachText_enumValueText (first : Bool) (vs : List EnumValue) :
    eachText (fun first v => .ok (enumValueText first v)) first vs =
      .ok (enumValueTexts first vs) := by
  induction vs generalizing first with
  | nil => rfl
  | cons v vs ih => simp [eachText, enumValueTexts, ih]

/-- A type with its directives and, if it is an input object, with its mark. -/
def markedType (t : TypeDef) : Except Failure String :=
  match t.body with
  | .inputObject oneOf fields => do
    let items ← eachText (decoratedInputField g of) true fields
    let ds ← of t.element
    .ok (typeHead t ++ oneOfMark oneOf ++ ds ++ block items)
  | _ => decoratedType g of t

/-- **Printing a type with its directives fills its layout.** -/
theorem type_laid (t : TypeDef) : Laid of (typeText g t) (typeLayout g t) (markedType g of t) := by
  have hplace : Decorated of [t.ownPart] (.ok "") "" _ (of t.element) := .place t.ownPart
  unfold typeText typeLayout markedType decoratedType
  cases hb : t.body with
  | scalar url =>
    have h := hplace.framed (typeHead t ++ specifiedBy url ++ ·)
    simpa [Laid, decoratedScalar] using h
  | union members =>
    have h := hplace.framed (typeHead t ++ · ++ membersText g members)
    simpa [Laid, decoratedUnion, String.append_assoc] using h
  | object interfaces fields =>
    have hitems := Decorated.each fields (fun first f _ => field_laid g of first f) true
    have h := hplace.pair hitems
      fun ds items => typeHead t ++ implementsText g interfaces ++ ds ++ block items
    simpa [Laid, decoratedObject, String.append_assoc] using h
  | interface interfaces fields =>
    have hitems := Decorated.each fields (fun first f _ => field_laid g of first f) true
    have h := hplace.pair hitems
      fun ds items => typeHead t ++ implementsText g interfaces ++ ds ++ block items
    simpa [Laid, decoratedObject, String.append_assoc] using h
  | enum values =>
    -- the values are written before the directives of the type, and stand behind them
    have hitems := Decorated.each values (fun first v _ => enumValue_laid of first v) true
    have h := (hitems.pair hplace fun items ds => typeHead t ++ ds ++ block items).comm
    simpa [Laid, decoratedEnum, eachText_enumValueText, String.append_assoc] using h
  | inputObject oneOf fields =>
    -- as with enumerations, the fields come first
    have hitems := Decorated.each fields (fun first f _ => inputField_laid g of first f) true
    have h := (hitems.pair hplace
      fun items ds => typeHead t ++ oneOfMark oneOf ++ ds ++ block items).comm
    simpa [Laid, oneOfMark, String.append_assoc] using h

/-- **The printer of types with directives forgets the mark**, and nothing else. -/
theorem decoratedType_eq (t : TypeDef) : decoratedType g of t = markedType g of t.withoutOneOf := by
  obtain ⟨name, body, desc, element⟩ := t
  cases body with
  | inputObject oneOf fields =>
    simp [decoratedType, decoratedInputObject, markedType, TypeDef.withoutOneOf, oneOfMark,
      typeHead, keyword]
  | _ => rfl

/-! ## Nothing behind the parts -/

/-- Where nothing stands behind the parts, printing with directives is printing without. -/
theorem Laid.eq_plain {of : Decoration} {plain x : Except Failure String} {l : Layout}
    (h : Laid of plain l x) (hof : ∀ p ∈ l.parts, of p.element = .ok "") : x = plain := by
  cases x with
  | error f =>
    rcases h.error rfl with hplain | ⟨p, hp, hf⟩
    · exact hplain.symm
    · rw [hof p hp] at hf
      exact absurd hf (by simp)
  | ok a =>
    obtain ⟨-, hplain, rfl⟩ := h.ok rfl
    have hfill : l.fill (textBehind of) = l.bare :=
      fill_congr fun p hp => by rw [textBehind, hof p hp, shown_ok]
    rw [hplain, hfill]

/-- A type is printed without directives as it is printed with the decoration of no text. -/
theorem markedType_blank (t : TypeDef) : markedType g (fun _ => .ok "") t = typeText g t :=
  (type_laid g _ t).eq_plain fun _ _ => rfl

/-- Where nothing stands behind the parts of a type, it may as well be printed without directives. -/
theorem typeText_laid {t : TypeDef} (hof : ∀ p ∈ (typeLayout g t).parts, of p.element = .ok "") :
    Laid of (typeText g t) (typeLayout g t) (typeText g t) := by
  have h := type_laid g of t
  rwa [h.eq_plain hof] at h

/-! ## Documents -/

/-- Texts of items that do not depend on being the first. -/
theorem mapM_eq_eachText {α : Type} (text : α → Except Failure String) (first : Bool)
    (xs : List α) : xs.mapM text = eachText (fun _ => text) first xs := by
  induction xs generalizing first with
  | nil => rfl
  | cons x xs ih => rw [List.mapM_cons, eachText, ih false]; rfl

/-- Printers of types that agree on the types of a schema agree on the schema. -/
theorem document_congr {s : Schema} {a b : TypeDef → Except Failure String}
    (h : ∀ t ∈ s.definedTypes g, a t = b t) : document g s a = document g s b := by
  unfold document
  rw [mapM_congr h]

/-- **Printing a schema with directives fills its layout**, if printing each of its types does. -/
theorem document_laid {s : Schema} {plain text : TypeDef → Except Failure String}
    {layout : TypeDef → Layout} (h : ∀ t ∈ s.definedTypes g, Laid of (plain t) (layout t) (text t)) :
    Laid of (document g s plain) (documentLayout g s layout) (document g s text) := by
  have hdirective : ∀ (first : Bool), ∀ d ∈ statedDirectives s,
      Laid of (directiveText g d) [.text (shown (directiveText g d))] (directiveText g d) :=
    fun _ d _ => .fixed _
  have hdirectives := Decorated.each _ hdirective true
  have htexts : eachLayout (fun _ d => [.text (shown (directiveText g d))]) true
      (statedDirectives s) = texts ((statedDirectives s).map fun d => shown (directiveText g d)) := by
    rw [eachLayout_eq_map, texts, List.map_map]
    rfl
  rw [htexts, parts_texts, map_fill_texts] at hdirectives
  have htypes := Decorated.each (s.definedTypes g) (fun _ t ht => h t ht) true
  rw [eachLayout_eq_map] at htypes
  have hdocument := hdirectives.pair htypes fun directives types =>
    "\n\n".intercalate ((schemaDefinition g s).toList ++ directives ++ types)
  simpa [Laid, document, documentLayout, preamble, mapM_eq_eachText _ true] using hdocument

end Sdl
end Subgraph
