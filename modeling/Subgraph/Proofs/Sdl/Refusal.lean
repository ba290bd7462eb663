import Subgraph.Proofs.Failure.Chain
import Subgraph.Sdl.Document

/-!
# `Sdl.Refusal` — how writing a document fails

Behind the checks of a schema only a value can be the cause of a failure: an argument of a directive that
has no literal, or a default value that its type cannot represent. This module follows the printers from
the literals up (`literalText_failsOnly`, `defaultLiteral_failsOnly`) to whole documents
(`plainDocument_failsOnly`). None of these failures is one of the two checks.
-/

namespace Subgraph

/-- The failures of a value that cannot be written. -/
inductive Failure.OfValue : Failure → Prop where
  | notLiteral (v : Value) : OfValue (.notLiteral v)
  | notFinite (x : Binary64) : OfValue (.notFiniteLiteral x)
  | longInteger : OfValue (.misuse .longInteger)
  | deepNesting : OfValue (.misuse .deepNesting)
  | unrepresentable (what : TypeGraph.Unrepresentable) (v : Value) :
    OfValue (.typeGraph (.unrepresentable what v))
  | noLiteral (v : Value) : OfValue (.typeGraph (.noLiteral v))

/-- They are not failures of a check. -/
theorem Failure.OfValue.ne_check {f : Failure} (h : f.OfValue) (n : String) :
    f ≠ .unresolvedType n ∧ f ≠ .unknownDirective n := by
  cases h <;> exact ⟨by simp, by simp⟩

open Failure (OfValue)

/-! ## Arguments of directives -/

namespace Literal

theorem refuse_failsOnly {α : Type} (room : Nat) (v : Value) :
    FailsOnly OfValue (refuse room v : Except Failure α) := by
  unfold refuse
  split
  · exact .error .deepNesting
  · split
    · exact .error (.notLiteral v)
    · exact .error .longInteger

theorem keyText_failsOnly (room : Nat) (k : Value) : FailsOnly OfValue (keyText room k) := by
  unfold keyText
  split
  · exact .error .deepNesting
  · split
    · exact .ok _
    · exact .error .longInteger

-- along the values: those in a list or a dictionary are smaller than it
mutual
/-- Making a literal fails on a value. -/
theorem ofValue_failsOnly (room : Nat) (v : Value) : FailsOnly OfValue (ofValue room v) := by
  match v with
  | .null | .bool _ | .symbol ⟨_, _⟩ | .numeral _ _ | .text _ => rw [ofValue]; exact .ok _
  | .int n =>
    rw [ofValue]
    split
    · exact .error .longInteger
    · exact .ok _
  | .float x =>
    rw [ofValue]
    split
    · exact .ok _
    · exact .error (.notFinite x)
  | .bytes _ | .version _ | .argument _ _ => rw [ofValue]; exact refuse_failsOnly room _
  | .dict entries =>
    have h := ofEntries_failsOnly (room - 2) entries
    rw [ofValue]
    split
    · exact .error .deepNesting
    · cases hx : ofEntries (room - 2) entries with
      | ok fields => exact .ok _
      | error f => exact .error (h f hx)
  | .list items | .tuple items =>
    have h := ofItems_failsOnly (room - 2) items
    rw [ofValue]
    split
    · exact .error .deepNesting
    · cases hx : ofItems (room - 2) items with
      | ok literals => exact .ok _
      | error f => exact .error (h f hx)

theorem ofItems_failsOnly (room : Nat) (vs : List Value) : FailsOnly OfValue (ofItems room vs) := by
  cases vs with
  | nil => rw [ofItems]; exact .ok _
  | cons v vs =>
    have h := ofValue_failsOnly room v
    have hs := ofItems_failsOnly room vs
    rw [ofItems]
    cases hx : ofValue room v with
    | error f => exact .error (h f hx)
    | ok l =>
      cases hxs : ofItems room vs with
      | error f => exact .error (hs f hxs)
      | ok ls => exact .ok _

theorem ofEntries_failsOnly (room : Nat) (es : List (Value × Value)) :
    FailsOnly OfValue (ofEntries room es) := by
  match es with
  | [] => rw [ofEntries]; exact .ok _
  | (k, v) :: es =>
    have hk := keyText_failsOnly room k
    have h := ofValue_failsOnly room v
    have hs := ofEntries_failsOnly room es
    rw [ofEntries]
    cases hname : keyText room k with
    | error f => exact .error (hk f hname)
    | ok name =>
      cases hx : ofValue room v with
      | error f => exact .error (h f hx)
      | ok l =>
        cases hxs : ofEntries room es with
        | error f => exact .error (hs f hxs)
        | ok fs => exact .ok _
end

end Literal

/-- Writing an argument fails on a value. -/
theorem literalText_failsOnly (v : Value) : FailsOnly OfValue (literalText v) :=
  (Literal.ofValue_failsOnly stackRoom v).map _

namespace Sdl

/-! ## Default values -/

theorem unrepresentable_failsOnly {α : Type} (what : TypeGraph.Unrepresentable) (v : Value) :
    FailsOnly OfValue (unrepresentable what v : Except Failure α) := by
  unfold unrepresentable
  split
  · exact .error (.unrepresentable what v)
  · exact .error .longInteger

theorem intDigits_failsOnly (n : Int) : FailsOnly OfValue (intDigits n) := by
  unfold intDigits
  split
  · exact .error .longInteger
  · exact .ok _

theorem intLiteral_failsOnly (v : Value) : FailsOnly OfValue (intLiteral v) := by
  unfold intLiteral
  split
  · exact .ok _
  · split
    · exact unrepresentable_failsOnly _ _
    · split
      · exact .ok _
      · exact unrepresentable_failsOnly _ _

theorem floatLiteral_failsOnly (v : Value) : FailsOnly OfValue (floatLiteral v) := by
  unfold floatLiteral
  split
  · exact .ok _
  · split
    · split
      · exact .ok _
      · exact unrepresentable_failsOnly _ _
    · exact unrepresentable_failsOnly _ _

theorem textLiteral_failsOnly (v : Value) : FailsOnly OfValue (textLiteral v) := by
  unfold textLiteral
  cases v with
  | text | bool => exact .ok _
  | int | numeral => exact (intDigits_failsOnly _).map _
  | float x =>
    dsimp only
    split
    · exact .ok _
    · exact unrepresentable_failsOnly _ _
  | _ => exact unrepresentable_failsOnly _ _

theorem truthLiteral_failsOnly (v : Value) : FailsOnly OfValue (truthLiteral v) := by
  unfold truthLiteral
  cases v with
  | bool | int | numeral => exact .ok _
  | float x =>
    dsimp only
    split
    · exact .ok _
    · exact unrepresentable_failsOnly _ _
  | _ => exact unrepresentable_failsOnly _ _

theorem identifierLiteral_failsOnly (v : Value) : FailsOnly OfValue (identifierLiteral v) := by
  unfold identifierLiteral
  cases v with
  | text => exact .ok _
  | int | numeral => exact (intDigits_failsOnly _).map _
  | float x =>
    dsimp only
    split
    · exact (intDigits_failsOnly _).map _
    · exact unrepresentable_failsOnly _ _
  | _ => exact unrepresentable_failsOnly _ _

theorem customLiteral_failsOnly (v : Value) : FailsOnly OfValue (customLiteral v) := by
  unfold customLiteral
  cases v with
  | bool | text => exact .ok _
  | int | numeral => exact (intDigits_failsOnly _).map _
  | float x =>
    dsimp only
    split
    · exact .ok _
    · exact .error (.noLiteral _)
  | _ =>
    dsimp only
    split
    · exact .error (.noLiteral _)
    · exact .error .longInteger

/-- Every scalar represents a value or fails on it. -/
theorem scalarLiteral_failsOnly (id : TypeId) (v : Value) :
    FailsOnly OfValue (scalarLiteral id v) := by
  unfold scalarLiteral
  split
  · exact intLiteral_failsOnly v
  · split
    · exact floatLiteral_failsOnly v
    · split
      · exact textLiteral_failsOnly v
      · split
        · exact truthLiteral_failsOnly v
        · split
          · exact identifierLiteral_failsOnly v
          · exact customLiteral_failsOnly v

theorem enumLiteral_failsOnly (name : String) (values : List EnumValue) (v : Value) :
    FailsOnly OfValue (enumLiteral name values v) := by
  unfold enumLiteral
  split
  · exact .ok _
  · exact unrepresentable_failsOnly _ _

theorem leafLiteral_failsOnly (g : TypeGraph) (id : TypeId) (v : Value) :
    FailsOnly OfValue (leafLiteral g id v) := by
  unfold leafLiteral
  split
  · exact .ok _
  · split
    · exact (scalarLiteral_failsOnly _ _).map _
    · exact (enumLiteral_failsOnly _ _ _).map _
    · exact .ok _

/-- The fields of an input object fail as their values do. -/
theorem pickFields_failsOnly {results : List (String × Except Failure (Option Literal))}
    (h : ∀ r ∈ results, FailsOnly OfValue r.2) (fs : List InputValue) :
    FailsOnly OfValue (pickFields results fs) := by
  induction fs with
  | nil => exact .ok _
  | cons f fs ih =>
    rw [pickFields]
    split
    · exact ih
    · exact ih
    · next e hfound =>
      obtain ⟨before, after, hresults, -⟩ := List.lookup_eq_some_iff.mp hfound
      exact .error (h (f.name, .error e) (by simp [hresults]) e rfl)
    · split
      · exact .ok _
      · next e hrest => exact .error (ih e hrest)

variable (g : TypeGraph)

mutual
/-- Making the literal of a default value fails on a value. -/
theorem defaultLiteral_failsOnly (r : TypeRef) (v : Value) :
    FailsOnly OfValue (defaultLiteral g r v) := by
  cases v with
  | null =>
    cases r with
    | nonNull => exact .ok _
    | _ => exact .ok _
  | list items | tuple items =>
    rw [defaultLiteral]
    split
    · exact (itemLiterals_failsOnly _ items).map _
    · exact leafLiteral_failsOnly g _ _
  | dict entries =>
    rw [defaultLiteral]
    split
    · exact (pickFields_failsOnly (entryLiterals_failsOnly _ entries) _).map _
    · exact leafLiteral_failsOnly g _ _
  | _ =>
    rw [defaultLiteral]
    exact leafLiteral_failsOnly g _ _

theorem itemLiterals_failsOnly (r : TypeRef) (vs : List Value) :
    FailsOnly OfValue (itemLiterals g r vs) := by
  cases vs with
  | nil => rw [itemLiterals]; exact .ok _
  | cons v vs =>
    have h := defaultLiteral_failsOnly r v
    have hs := itemLiterals_failsOnly r vs
    rw [itemLiterals]
    cases hx : defaultLiteral g r v with
    | error f => exact .error (h f hx)
    | ok l =>
      cases hxs : itemLiterals g r vs with
      | error f => exact .error (hs f hxs)
      | ok ls => exact .ok _

theorem entryLiterals_failsOnly (fields : List InputValue) (es : List (Value × Value)) :
    ∀ r ∈ entryLiterals g fields es, FailsOnly OfValue r.2 := by
  match es with
  | [] => simp [entryLiterals]
  | (k, v) :: es =>
    have hs := entryLiterals_failsOnly fields es
    cases k with
    | text name =>
      rw [entryLiterals]
      split
      · next f hf =>
        rw [List.forall_mem_cons]
        exact ⟨defaultLiteral_failsOnly f.type v, hs⟩
      · exact hs
    | _ => simpa only [entryLiterals] using hs
end

/-! ## Documents -/

/-- The texts of items fail as each does. -/
theorem eachText_failsOnly {α : Type} {text : Bool → α → Except Failure String}
    (h : ∀ first x, FailsOnly OfValue (text first x)) (first : Bool) (xs : List α) :
    FailsOnly OfValue (eachText text first xs) := by
  induction xs generalizing first with
  | nil => exact .ok _
  | cons x xs ih => exact (h first x).bind fun _ => (ih false).bind fun _ => .ok _

theorem inputValueText_failsOnly (a : InputValue) : FailsOnly OfValue (inputValueText g a) := by
  have hdefault : FailsOnly OfValue (defaultText g a) := by
    unfold defaultText
    split
    · exact .ok _
    · exact (defaultLiteral_failsOnly g _ _).map _
  exact hdefault.bind fun _ => .ok _

theorem argumentsText_failsOnly (indent : String) (as : List InputValue) :
    FailsOnly OfValue (argumentsText g indent as) := by
  have hline := inputValueText_failsOnly g
  unfold argumentsText
  split
  · exact .ok _
  · split
    · exact (eachText_failsOnly (fun _ a => hline a) true as).bind fun _ => .ok _
    · exact (eachText_failsOnly (fun _ a => (hline a).bind fun _ => .ok _) true as).bind
        fun _ => .ok _

/-- Writing a type without directives fails on a default value. -/
theorem typeText_failsOnly (t : TypeDef) : FailsOnly OfValue (typeText g t) := by
  have hfield : ∀ first f, FailsOnly OfValue (fieldText g first f) := fun first f =>
    (argumentsText_failsOnly g "  " f.arguments).bind fun _ => .ok _
  have hinput : ∀ first f, FailsOnly OfValue (inputFieldText g first f) := fun first f =>
    (inputValueText_failsOnly g f).bind fun _ => .ok _
  unfold typeText
  cases t.body with
  | scalar | union | enum => exact .ok _
  | object interfaces fields | interface interfaces fields =>
    exact (eachText_failsOnly hfield true fields).bind fun _ => .ok _
  | inputObject oneOf fields => exact (eachText_failsOnly hinput true fields).bind fun _ => .ok _

/-- **A document without directives fails on a default value.** -/
theorem plainDocument_failsOnly (s : Schema) : FailsOnly OfValue (plainDocument g s) := by
  have hdirective : ∀ d ∈ statedDirectives s, FailsOnly OfValue (directiveText g d) := fun d _ =>
    (argumentsText_failsOnly g "" d.arguments).bind fun _ => .ok _
  have htype : ∀ t ∈ s.definedTypes g, FailsOnly OfValue (typeText g t) := fun t _ =>
    typeText_failsOnly g t
  exact (FailsOnly.mapM hdirective).bind fun _ => (FailsOnly.mapM htype).bind fun _ => .ok _

end Sdl
end Subgraph
