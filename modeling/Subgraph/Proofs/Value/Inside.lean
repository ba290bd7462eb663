import Subgraph.Value.Render

/-!
# `Value.Basic` — what is inside a value

Lists, tuples and dictionaries are made of other values to any depth. Their `parts` are what they are
directly made of; keys of dictionaries are none. A statement about all values is proved along the parts
(`parts_induction`), whichever kind of collection they are parts of.

`inside` lists a value and everything that it is made of, depth first and from left to right. A value
stands before its parts, and what is inside one part before what is inside the next (`inside_eq`), so
that the first value inside that has a property is the one that is met first.

Going through a value takes calls inside one another, two for every collection around another value.
`literalFrames` counts them; for the parts of a value there is room wherever there is room for the value
(`literalFrames_of_mem_parts`).
-/

namespace Subgraph.Value

/-! ## Parts -/

/-- The values that a value is directly made of: the items of a list or tuple, and what stands under the
keys of a dictionary. -/
def parts : Value → List Value
  | .list items | .tuple items => items
  | .dict entries => entries.map (·.2)
  | _ => []

/-- Parts are smaller than what they are parts of. -/
theorem sizeOf_lt_of_mem_parts {v x : Value} (h : x ∈ v.parts) : sizeOf x < sizeOf v := by
  cases v with
  | list items | tuple items =>
    have hlt : sizeOf x < sizeOf items := List.sizeOf_lt_of_mem h
    simp only [list.sizeOf_spec, tuple.sizeOf_spec]
    omega
  | dict entries =>
    obtain ⟨⟨k, y⟩, he, rfl⟩ := List.mem_map.mp h
    have hlt : sizeOf (k, y) < sizeOf entries := List.sizeOf_lt_of_mem he
    simp only [dict.sizeOf_spec, Prod.mk.sizeOf_spec] at hlt ⊢
    omega
  | _ => exact absurd h (by simp [parts])

/-- **Induction along the parts of values**: what holds of a value whenever it holds of its parts holds of
every value. -/
theorem parts_induction {P : Value → Prop} (step : ∀ v, (∀ x ∈ v.parts, P x) → P v) (v : Value) : P v :=
  step v fun x hx =>
    have := sizeOf_lt_of_mem_parts hx
    parts_induction step x
termination_by sizeOf v

/-! ## Everything inside -/

mutual
/-- A value and everything that it is made of, depth first and from left to right. -/
def inside : Value → List Value
  | .list items => .list items :: insideItems items
  | .tuple items => .tuple items :: insideItems items
  | .dict entries => .dict entries :: insideEntries entries
  | v => [v]

/-- Everything that items are made of. -/
def insideItems : List Value → List Value
  | [] => []
  | x :: xs => inside x ++ insideItems xs

/-- Everything that is made of what stands in entries. -/
def insideEntries : List (Value × Value) → List Value
  | [] => []
  | (_, x) :: es => inside x ++ insideEntries es
end

theorem insideItems_eq (items : List Value) : insideItems items = items.flatMap inside := by
  induction items with
  | nil => rfl
  | cons x items ih => rw [insideItems, ih, List.flatMap_cons]

theorem insideEntries_eq (entries : List (Value × Value)) :
    insideEntries entries = (entries.map (·.2)).flatMap inside := by
  induction entries with
  | nil => rfl
  | cons e entries ih => rw [insideEntries, ih, List.map_cons, List.flatMap_cons]

/-- **A value stands before what is inside its parts**, and the parts come one after the other. -/
theorem inside_eq (v : Value) : v.inside = v :: v.parts.flatMap inside := by
  cases v with
  | list items | tuple items => rw [inside, insideItems_eq, parts]
  | dict entries => rw [inside, insideEntries_eq, parts]
  | _ => rfl

/-- What holds of everything inside a value holds of the value and of everything inside its parts. -/
theorem forall_inside_iff {P : Value → Prop} {v : Value} :
    (∀ x ∈ v.inside, P x) ↔ P v ∧ ∀ x ∈ v.parts, ∀ y ∈ x.inside, P y := by
  rw [inside_eq, List.forall_mem_cons, List.forall_mem_flatMap]

/-! ## Depth -/

mutual
/-- How many calls are open inside one another while the literal of a value is made: two for every
collection around another value; where a key or a value without a literal is written, those that write
it. -/
def literalFrames : Value → Nat
  | .list items | .tuple items => literalItemsFrames items + 2
  | .dict entries => literalEntriesFrames entries + 2
  | .version v => (Value.version v).frames
  | .argument name value => (Value.argument name value).frames
  | _ => 0

/-- How many are open for the literals of items. -/
def literalItemsFrames : List Value → Nat
  | [] => 0
  | x :: xs => max (literalFrames x) (literalItemsFrames xs)

/-- How many are open for the literals of entries. -/
def literalEntriesFrames : List (Value × Value) → Nat
  | [] => 0
  | (k, x) :: es => max (max k.plainFrames (literalFrames x)) (literalEntriesFrames es)
end

/-- There is room for items iff there is room for each of them. -/
theorem literalItemsFrames_le_iff {items : List Value} {room : Nat} :
    literalItemsFrames items ≤ room ↔ ∀ x ∈ items, x.literalFrames ≤ room := by
  induction items with
  | nil => simp [literalItemsFrames]
  | cons x items ih => rw [literalItemsFrames, Nat.max_le, ih, List.forall_mem_cons]

theorem literalEntriesFrames_le_iff {entries : List (Value × Value)} {room : Nat} :
    literalEntriesFrames entries ≤ room ↔
      ∀ e ∈ entries, e.1.plainFrames ≤ room ∧ e.2.literalFrames ≤ room := by
  induction entries with
  | nil => simp [literalEntriesFrames]
  | cons e entries ih => rw [literalEntriesFrames, Nat.max_le, Nat.max_le, ih, List.forall_mem_cons]

/-- **The parts of a value leave two calls to it.** -/
theorem literalFrames_of_mem_parts {v x : Value} (h : x ∈ v.parts) :
    x.literalFrames + 2 ≤ v.literalFrames := by
  cases v with
  | list items | tuple items =>
    have hle : x.literalFrames ≤ literalItemsFrames items :=
      literalItemsFrames_le_iff.mp (Nat.le_refl _) x h
    rw [literalFrames]
    omega
  | dict entries =>
    obtain ⟨e, he, rfl⟩ := List.mem_map.mp h
    have hle := (literalEntriesFrames_le_iff.mp (Nat.le_refl _) e he).2
    rw [literalFrames]
    omega
  | _ => exact absurd h (by simp [parts])

end Subgraph.Value
