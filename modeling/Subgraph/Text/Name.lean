/-!
# Names

The names of types, fields, arguments, enum values and directives: a letter or an underscore, then
letters, digits and underscores, all of ASCII.

Contents

* `isNameStart`, `isNameContinue` — the two character classes;
* `IsName` — the grammar; `isName` decides it.
-/

namespace Subgraph.Text

/-- A character that a name may start with. -/
def isNameStart (c : Char) : Bool := c.isAlpha || c == '_'

/-- A character that a name may go on with. -/
def isNameContinue (c : Char) : Bool := c.isAlphanum || c == '_'

/-- The grammar of names. -/
def IsName (s : String) : Prop :=
  ∃ c r, s.toList = c :: r ∧ isNameStart c = true ∧ ∀ d ∈ r, isNameContinue d = true

/-- Whether a text is a name. -/
def isName (s : String) : Bool :=
  match s.toList with
  | [] => false
  | c :: r => isNameStart c && r.all isNameContinue

/-- The check and the grammar agree. -/
theorem isName_eq_true {s : String} : isName s = true ↔ IsName s := by
  unfold isName IsName
  cases s.toList with
  | nil => simp
  | cons c r =>
    rw [Bool.and_eq_true, List.all_eq_true]
    constructor
    · rintro ⟨hc, hr⟩
      exact ⟨c, r, rfl, hc, hr⟩
    · rintro ⟨c', r', h, hc, hr⟩
      obtain ⟨rfl, rfl⟩ := List.cons.inj h
      exact ⟨hc, hr⟩

instance (s : String) : Decidable (IsName s) := decidable_of_iff _ isName_eq_true

end Subgraph.Text
