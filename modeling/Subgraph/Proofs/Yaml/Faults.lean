import Subgraph.Proofs.Yaml.Composition
import Subgraph.Yaml.Value

/-!
# `Yaml.Value` — which nodes have no value

A node is made into a value of the sort that its tag says. Where that goes wrong although the node is no
malformed text, its text writes no value of the sort, like a day that is not in the calendar, or the
default values that it stands for lead on and on. `NoValue` lists these cases, and there are no others
(`scalarValue_eq_error_iff`).
-/

namespace Subgraph
namespace Yaml

variable {g : NodeGraph} {id : NodeId} {fault : Fault} {text : String}

/-! ## Texts -/

theorem integerOf_ne_malformed (base : Nat) (cs : List Char) :
    FailsOnly (· ≠ Fault.malformed) (integerOf base cs) := by
  unfold integerOf
  split
  · exact .ok _
  · exact .error (by simp)

theorem number_ne_malformed (text : String) : FailsOnly (· ≠ Fault.malformed) (number text) := by
  unfold number
  split
  refine FailsOnly.map ?_ _
  split
  · exact .error (by simp)
  · exact .ok _
  · exact integerOf_ne_malformed _ _
  · exact integerOf_ne_malformed _ _
  · exact integerOf_ne_malformed _ _
  · refine .ite ?_ (integerOf_ne_malformed _ _)
    split
    · exact .ok _
    · exact .error (by simp)

theorem weigh_ne_malformed (power : Nat) (total : Binary64) (xs : List Binary64) :
    FailsOnly (· ≠ Fault.malformed) (weigh power total xs) := by
  induction xs generalizing power total with
  | nil => exact .ok _
  | cons x xs ih =>
    unfold weigh
    split
    · exact ih _ _
    · exact .error (by simp)

theorem floating_ne_malformed (text : String) : FailsOnly (· ≠ Fault.malformed) (floating text) := by
  unfold floating
  refine FailsOnly.map ?_ _
  refine .ite (.error (by simp)) (.ite (.ok _) (.ite (.ok _) (.ite ?_ ?_)))
  · split
    · exact weigh_ne_malformed _ _ _
    · exact .error (by simp)
  · split
    · exact .ok _
    · exact .error (by simp)

/-- A word that is none for a truth value is a missing key. -/
theorem truth_ne_malformed (text : String) : FailsOnly (· ≠ Fault.malformed) (truth text) := by
  unfold truth
  dsimp only
  split
  · exact .ok _
  · exact .error (by simp)

/-- A text that is no moment, and one of a moment that there is not, are misused. -/
theorem checkMoment_ne_malformed (text : String) :
    FailsOnly (· ≠ Fault.malformed) (checkMoment text) := by
  unfold checkMoment
  split
  · exact .error (by simp)
  · split
    · exact .error (by simp)
    · exact .ok _

/-- Bytes are misspelt or written well. -/
theorem checkBase64_malformed (text : String) :
    FailsOnly (· = Fault.malformed) (checkBase64 text) :=
  .ite (.ok _) (.error rfl)

/-! ## Default values -/

/-- From a mapping its default value leads to the next node, so many times at least. -/
inductive LeadsOn (g : NodeGraph) : Nat → NodeId → Prop where
  | here (id : NodeId) : LeadsOn g 0 id
  | on {n : Nat} {id : NodeId} {entries : List (NodeId × NodeId)} {e : NodeId × NodeId}
    (hbody : bodyOf g id = some (.mapping entries))
    (hdefault : (entries.find? fun e => tagOf g e.1 == .defaultValue) = some e)
    (h : LeadsOn g n e.2) : LeadsOn g (n + 1) id

theorem leadsOn_succ_iff {n : Nat} :
    LeadsOn g (n + 1) id ↔ ∃ entries e, bodyOf g id = some (.mapping entries) ∧
      (entries.find? fun e => tagOf g e.1 == .defaultValue) = some e ∧ LeadsOn g n e.2 := by
  constructor
  · rintro (_ | ⟨hbody, hdefault, h⟩)
    exact ⟨_, _, hbody, hdefault, h⟩
  · rintro ⟨entries, e, hbody, hdefault, h⟩
    exact .on hbody hdefault h

/-- **Looking for the text of a node runs out of room iff default values lead on that far.** -/
theorem scalarText_eq_deepNesting_iff {room : Nat} :
    scalarText g room id = .error (.misuse .deepNesting) ↔ LeadsOn g room id := by
  induction room generalizing id with
  | zero => exact ⟨fun _ => .here id, fun _ => rfl⟩
  | succ room ih =>
    rw [leadsOn_succ_iff, scalarText]
    cases hbody : bodyOf g id with
    | none => simp
    | some body =>
      cases body with
      | scalar text => simp
      | sequence items => simp
      | mapping entries =>
        cases hdefault : entries.find? fun e => tagOf g e.1 == .defaultValue with
        | none => simp [hdefault]
        | some e => simp [hdefault, ih, -Prod.exists]

/-- A node that has no text is malformed, or the default values lead on too far. -/
theorem scalarText_fault (g : NodeGraph) (room : Nat) (id : NodeId) :
    FailsOnly (fun fault => fault = .malformed ∨ fault = .misuse .deepNesting)
      (scalarText g room id) := by
  induction room generalizing id with
  | zero => exact .error (Or.inr rfl)
  | succ room ih =>
    unfold scalarText
    split
    · exact .ok _
    · split
      · exact ih _
      · exact .error (Or.inl rfl)
    · exact .error (Or.inl rfl)

/-! ## Nodes -/

/-- A node has no value of the sort that its tag says: its text writes no truth value, no number, no
moment; a mapping that stands for its default value is to be a moment; or the default values lead on
further than there is room. -/
inductive NoValue (g : NodeGraph) (id : NodeId) : Fault → Prop where
  | truth {text : String} {fault : Fault} (htag : tagOf g id = .bool)
    (htext : scalarText g stackRoom id = .ok text) (h : truth text = .error fault) :
    NoValue g id fault
  | number {text : String} {fault : Fault} (htag : tagOf g id = .int)
    (htext : scalarText g stackRoom id = .ok text) (h : number text = .error fault) :
    NoValue g id fault
  | floating {text : String} {fault : Fault} (htag : tagOf g id = .float)
    (htext : scalarText g stackRoom id = .ok text) (h : floating text = .error fault) :
    NoValue g id fault
  | moment {text : String} {fault : Fault} (htag : tagOf g id = .timestamp)
    (hbody : bodyOf g id = some (.scalar text)) (h : checkMoment text = .error fault) :
    NoValue g id fault
  | momentOf {entries : List (NodeId × NodeId)} {text : String} (htag : tagOf g id = .timestamp)
    (hbody : bodyOf g id = some (.mapping entries)) (htext : scalarText g stackRoom id = .ok text) :
    NoValue g id (.misuse (.notSearchable "list"))
  | endless (htag : (tagOf g id).readsText = true) (h : LeadsOn g stackRoom id) :
    NoValue g id (.misuse .deepNesting)

/-- **A node that has no value is not malformed text.** -/
theorem NoValue.ne_malformed (h : NoValue g id fault) : fault ≠ .malformed := by
  cases h with
  | truth _ _ h => exact truth_ne_malformed _ _ h
  | number _ _ h => exact number_ne_malformed _ _ h
  | floating _ _ h => exact floating_ne_malformed _ _ h
  | moment _ _ h => exact checkMoment_ne_malformed _ _ h
  | momentOf => simp
  | endless => simp

/-- The text of a scalar is its own. -/
theorem scalarText_scalar (hbody : bodyOf g id = some (.scalar text)) :
    scalarText g stackRoom id = .ok text := by
  obtain ⟨room, hroom⟩ := Nat.exists_eq_succ_of_ne_zero (show stackRoom ≠ 0 by decide)
  rw [hroom, scalarText, hbody]

/-- A node that has a text is a scalar, or a mapping that stands for one. -/
theorem body_of_scalarText {room : Nat} (h : scalarText g room id = .ok text) :
    bodyOf g id = some (.scalar text) ∨ ∃ entries, bodyOf g id = some (.mapping entries) := by
  cases room with
  | zero => exact absurd h (by simp [scalarText])
  | succ room =>
    unfold scalarText at h
    split at h
    · next t hbody =>
      obtain rfl : t = text := Except.ok.inj h
      exact Or.inl hbody
    · next entries hbody => exact Or.inr ⟨entries, hbody⟩
    · exact absurd h (by simp)

/-- Making a moment of a node that has a text fails as the check of that text does, if the node is no
mapping. -/
theorem momentValue_eq_error_iff (htext : scalarText g stackRoom id = .ok text) :
    momentValue g id text = .error fault ↔
      (bodyOf g id = some (.scalar text) ∧ checkMoment text = .error fault) ∨
        ((∃ entries, bodyOf g id = some (.mapping entries)) ∧
          fault = .misuse (.notSearchable "list")) := by
  rcases body_of_scalarText htext with hbody | ⟨entries, hbody⟩
  · simp [momentValue, hbody, map_eq_error]
  · simp [momentValue, hbody, eq_comm]

/-- A text has no value of the sort that a tag says iff the node has none. -/
theorem valueOf_eq_error_iff (htext : scalarText g stackRoom id = .ok text) :
    (valueOf g id text (tagOf g id) = .error fault ∧ fault ≠ .malformed) ↔ NoValue g id fault := by
  constructor
  · rintro ⟨h, hfault⟩
    cases htag : tagOf g id with
    | bool =>
      rw [htag] at h
      exact .truth htag htext (map_eq_error.mp h)
    | int =>
      rw [htag] at h
      exact .number htag htext (map_eq_error.mp h)
    | float =>
      rw [htag] at h
      exact .floating htag htext (map_eq_error.mp h)
    | timestamp =>
      rw [htag] at h
      rcases (momentValue_eq_error_iff htext).mp h with ⟨hbody, h⟩ | ⟨⟨entries, hbody⟩, rfl⟩
      · exact .moment htag hbody h
      · exact .momentOf htag hbody htext
    | binary =>
      rw [htag] at h
      exact absurd (checkBase64_malformed text fault (map_eq_error.mp h)) hfault
    | _ =>
      rw [htag] at h
      exact absurd h (by simp [valueOf])
  · intro h
    refine ⟨?_, h.ne_malformed⟩
    cases h with
    | truth htag htext' h =>
      obtain rfl := Except.ok.inj (htext.symm.trans htext')
      rw [htag]
      exact map_eq_error.mpr h
    | number htag htext' h =>
      obtain rfl := Except.ok.inj (htext.symm.trans htext')
      rw [htag]
      exact map_eq_error.mpr h
    | floating htag htext' h =>
      obtain rfl := Except.ok.inj (htext.symm.trans htext')
      rw [htag]
      exact map_eq_error.mpr h
    | moment htag hbody h =>
      obtain rfl := Except.ok.inj (htext.symm.trans (scalarText_scalar hbody))
      rw [htag]
      exact (momentValue_eq_error_iff htext).mpr (Or.inl ⟨hbody, h⟩)
    | momentOf htag hbody =>
      rw [htag]
      exact (momentValue_eq_error_iff htext).mpr (Or.inr ⟨⟨_, hbody⟩, rfl⟩)
    | endless htag h =>
      exact absurd (htext.symm.trans (scalarText_eq_deepNesting_iff.mpr h)) (by simp)

/-- A node that has no value reads its text. -/
theorem NoValue.readsText (h : NoValue g id fault) : (tagOf g id).readsText = true := by
  cases h with
  | truth htag => rw [htag]; rfl
  | number htag => rw [htag]; rfl
  | floating htag => rw [htag]; rfl
  | moment htag => rw [htag]; rfl
  | momentOf htag => rw [htag]; rfl
  | endless htag => exact htag

theorem isCollection_of_readsText {t : Tag} (h : t.readsText = true) : t.isCollection = false := by
  cases t <;> first | rfl | exact absurd h (by decide)

/-- **Making a value of a node goes wrong, other than by malformed text, iff it has none.** -/
theorem scalarValue_eq_error_iff :
    (scalarValue g id (tagOf g id) = .error fault ∧ fault ≠ .malformed) ↔ NoValue g id fault := by
  unfold scalarValue
  by_cases hreads : (tagOf g id).readsText = true
  · rw [if_neg (by simp [isCollection_of_readsText hreads]), if_pos hreads]
    cases htext : scalarText g stackRoom id with
    | ok text => exact valueOf_eq_error_iff htext
    | error f =>
      -- without a text the node has no value iff the default values lead on
      constructor
      · rintro ⟨h, hfault⟩
        obtain rfl : f = fault := Except.error.inj h
        rcases scalarText_fault g stackRoom id f htext with rfl | rfl
        · exact absurd rfl hfault
        · exact .endless hreads (scalarText_eq_deepNesting_iff.mp htext)
      · intro h
        refine ⟨?_, h.ne_malformed⟩
        cases h with
        | truth _ htext' | number _ htext' | floating _ htext' | momentOf _ _ htext' =>
          exact absurd (htext.symm.trans htext') (by simp)
        | moment _ hbody => exact absurd (htext.symm.trans (scalarText_scalar hbody)) (by simp)
        | endless _ h =>
          obtain rfl := Except.error.inj (htext.symm.trans (scalarText_eq_deepNesting_iff.mpr h))
          rfl
  · rw [if_neg hreads]
    refine ⟨fun ⟨h, hfault⟩ => ?_, fun h => absurd h.readsText hreads⟩
    split at h
    · exact absurd h (by simp)
    · exact absurd (Except.error.inj h).symm hfault

end Yaml
end Subgraph
