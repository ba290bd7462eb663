/-!
# Federation versions

A version is a sequence of numeric components and the text it was written as. Versions are compared
by their components alone, as sequences: the first difference decides, and a proper initial part is
less. Reading drops the zero components at the end, so `2` and `2.0` have the same components.

Contents

* `Version` — components and text;
* `compareComponents`, `Version.order`, `Version.le` — the order;
* `Version.same`, `Version.hashCode` — equality, and the hash that goes with it;
* `Version.sorted`, `greatest?`, `distinct` — several versions;
* `Version.text` — the version as it is shown;
* `dropTrailingZeros` — the normal form of components;
* `Version.first`, `Version.second` — `1.0`, the version of a schema that states none, and `2.0`.
-/

namespace Subgraph

/-- A federation version: its components, and the text it was written as, if any. -/
structure Version where
  components : List Nat
  literal : String := ""
  deriving DecidableEq, Repr, Inhabited

/-- The order of component sequences: by the first difference, an initial part first. -/
def compareComponents : List Nat → List Nat → Ordering
  | [], [] => .eq
  | [], _ :: _ => .lt
  | _ :: _, [] => .gt
  | a :: as, b :: bs => if a < b then .lt else if b < a then .gt else compareComponents as bs

namespace Version

/-- The order of versions, which disregards how they are written. -/
def order (v w : Version) : Ordering := compareComponents v.components w.components

/-- Whether `v` is at most `w`. -/
def le (v w : Version) : Bool := v.order w != .gt

/-- Whether two versions have the same components, however they are written. -/
def same (v w : Version) : Bool := v.components == w.components

/-- The hash of a version, which like the order disregards how it is written. -/
def hashCode (v : Version) : UInt64 := hash v.components

/-- Versions in ascending order; equal ones stay as they stand. -/
def sorted (vs : List Version) : List Version := vs.mergeSort le

/-- The first of the greatest versions. -/
def greatest? : List Version → Option Version
  | [] => none
  | v :: vs => some (vs.foldl (fun best w => if w.le best then best else w) v)

/-- Versions without those that equal an earlier one. -/
def distinct (vs : List Version) : List Version :=
  vs.foldl (fun kept v => if kept.any v.same then kept else kept ++ [v]) []

/-- The version as it is shown: as written, else its components, else `0`. -/
def text (v : Version) : String :=
  if v.literal ≠ "" then v.literal
  else if v.components.isEmpty then "0"
  else ".".intercalate (v.components.map toString)

/-- Version `1.0`. -/
def first : Version := ⟨[1], "1.0"⟩

/-- Version `2.0`, from which on a schema imports its directives. -/
def second : Version := ⟨[2], "2.0"⟩

/-- Whether directives are imported at this version. -/
def isFederation2 (v : Version) : Bool := second.le v

end Version

/-- Components without the zeros at their end. -/
def dropTrailingZeros (components : List Nat) : List Nat :=
  (components.reverse.dropWhile (· == 0)).reverse

/-! ## Small facts -/

theorem compareComponents_self (as : List Nat) : compareComponents as as = .eq := by
  induction as with
  | nil => rfl
  | cons a as ih => simp [compareComponents, ih]

/-- Only equal sequences compare as equal. -/
theorem compareComponents_eq_iff {as bs : List Nat} :
    compareComponents as bs = .eq ↔ as = bs := by
  constructor
  · intro h
    induction as generalizing bs with
    | nil => cases bs <;> simp_all [compareComponents]
    | cons a as ih =>
      cases bs with
      | nil => simp [compareComponents] at h
      | cons b bs =>
        rw [compareComponents] at h
        split at h
        · simp at h
        · split at h
          · simp at h
          · rw [ih h, show a = b by omega]
  · rintro rfl; exact compareComponents_self as

end Subgraph
