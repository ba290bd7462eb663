import Mathlib.Data.List.Forall2

/-!
# `Failure.Chain` — chains of steps that may fail

A chain succeeds iff every step does, and fails with the failure of the first step that does. The
lemmas here take one step off a chain, so that no proof about a chain opens its definition. Steps that are
taken for the items of a list fail with the first item that fails (`IsFirst`, `mapM_eq_error_iff`).
`SameFailure` compares two chains by whether and how they fail, whatever they give.
-/

namespace Subgraph

/-! ## First items -/

/-- `x` stands in `xs`, has the property, and no item before it has. -/
def IsFirst {α : Type} (p : α → Prop) (xs : List α) (x : α) : Prop :=
  p x ∧ ∃ before after, xs = before ++ x :: after ∧ ∀ y ∈ before, ¬ p y

/-- The search for an item with the property finds the first. -/
theorem find?_eq_some_iff_isFirst {α : Type} {p : α → Prop} {test : α → Bool}
    (htest : ∀ x, test x = true ↔ p x) {xs : List α} {x : α} :
    xs.find? test = some x ↔ IsFirst p xs x := by
  rw [List.find?_eq_some_iff_append, htest]
  have hnot : ∀ y, (!test y) = true ↔ ¬ p y := fun y => by rw [← htest y]; simp
  simp only [hnot, IsFirst]

/-- There is a first item with a property iff some item has it. -/
theorem exists_isFirst_iff {α : Type} {p : α → Prop} {xs : List α} :
    (∃ x, IsFirst p xs x) ↔ ∃ x ∈ xs, p x := by
  constructor
  · rintro ⟨x, hp, before, after, rfl, -⟩
    exact ⟨x, by simp, hp⟩
  · intro h
    -- the property need not be one that can be tested
    classical
    obtain ⟨x, hx, hp⟩ := h
    have hfound : (xs.find? fun y => decide (p y)).isSome = true := by
      rw [List.find?_isSome]
      exact ⟨x, hx, by simpa using hp⟩
    obtain ⟨y, hy⟩ := Option.isSome_iff_exists.mp hfound
    exact ⟨y, (find?_eq_some_iff_isFirst fun y => by simp).mp hy⟩

/-- There is one first item with a property. -/
theorem IsFirst.unique {α : Type} {p : α → Prop} {xs : List α} {x y : α} (hx : IsFirst p xs x)
    (hy : IsFirst p xs y) : x = y := by
  classical
  have hfind : ∀ {z : α}, IsFirst p xs z → xs.find? (fun z => decide (p z)) = some z :=
    fun hz => (find?_eq_some_iff_isFirst fun z => by simp).mpr hz
  exact Option.some.inj ((hfind hx).symm.trans (hfind hy))

/-- The first item is in the list. -/
theorem IsFirst.mem {α : Type} {p : α → Prop} {xs : List α} {x : α} (h : IsFirst p xs x) : x ∈ xs := by
  obtain ⟨-, before, after, rfl, -⟩ := h
  simp

/-- The first item of a longer list is its head, if that has the property, or else the first of the
rest. -/
theorem isFirst_cons_iff {α : Type} {p : α → Prop} {xs : List α} {x y : α} :
    IsFirst p (x :: xs) y ↔ (p x ∧ y = x) ∨ (¬ p x ∧ IsFirst p xs y) := by
  constructor
  · rintro ⟨hy, before, after, hsplit, hbefore⟩
    cases before with
    | nil =>
      obtain ⟨rfl, -⟩ := List.cons.inj hsplit
      exact Or.inl ⟨hy, rfl⟩
    | cons z before =>
      obtain ⟨rfl, rfl⟩ := List.cons.inj hsplit
      rw [List.forall_mem_cons] at hbefore
      exact Or.inr ⟨hbefore.1, hy, before, after, rfl, hbefore.2⟩
  · rintro (⟨hx, rfl⟩ | ⟨hx, hy, before, after, rfl, hbefore⟩)
    · exact ⟨hx, [], xs, rfl, by simp⟩
    · exact ⟨hy, x :: before, after, rfl, List.forall_mem_cons.mpr ⟨hx, hbefore⟩⟩

/-- The first item of two lists one after the other is that of the former if it has one. -/
theorem isFirst_append_iff {α : Type} {p : α → Prop} {xs ys : List α} {y : α} :
    IsFirst p (xs ++ ys) y ↔ IsFirst p xs y ∨ (∀ x ∈ xs, ¬ p x) ∧ IsFirst p ys y := by
  induction xs with
  | nil => simp [IsFirst]
  | cons x xs ih =>
    rw [List.cons_append, isFirst_cons_iff, isFirst_cons_iff, ih, List.forall_mem_cons]
    tauto

/-- The first item of lists that stand for the items of a list is that of the first list which has
one. -/
theorem isFirst_flatMap_iff {α β : Type} {p : β → Prop} {g : α → List β} {xs : List α} {y : β} :
    IsFirst p (xs.flatMap g) y ↔
      ∃ x, IsFirst (fun x => ∃ y ∈ g x, p y) xs x ∧ IsFirst p (g x) y := by
  induction xs with
  | nil => simp [IsFirst]
  | cons x xs ih =>
    rw [List.flatMap_cons, isFirst_append_iff, ih]
    constructor
    · rintro (hx | ⟨hnone, z, hz, hy⟩)
      · exact ⟨x, isFirst_cons_iff.mpr (Or.inl ⟨exists_isFirst_iff.mp ⟨y, hx⟩, rfl⟩), hx⟩
      · refine ⟨z, isFirst_cons_iff.mpr (Or.inr ⟨?_, hz⟩), hy⟩
        rintro ⟨y', hy', hp⟩
        exact hnone y' hy' hp
    · rintro ⟨z, hz, hy⟩
      rcases isFirst_cons_iff.mp hz with ⟨-, rfl⟩ | ⟨hnone, hz⟩
      · exact Or.inl hy
      · exact Or.inr ⟨fun y' hy' hp => hnone ⟨y', hy', hp⟩, z, hz, hy⟩

/-- A list of which each item is kept where it first stands has no repetitions. -/
theorem nodup_eraseDups {α : Type} [BEq α] [LawfulBEq α] : (xs : List α) → xs.eraseDups.Nodup
  | [] => by simp
  | x :: xs => by
    rw [List.eraseDups_cons, List.nodup_cons]
    refine ⟨fun hmem => ?_, nodup_eraseDups _⟩
    rw [List.mem_eraseDups, List.mem_filter] at hmem
    simp at hmem
termination_by xs => xs.length
decreasing_by exact Nat.lt_succ_of_le (List.length_filter_le _ _)

/-- Entries that are left out under a key are not found, and all others are. -/
theorem lookup_filter_ne {κ α : Type} [BEq κ] [LawfulBEq κ] [DecidableEq κ] (entries : List (κ × α))
    (name n : κ) :
    (entries.filter fun p => p.1 != name).lookup n = if n = name then none else entries.lookup n := by
  induction entries with
  | nil => simp
  | cons p entries ih =>
    obtain ⟨key, a⟩ := p
    by_cases hkey : key = name
    · subst hkey
      rw [List.filter_cons_of_neg (by simp), ih]
      by_cases hn : n = key
      · rw [if_pos hn, if_pos hn]
      · rw [if_neg hn, if_neg hn, List.lookup_cons, beq_false_of_ne hn]
    · rw [List.filter_cons_of_pos (by simpa using hkey), List.lookup_cons, List.lookup_cons, ih]
      by_cases hn : n = name
      · subst hn
        rw [if_pos rfl, if_pos rfl, beq_false_of_ne (Ne.symm hkey)]
      · rw [if_neg hn, if_neg hn]

/-! ## Chains -/

variable {ε α β : Type}

/-- A step that succeeds hands its result on. -/
@[simp] theorem ok_bind {a : α} {f : α → Except ε β} : Except.ok a >>= f = f a := rfl

/-- A step that only hands its result on can be left out. -/
@[simp] theorem bind_ok_self {x : Except ε α} : (x >>= fun a => .ok a) = x := by
  cases x <;> rfl

/-- A chain succeeds iff its first step does and the rest does with what it gave. -/
theorem bind_eq_ok {x : Except ε α} {f : α → Except ε β} {b : β} :
    x >>= f = .ok b ↔ ∃ a, x = .ok a ∧ f a = .ok b := by
  cases x <;> simp [bind, Except.bind]

/-- A chain fails iff its first step does, or the rest does after it. -/
theorem bind_eq_error {x : Except ε α} {f : α → Except ε β} {e : ε} :
    x >>= f = .error e ↔ x = .error e ∨ ∃ a, x = .ok a ∧ f a = .error e := by
  cases x <;> simp [bind, Except.bind]

/-- A result that is changed is there iff the result is. -/
theorem map_eq_ok {x : Except ε α} {f : α → β} {b : β} :
    x.map f = .ok b ↔ ∃ a, x = .ok a ∧ f a = b := by
  cases x <;> simp [Except.map]

/-- Changing a result keeps a failure. -/
theorem map_eq_error {x : Except ε α} {f : α → β} {e : ε} :
    x.map f = .error e ↔ x = .error e := by
  cases x <;> simp [Except.map]

/-- A result that is there, known from its being some. -/
theorem eq_ok_of_toOption {x : Except ε α} {a : α} (h : x.toOption = some a) : x = .ok a := by
  cases x with
  | error e => exact absurd h (by simp [Except.toOption])
  | ok b => rw [Option.some.inj h]

/-- Steps that agree on the items of a list agree on the list. -/
theorem mapM_congr {f g : α → Except ε β} {xs : List α} (h : ∀ x ∈ xs, f x = g x) :
    xs.mapM f = xs.mapM g := by
  induction xs with
  | nil => rfl
  | cons x xs ih =>
    rw [List.forall_mem_cons] at h
    rw [List.mapM_cons, List.mapM_cons, h.1, ih h.2]

/-- **Steps taken one after the other fail with the failure of the first that does**, which is reached
after those before it. -/
theorem foldlM_eq_error {f : β → α → Except ε β} {b : β} {e : ε} {xs : List α} :
    xs.foldlM f b = .error e ↔
      ∃ before x after b', xs = before ++ x :: after ∧ before.foldlM f b = .ok b' ∧
        f b' x = .error e := by
  induction xs generalizing b with
  | nil => simp [pure, Except.pure]
  | cons x xs ih =>
    rw [List.foldlM_cons, bind_eq_error]
    constructor
    · rintro (hx | ⟨b₁, hb₁, hxs⟩)
      · exact ⟨[], x, xs, b, rfl, rfl, hx⟩
      · obtain ⟨before, y, after, b', rfl, hbefore, hy⟩ := ih.mp hxs
        refine ⟨x :: before, y, after, b', rfl, ?_, hy⟩
        rw [List.foldlM_cons, hb₁]
        exact hbefore
    · rintro ⟨before, y, after, b', hsplit, hbefore, hy⟩
      cases before with
      | nil =>
        obtain ⟨rfl, -⟩ := List.cons.inj hsplit
        injection hbefore with hb
        exact Or.inl (hb ▸ hy)
      | cons z before =>
        obtain ⟨rfl, hrest⟩ := List.cons.inj hsplit
        rw [List.foldlM_cons] at hbefore
        obtain ⟨b₁, hb₁, hbefore⟩ := bind_eq_ok.mp hbefore
        exact Or.inr ⟨b₁, hb₁, ih.mpr ⟨before, y, after, b', hrest, hbefore, hy⟩⟩

/-- **Steps for the items of a list succeed iff each does**, and give their results in order. -/
theorem mapM_eq_ok_iff {f : α → Except ε β} {xs : List α} {ys : List β} :
    xs.mapM f = .ok ys ↔ List.Forall₂ (fun x y => f x = .ok y) xs ys := by
  constructor
  · intro h
    induction xs generalizing ys with
    | nil =>
      obtain rfl : [] = ys := Except.ok.inj h
      exact .nil
    | cons x xs ih =>
      rw [List.mapM_cons] at h
      obtain ⟨y, hy, h⟩ := bind_eq_ok.mp h
      obtain ⟨zs, hzs, h⟩ := bind_eq_ok.mp h
      obtain rfl : y :: zs = ys := Except.ok.inj h
      exact .cons hy (ih hzs)
  · intro h
    induction h with
    | nil => rfl
    | cons hx _ ih =>
      rw [List.mapM_cons, hx, ih]
      rfl

/-- **Steps for the items of a list fail iff one does**, with the failure of the first that does. -/
theorem mapM_eq_error_iff {f : α → Except ε β} {e : ε} {xs : List α} :
    xs.mapM f = .error e ↔
      ∃ x, IsFirst (fun x => ∃ e, f x = .error e) xs x ∧ f x = .error e := by
  induction xs with
  | nil => simp [IsFirst, pure, Except.pure]
  | cons x xs ih =>
    rw [List.mapM_cons]
    constructor
    · intro h
      rcases bind_eq_error.mp h with hx | ⟨y, hy, h⟩
      · exact ⟨x, isFirst_cons_iff.mpr (Or.inl ⟨⟨e, hx⟩, rfl⟩), hx⟩
      · have hpass : ¬ ∃ e, f x = .error e := by simp [hy]
        rcases bind_eq_error.mp h with hxs | ⟨ys, -, h⟩
        · obtain ⟨z, hz, he⟩ := ih.mp hxs
          exact ⟨z, isFirst_cons_iff.mpr (Or.inr ⟨hpass, hz⟩), he⟩
        · exact absurd h (by simp [pure, Except.pure])
    · rintro ⟨z, hz, he⟩
      apply bind_eq_error.mpr
      rcases isFirst_cons_iff.mp hz with ⟨-, rfl⟩ | ⟨hpass, hz⟩
      · exact Or.inl he
      · cases hx : f x with
        | error e' => exact absurd ⟨e', hx⟩ hpass
        | ok y => exact Or.inr ⟨y, rfl, bind_eq_error.mpr (Or.inl (ih.mpr ⟨z, hz, he⟩))⟩

/-- Steps for the items of a list fail with the failure of one of them. -/
theorem mapM_eq_error {f : α → Except ε β} {e : ε} {xs : List α} (h : xs.mapM f = .error e) :
    ∃ x ∈ xs, f x = .error e := by
  obtain ⟨x, hfirst, hx⟩ := mapM_eq_error_iff.mp h
  exact ⟨x, hfirst.mem, hx⟩

/-- Steps for the items of a list succeed only if each does. -/
theorem exists_ok_of_mapM {f : α → Except ε β} {xs : List α} {ys : List β}
    (h : xs.mapM f = .ok ys) {x : α} (hx : x ∈ xs) : ∃ y, f x = .ok y := by
  cases hfx : f x with
  | ok y => exact ⟨y, rfl⟩
  | error e =>
    have hsome : ∃ x ∈ xs, ∃ e, f x = .error e := ⟨x, hx, e, hfx⟩
    obtain ⟨z, hz⟩ := exists_isFirst_iff.mpr hsome
    obtain ⟨e', hz'⟩ := hz.1
    exact absurd (h.symm.trans (mapM_eq_error_iff.mpr ⟨z, hz, hz'⟩)) (by simp)

/-- Changing a result keeps whether it is there. -/
theorem exists_map_eq_ok {x : Except ε α} {f : α → β} :
    (∃ b, x.map f = .ok b) ↔ ∃ a, x = .ok a := by
  cases x <;> simp [Except.map]

/-- Steps for the items of a list succeed iff each does. -/
theorem exists_mapM_eq_ok {f : α → Except ε β} {xs : List α} :
    (∃ ys, xs.mapM f = .ok ys) ↔ ∀ x ∈ xs, ∃ y, f x = .ok y := by
  constructor
  · rintro ⟨ys, hys⟩ x hx
    exact exists_ok_of_mapM hys hx
  · intro h
    cases hxs : xs.mapM f with
    | ok ys => exact ⟨ys, rfl⟩
    | error e =>
      obtain ⟨x, hx, he⟩ := mapM_eq_error hxs
      obtain ⟨y, hy⟩ := h x hx
      exact absurd (hy.symm.trans he) (by simp)

/-- Results of steps for the items of a list, if each is what another function gives. -/
theorem map_eq_of_mapM {f : α → Except ε β} {k : α → β} {xs : List α} {ys : List β}
    (hf : ∀ x ∈ xs, ∀ y, f x = .ok y → k x = y) (h : xs.mapM f = .ok ys) : xs.map k = ys := by
  induction xs generalizing ys with
  | nil => exact Except.ok.inj h
  | cons x xs ih =>
    rw [List.forall_mem_cons] at hf
    rw [List.mapM_cons] at h
    obtain ⟨y, hy, h⟩ := bind_eq_ok.mp h
    obtain ⟨ys', hys, h⟩ := bind_eq_ok.mp h
    injection h with h
    rw [List.map_cons, hf.1 y hy, ih hf.2 hys, h]

/-- Every result of steps for the items of a list is that of an item. -/
theorem exists_of_mem_mapM {f : α → Except ε β} {xs : List α} {ys : List β}
    (h : xs.mapM f = .ok ys) {y : β} (hy : y ∈ ys) : ∃ x ∈ xs, f x = .ok y := by
  induction xs generalizing ys with
  | nil =>
    obtain rfl : [] = ys := Except.ok.inj h
    exact absurd hy (by simp)
  | cons x xs ih =>
    rw [List.mapM_cons] at h
    obtain ⟨z, hz, h⟩ := bind_eq_ok.mp h
    obtain ⟨zs, hzs, h⟩ := bind_eq_ok.mp h
    obtain rfl : z :: zs = ys := Except.ok.inj h
    rcases List.mem_cons.mp hy with rfl | hy
    · exact ⟨x, List.mem_cons_self, hz⟩
    · obtain ⟨w, hw, hf⟩ := ih hzs hy
      exact ⟨w, List.mem_cons_of_mem x hw, hf⟩

/-- Lists with the same results are equal if items with the same result are. -/
theorem mapM_injective {f : α → Except ε β} {xs xs' : List α} {ys : List β}
    (hf : ∀ x ∈ xs, ∀ x' ∈ xs', ∀ y, f x = .ok y → f x' = .ok y → x = x')
    (h : xs.mapM f = .ok ys) (h' : xs'.mapM f = .ok ys) : xs = xs' := by
  induction xs generalizing xs' ys with
  | nil =>
    obtain rfl : [] = ys := Except.ok.inj h
    cases xs' with
    | nil => rfl
    | cons x' xs' =>
      rw [List.mapM_cons] at h'
      obtain ⟨y, -, h'⟩ := bind_eq_ok.mp h'
      obtain ⟨ys, -, h'⟩ := bind_eq_ok.mp h'
      injection h' with hnil
      exact absurd hnil (by simp)
  | cons x xs ih =>
    rw [List.mapM_cons] at h
    obtain ⟨y, hy, h⟩ := bind_eq_ok.mp h
    obtain ⟨zs, hzs, h⟩ := bind_eq_ok.mp h
    obtain rfl : y :: zs = ys := Except.ok.inj h
    cases xs' with
    | nil =>
      injection h' with hcons
      exact absurd hcons (by simp)
    | cons x' xs' =>
      rw [List.mapM_cons] at h'
      obtain ⟨y', hy', h'⟩ := bind_eq_ok.mp h'
      obtain ⟨zs', hzs', h'⟩ := bind_eq_ok.mp h'
      obtain ⟨rfl, rfl⟩ := List.cons.inj (Except.ok.inj h')
      have hhead : x = x' := hf x List.mem_cons_self x' List.mem_cons_self y' hy hy'
      have htail : xs = xs' := ih (fun z hz z' hz' =>
        hf z (List.mem_cons_of_mem x hz) z' (List.mem_cons_of_mem x' hz')) hzs hzs'
      rw [hhead, htail]

/-- Results that are changed one by one can be changed after all steps. -/
theorem mapM_map {γ : Type} (f : α → Except ε β) (g : β → γ) (xs : List α) :
    xs.mapM (fun x => (f x).map g) = (xs.mapM f).map (List.map g) := by
  induction xs with
  | nil => rfl
  | cons x xs ih =>
    rw [List.mapM_cons, List.mapM_cons, ih]
    cases f x with
    | error e => rfl
    | ok y =>
      cases xs.mapM f with
      | error e => rfl
      | ok ys => rfl

/-! ## Chains that fail alike -/

/-- Two results either are both there or are the same failure. -/
def SameFailure (x : Except ε α) (y : Except ε β) : Prop := ∀ e, x = .error e ↔ y = .error e

namespace SameFailure

variable {γ δ : Type}

theorem refl (x : Except ε α) : SameFailure x x := fun _ => Iff.rfl

/-- Of two results that fail alike, one is there iff the other is. -/
theorem exists_ok {x : Except ε α} {y : Except ε β} (h : SameFailure x y) {a : α}
    (hx : x = .ok a) : ∃ b, y = .ok b := by
  cases y with
  | error e => exact absurd ((h e).mpr rfl) (by simp [hx])
  | ok b => exact ⟨b, rfl⟩

/-- Changing a result keeps how it fails. -/
theorem map (x : Except ε α) (f : α → β) (g : α → γ) : SameFailure (x.map f) (x.map g) :=
  fun _ => map_eq_error.trans map_eq_error.symm

/-- Chains fail alike if their steps do. -/
theorem bind {x : Except ε α} {y : Except ε β} {f : α → Except ε γ} {g : β → Except ε δ}
    (h : SameFailure x y) (hfg : ∀ a b, SameFailure (f a) (g b)) :
    SameFailure (x >>= f) (y >>= g) := by
  intro e
  cases hx : x with
  | error e' =>
    rw [(h e').mp hx]
    simp [Bind.bind, Except.bind]
  | ok a =>
    obtain ⟨b, hy⟩ := h.exists_ok hx
    rw [hy]
    exact hfg a b e

/-- Steps for the items of a list fail alike if they do for each item. -/
theorem mapM {f : α → Except ε β} {g : α → Except ε γ} {xs : List α}
    (h : ∀ x ∈ xs, SameFailure (f x) (g x)) : SameFailure (xs.mapM f) (xs.mapM g) := by
  induction xs with
  | nil => exact fun e => by simp [pure, Except.pure]
  | cons x xs ih =>
    rw [List.forall_mem_cons] at h
    rw [List.mapM_cons, List.mapM_cons]
    refine h.1.bind fun b c => (ih h.2).bind fun bs cs e => ?_
    simp [pure, Except.pure]

end SameFailure

/-! ## Chains that fail in one way -/

/-- A result that, if it is not there, has failed in a way of its own. -/
def FailsOnly (P : ε → Prop) (x : Except ε α) : Prop := ∀ e, x = .error e → P e

namespace FailsOnly

variable {P : ε → Prop}

theorem ok (a : α) : FailsOnly P (.ok a : Except ε α) := fun _ h => absurd h (by simp)

theorem error {e : ε} (h : P e) : FailsOnly P (.error e : Except ε α) := by
  intro e' he
  injection he with he
  exact he ▸ h

theorem map {x : Except ε α} (h : FailsOnly P x) (f : α → β) : FailsOnly P (x.map f) :=
  fun e he => h e (map_eq_error.mp he)

theorem mono {Q : ε → Prop} {x : Except ε α} (h : FailsOnly P x) (hPQ : ∀ e, P e → Q e) :
    FailsOnly Q x :=
  fun e he => hPQ e (h e he)

/-- A choice fails in the way that both its branches do. -/
theorem ite {c : Prop} [Decidable c] {x y : Except ε α} (hx : FailsOnly P x) (hy : FailsOnly P y) :
    FailsOnly P (if c then x else y) := by
  split
  · exact hx
  · exact hy

/-- A chain fails in the way that all its steps do. -/
theorem bind {x : Except ε α} {f : α → Except ε β} (h : FailsOnly P x)
    (hf : ∀ a, FailsOnly P (f a)) : FailsOnly P (x >>= f) := by
  intro e he
  rcases bind_eq_error.mp he with hx | ⟨a, -, ha⟩
  · exact h e hx
  · exact hf a e ha

/-- Steps for the items of a list fail in the way that each does. -/
theorem mapM {f : α → Except ε β} {xs : List α} (h : ∀ x ∈ xs, FailsOnly P (f x)) :
    FailsOnly P (xs.mapM f) := by
  intro e he
  obtain ⟨x, hx, hf⟩ := mapM_eq_error he
  exact h x hx e hf

end FailsOnly

/-- A result that, if it is there, has a property, and else has failed in a way of its own. -/
def Ends (P : ε → Prop) (Q : α → Prop) (x : Except ε α) : Prop :=
  FailsOnly P x ∧ ∀ a, x = .ok a → Q a

namespace Ends

variable {P : ε → Prop} {Q : α → Prop}

theorem ok {a : α} (h : Q a) : Ends P Q (.ok a) :=
  ⟨.ok a, fun _ ha => Except.ok.inj ha ▸ h⟩

theorem error {e : ε} (h : P e) : Ends P Q (.error e) :=
  ⟨.error h, fun _ ha => absurd ha (by simp)⟩

/-- What is only known to fail in a way of its own may give anything. -/
theorem of_failsOnly {x : Except ε α} (h : FailsOnly P x) : Ends P (fun _ => True) x :=
  ⟨h, fun _ _ => trivial⟩

theorem mono {P' : ε → Prop} {Q' : α → Prop} {x : Except ε α} (h : Ends P Q x)
    (hP : ∀ e, P e → P' e) (hQ : ∀ a, Q a → Q' a) : Ends P' Q' x :=
  ⟨h.1.mono hP, fun a ha => hQ a (h.2 a ha)⟩

/-- A chain ends as its last step does after what the steps before it give. -/
theorem bind {R : β → Prop} {x : Except ε α} {f : α → Except ε β} (h : Ends P Q x)
    (hf : ∀ a, Q a → Ends P R (f a)) : Ends P R (x >>= f) := by
  cases x with
  | error e => exact .error (h.1 e rfl)
  | ok a => exact hf a (h.2 a rfl)

end Ends

end Subgraph
