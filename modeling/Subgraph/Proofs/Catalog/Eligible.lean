import Subgraph.Proofs.Catalog.Lookup
import Subgraph.Proofs.Version.Order

/-!
# `Catalog.Eligible` — how the imports of a version change with the version and the catalog

The definitions of a version are picked out of the catalog and sorted, and the sort is stable. Both
changes add definitions to what is sorted, and neither moves one that was there: picking some out of
the sorted list is sorting what is picked out (`filter_mergeSort`).

* A later version adds definitions of later first versions only, so the earlier list is an initial part
  of the later one (`eligible_prefix`).
* An extended catalog adds definitions anywhere, so the old list is a sublist of the new one
  (`eligible_sublist_of_extended`), which has besides it what the new definitions bring
  (`eligible_perm_of_extended`).
-/

namespace Subgraph

/-! ## Sorted lists -/

section Sorting

variable {α : Type} {le : α → α → Bool}

/-- An item is inserted into a sorted list at one place only, if it goes before its equals. -/
theorem insertion_unique {a : α} {l₁ l₂ r₁ r₂ : List α} (h : l₁ ++ l₂ = r₁ ++ r₂)
    (hl₁ : ∀ b ∈ l₁, le a b = false) (hl₂ : ∀ b ∈ l₂, le a b = true)
    (hr₁ : ∀ b ∈ r₁, le a b = false) (hr₂ : ∀ b ∈ r₂, le a b = true) : l₁ = r₁ ∧ l₂ = r₂ := by
  -- both first parts are what stands before the first item that `a` is at most
  have hcut : ∀ l r : List α, (∀ b ∈ l, le a b = false) → (∀ b ∈ r, le a b = true) →
      (l ++ r).takeWhile (fun b => !le a b) = l := by
    intro l r hl hr
    rw [List.takeWhile_append_of_pos fun b hb => by simp [hl b hb]]
    cases r with
    | nil => simp
    | cons b r =>
      have hb : le a b = true := hr b List.mem_cons_self
      simp [hb]
  have hfirst : l₁ = r₁ := by
    rw [← hcut l₁ l₂ hl₁ hl₂, ← hcut r₁ r₂ hr₁ hr₂, h]
  subst hfirst
  exact ⟨rfl, List.append_cancel_left h⟩

/-- **Picking items out of a sorted list is sorting those that are picked out.** -/
theorem filter_mergeSort (trans : ∀ a b c, le a b = true → le b c = true → le a c = true)
    (total : ∀ a b, (le a b || le b a) = true) (p : α → Bool) (l : List α) :
    (l.mergeSort le).filter p = (l.filter p).mergeSort le := by
  induction l with
  | nil => simp
  | cons a l ih =>
    obtain ⟨l₁, l₂, hsorted, hrest, hbefore⟩ := List.mergeSort_cons trans total a l
    rw [hrest, List.filter_append] at ih
    by_cases ha : p a = true
    · -- the item stands behind what it is not at most, in both lists
      obtain ⟨r₁, r₂, hsorted', hrest', hbefore'⟩ := List.mergeSort_cons trans total a (l.filter p)
      have hpairs := List.pairwise_mergeSort trans total (a :: l)
      have hpairs' := List.pairwise_mergeSort trans total (a :: l.filter p)
      rw [hsorted, List.pairwise_append, List.pairwise_cons] at hpairs
      rw [hsorted', List.pairwise_append, List.pairwise_cons] at hpairs'
      obtain ⟨hl, hr⟩ := insertion_unique (ih.trans hrest')
        (fun b hb => by simpa using hbefore b (List.mem_filter.mp hb).1)
        (fun b hb => hpairs.2.1.1 b (List.mem_filter.mp hb).1)
        (fun b hb => by simpa using hbefore' b hb) hpairs'.2.1.1
      rw [hsorted, List.filter_append, List.filter_cons_of_pos ha, List.filter_cons_of_pos ha,
        hsorted', hl, hr]
    · rw [hsorted, List.filter_append, List.filter_cons_of_neg ha, List.filter_cons_of_neg ha, ih]

/-- What is picked out of a sorted list by a bound is an initial part of it. -/
theorem filter_prefix_of_pairwise {p : α → Bool} {l : List α}
    (h : l.Pairwise fun a b => le a b = true)
    (hp : ∀ a b, le a b = true → p b = true → p a = true) : l.filter p <+: l := by
  induction l with
  | nil => simp
  | cons a l ih =>
    rw [List.pairwise_cons] at h
    by_cases ha : p a = true
    · rw [List.filter_cons_of_pos ha, List.prefix_cons_inj]
      exact ih h.2
    · -- past the first item that is left out all are left out
      have hnone : l.filter p = [] := by
        rw [List.filter_eq_nil_iff]
        intro b hb hpb
        exact ha (hp a b (h.1 b hb) hpb)
      rw [List.filter_cons_of_neg ha, hnone]
      exact List.nil_prefix

end Sorting

namespace Catalog

variable {c c' : Catalog} {v v' : Version} {ds : List Definition}

/-! ## The order of imports -/

/-- Definitions in the order in which they are imported: by their first version. -/
def before (d e : Definition) : Bool := d.minVersion.le e.minVersion

theorem before_trans (d e f : Definition) (hde : before d e = true) (hef : before e f = true) :
    before d f = true :=
  Version.le_trans hde hef

theorem before_total (d e : Definition) : (before d e || before e d) = true := by
  rw [Bool.or_eq_true]
  exact Version.le_total d.minVersion e.minVersion

/-- The definitions of a version are those that are old enough, sorted. -/
theorem eligible_eq (c : Catalog) (v : Version) :
    c.eligible v = (c.definitions.filter fun d => d.minVersion.le v).mergeSort before := rfl

theorem eligible_pairwise (c : Catalog) (v : Version) :
    (c.eligible v).Pairwise fun d e => before d e = true :=
  List.pairwise_mergeSort before_trans before_total _

theorem eligible_perm (c : Catalog) (v : Version) :
    (c.eligible v).Perm (c.definitions.filter fun d => d.minVersion.le v) :=
  List.mergeSort_perm _ _

/-- No name is imported twice. -/
theorem eligible_names_nodup (c : Catalog) (v : Version) : ((c.eligible v).map (·.name)).Nodup := by
  have hperm : ((c.eligible v).map (·.name)).Perm
      ((c.definitions.filter fun d => d.minVersion.le v).map (·.name)) :=
    (eligible_perm c v).map _
  rw [hperm.nodup_iff]
  exact c.distinct.sublist (List.filter_sublist.map _)

/-! ## A later version -/

/-- The definitions of a version are those of any later one that are old enough. -/
theorem eligible_eq_filter (h : v.le v' = true) :
    c.eligible v = (c.eligible v').filter fun d => d.minVersion.le v := by
  have hboth : ∀ d : Definition, (d.minVersion.le v && d.minVersion.le v') = d.minVersion.le v := by
    intro d
    rw [Bool.and_eq_left_iff_imp]
    exact fun hd => Version.le_trans hd h
  rw [eligible_eq, eligible_eq, filter_mergeSort before_trans before_total, List.filter_filter]
  simp only [hboth]

/-- **A later version imports further definitions behind the earlier ones.** -/
theorem eligible_prefix (c : Catalog) (h : v.le v' = true) : c.eligible v <+: c.eligible v' := by
  rw [eligible_eq_filter h]
  exact filter_prefix_of_pairwise (eligible_pairwise c v') fun d e hde he => Version.le_trans hde he

/-! ## A larger catalog -/

/-- Nothing that an extension adds was there before. -/
theorem not_mem_of_extended (h : c.extended ds = .ok c') {d : Definition} (hd : d ∈ ds) :
    d ∉ c.definitions := by
  have hdistinct := c'.distinct
  rw [extended_definitions h, List.map_append, List.nodup_append] at hdistinct
  intro hmem
  exact hdistinct.2.2 d.name (List.mem_map_of_mem hmem) d.name (List.mem_map_of_mem hd) rfl

/-- The definitions of a version are those of the extended catalog that were there before. -/
theorem eligible_eq_filter_of_extended (h : c.extended ds = .ok c') :
    c.eligible v = (c'.eligible v).filter fun d => decide (d ∈ c.definitions) := by
  have hold : c'.definitions.filter (fun d => decide (d ∈ c.definitions)) = c.definitions := by
    have hkept : c.definitions.filter (fun d => decide (d ∈ c.definitions)) = c.definitions :=
      List.filter_eq_self.mpr fun d hd => decide_eq_true hd
    have hnone : ds.filter (fun d => decide (d ∈ c.definitions)) = [] :=
      List.filter_eq_nil_iff.mpr fun d hd => by simpa using not_mem_of_extended h hd
    rw [extended_definitions h, List.filter_append, hkept, hnone, List.append_nil]
  rw [eligible_eq c' v, filter_mergeSort before_trans before_total, List.filter_comm, hold]
  rfl

/-- **An extension moves no import.** -/
theorem eligible_sublist_of_extended (h : c.extended ds = .ok c') (v : Version) :
    (c.eligible v).Sublist (c'.eligible v) := by
  rw [eligible_eq_filter_of_extended h]
  exact List.filter_sublist

/-- **An extension adds to the imports its own definitions that are old enough.** -/
theorem eligible_perm_of_extended (h : c.extended ds = .ok c') (v : Version) :
    (c'.eligible v).Perm (c.eligible v ++ ds.filter fun d => d.minVersion.le v) := by
  have hnew := eligible_perm c' v
  rw [extended_definitions h, List.filter_append] at hnew
  exact hnew.trans ((eligible_perm c v).symm.append_right _)

end Catalog
end Subgraph
