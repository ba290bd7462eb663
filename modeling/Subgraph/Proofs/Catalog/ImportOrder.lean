import Subgraph.Proofs.Catalog.Eligible
import Subgraph.Proofs.Workspace.Catalogs

/-!
# `Catalog.ImportOrder` — the imports of a version, as a specification

What the imports of a version are can be said without filters and sorts (`ImportOrder`): each definition
that is old enough stands among them once and no other does, first versions ascend, and definitions whose
first versions are the same, however these are written, stand as they were registered. No two lists meet
this (`ImportOrder.unique`), for two definitions that stand in both orders have the same first version,
and a list without repetitions has them in one order only.

The list that is computed meets it (`importOrder_eligible`). That sorting is stable comes down to the
definitions of one first version: picking them out of the sorted list is picking them out of the catalog
(`eligible_filter_same`). Over a run the catalog is what the ledger says (`run_eligible`).
-/

namespace Subgraph

/-! ## Two items in order -/

/-- Two items of a list without repetitions stand in one order only. -/
theorem not_sublist_swap {α : Type} {a b : α} {l : List α} (hl : l.Nodup)
    (hab : [a, b].Sublist l) : ¬ [b, a].Sublist l := by
  induction l with
  | nil => exact absurd hab (by simp)
  | cons c l ih =>
    obtain ⟨hc, hl⟩ := List.nodup_cons.mp hl
    intro hba
    -- one of the two is the first item, which does not come again
    rcases List.sublist_cons_iff.mp hab with hrest | ⟨_, hfirst, hb⟩
    · rcases List.sublist_cons_iff.mp hba with hrest' | ⟨_, hfirst', -⟩
      · exact ih hl hrest hrest'
      · obtain ⟨rfl, -⟩ := List.cons_eq_cons.mp hfirst'
        have hmem : b ∈ [a, b] := by simp
        exact hc (hrest.subset hmem)
    · obtain ⟨rfl, rfl⟩ := List.cons_eq_cons.mp hfirst
      rcases List.sublist_cons_iff.mp hba with hrest' | ⟨_, hfirst', ha⟩
      · have hmem : a ∈ [b, a] := by simp
        exact hc (hrest'.subset hmem)
      · obtain ⟨rfl, rfl⟩ := List.cons_eq_cons.mp hfirst'
        exact hc (ha.subset List.mem_cons_self)

namespace Catalog

variable {c : Catalog} {v : Version} {ds l l' : List Definition} {d e : Definition}

/-! ## The specification -/

/-- The lists that import, at a version, definitions that were registered in the order `ds`. -/
structure ImportOrder (ds : List Definition) (v : Version) (l : List Definition) : Prop where
  /-- What is old enough stands in the list once. -/
  once : ∀ d ∈ ds, d.minVersion.le v = true → l.count d = 1
  /-- Nothing else stands in it. -/
  only : ∀ d ∈ l, d ∈ ds ∧ d.minVersion.le v = true
  /-- First versions ascend. -/
  ascending : l.Pairwise fun d e => d.minVersion.le e.minVersion = true
  /-- Where they are the same, the order is that of registration. -/
  ties : l.Pairwise fun d e => d.minVersion.order e.minVersion = .eq → [d, e].Sublist ds

instance : Decidable (ImportOrder ds v l) :=
  decidable_of_iff
    ((∀ d ∈ ds, d.minVersion.le v = true → l.count d = 1) ∧
      (∀ d ∈ l, d ∈ ds ∧ d.minVersion.le v = true) ∧
      (l.Pairwise fun d e => d.minVersion.le e.minVersion = true) ∧
      l.Pairwise fun d e => d.minVersion.order e.minVersion = .eq → [d, e].Sublist ds)
    ⟨fun ⟨once, only, ascending, ties⟩ => ⟨once, only, ascending, ties⟩,
      fun ⟨once, only, ascending, ties⟩ => ⟨once, only, ascending, ties⟩⟩

theorem ImportOrder.mem_iff (h : ImportOrder ds v l) : d ∈ l ↔ d ∈ ds ∧ d.minVersion.le v = true := by
  constructor
  · exact h.only d
  · rintro ⟨hd, hold⟩
    exact List.count_pos_iff.mp (by rw [h.once d hd hold]; exact Nat.zero_lt_one)

theorem ImportOrder.nodup (h : ImportOrder ds v l) : l.Nodup := by
  rw [List.nodup_iff_count_le_one]
  intro d
  by_cases hd : d ∈ l
  · obtain ⟨hmem, hold⟩ := h.only d hd
    exact Nat.le_of_eq (h.once d hmem hold)
  · rw [List.count_eq_zero_of_not_mem hd]
    exact Nat.zero_le 1

/-- Of two first versions that are bounds of one another neither comes before. -/
theorem order_eq_of_before (hde : before d e = true) (hed : before e d = true) :
    d.minVersion.order e.minVersion = .eq := by
  have hswap := Version.order_swap d.minVersion e.minVersion
  unfold before at hde hed
  rw [Version.le_iff] at hde hed
  cases horder : d.minVersion.order e.minVersion with
  | eq => rfl
  | gt => exact absurd horder hde
  | lt =>
    rw [horder] at hswap
    exact absurd hswap hed

/-- **The specification leaves no choice.** -/
theorem ImportOrder.unique (hds : ds.Nodup) (h : ImportOrder ds v l) (h' : ImportOrder ds v l') :
    l = l' := by
  have hperm : l.Perm l' := by
    rw [List.perm_ext_iff_of_nodup h.nodup h'.nodup]
    intro d
    rw [h.mem_iff, h'.mem_iff]
  -- of two definitions that came before one another each would be registered before the other
  refine List.Perm.eq_of_pairwise ?_ (h.ascending.and h.ties) (h'.ascending.and h'.ties) hperm
  rintro d e - - ⟨hde, hreg⟩ ⟨hed, hreg'⟩
  exact absurd (hreg' (order_eq_of_before hed hde))
    (not_sublist_swap hds (hreg (order_eq_of_before hde hed)))

/-! ## What is computed -/

theorem definitions_nodup (c : Catalog) : c.definitions.Nodup := c.distinct.of_map _

/-- **Definitions of one first version are imported as they were registered.** -/
theorem eligible_filter_same (c : Catalog) (v m : Version) :
    (c.eligible v).filter (fun d => d.minVersion.same m) =
      (c.definitions.filter fun d => d.minVersion.le v).filter fun d => d.minVersion.same m := by
  rw [eligible_eq, filter_mergeSort before_trans before_total]
  -- all that is picked out is bound by all of it, so there is nothing to sort
  refine List.mergeSort_of_pairwise (List.pairwise_of_forall_mem_list fun d hd e he => ?_)
  have hd := (Version.same_iff _ m).mp (List.mem_filter.mp hd).2
  have he := (Version.same_iff _ m).mp (List.mem_filter.mp he).2
  have hsame : d.minVersion.components = e.minVersion.components := hd.trans he.symm
  rw [before, Version.le_eq_isLE, hsame]
  exact Std.ReflCmp.isLE_rfl

theorem importOrder_eligible (c : Catalog) (v : Version) :
    ImportOrder c.definitions v (c.eligible v) where
  once d hd hold := by
    have hnodup : (c.eligible v).Nodup := (eligible_names_nodup c v).of_map _
    exact List.count_eq_one_of_mem hnodup (mem_eligible.mpr ⟨hd, hold⟩)
  only d hd := mem_eligible.mp hd
  ascending := eligible_pairwise c v
  ties := by
    rw [List.pairwise_iff_forall_sublist]
    intro d e hsub htie
    have hsame : e.minVersion.same d.minVersion = true := by
      rw [Version.same_iff, Version.order_eq_iff.mp htie]
    have hself : d.minVersion.same d.minVersion = true := (Version.same_iff _ _).mpr rfl
    have hpicked := hsub.filter fun f => f.minVersion.same d.minVersion
    have hboth : [d, e].filter (fun f => f.minVersion.same d.minVersion) = [d, e] := by
      simp [hself, hsame]
    rw [hboth, eligible_filter_same] at hpicked
    exact hpicked.trans (List.filter_sublist.trans List.filter_sublist)

/-- The imports of a version are the one list that meets the specification. -/
theorem importOrder_iff : ImportOrder c.definitions v l ↔ l = c.eligible v := by
  constructor
  · intro h
    exact h.unique (definitions_nodup c) (importOrder_eligible c v)
  · rintro rfl
    exact importOrder_eligible c v

end Catalog

namespace Workspace

open Catalog (ImportOrder)

/-- **Imports over runs.** The catalogs of a run hold what was registered in them. From each of them, at
each version, a list is imported iff it has every definition that is old enough once and no other, by
ascending first version, and in a tie by registration. -/
theorem run_eligible {actions : List Action} {id : CatalogId} {ds : List Definition}
    (hds : (Ledger.run [Catalog.standard.definitions] actions)[id]? = some ds) :
    ∃ c, (run actions).catalogs[id]? = some c ∧
      ∀ v l, ImportOrder ds v l ↔ l = c.eligible v := by
  rw [← run_ledger, ledger_getElem?] at hds
  obtain ⟨c, hc, rfl⟩ := Option.map_eq_some_iff.mp hds
  exact ⟨c, hc, fun v l => Catalog.importOrder_iff⟩

/-- A run that registers out of order, with one first version written in two ways, and extends. -/
def tiedRun : List Action :=
  [.create [⟨"late", ⟨[2, 1], "2.1"⟩, [.object], false⟩, ⟨"early", ⟨[2], "2.0"⟩, [.object], false⟩],
    .register 1 ⟨"again", ⟨[2, 1], "2.1.0"⟩, [.object], false⟩,
    .extend 1 [⟨"future", ⟨[3], "3.0"⟩, [.object], false⟩, ⟨"more", ⟨[2, 1], "2.1"⟩, [.union], true⟩]]

/-- What the extension holds. -/
def tiedDefinitions : List Definition :=
  [⟨"late", ⟨[2, 1], "2.1"⟩, [.object], false⟩, ⟨"early", ⟨[2], "2.0"⟩, [.object], false⟩,
    ⟨"again", ⟨[2, 1], "2.1.0"⟩, [.object], false⟩, ⟨"future", ⟨[3], "3.0"⟩, [.object], false⟩,
    ⟨"more", ⟨[2, 1], "2.1"⟩, [.union], true⟩]

/-- `run_eligible` at that run: the three of version 2.1 are imported as they were registered. -/
theorem run_eligible_tied :
    (Ledger.run [Catalog.standard.definitions] tiedRun)[2]? = some tiedDefinitions ∧
      ∃ c, (run tiedRun).catalogs[2]? = some c ∧
        [⟨"early", ⟨[2], "2.0"⟩, [.object], false⟩, ⟨"late", ⟨[2, 1], "2.1"⟩, [.object], false⟩,
          ⟨"again", ⟨[2, 1], "2.1.0"⟩, [.object], false⟩,
          ⟨"more", ⟨[2, 1], "2.1"⟩, [.union], true⟩] = c.eligible ⟨[2, 10], "2.10"⟩ := by
  have hledger : (Ledger.run [Catalog.standard.definitions] tiedRun)[2]? = some tiedDefinitions := by
    rfl
  obtain ⟨c, hc, himports⟩ := run_eligible hledger
  exact ⟨hledger, c, hc, (himports _ _).mp (by decide)⟩

end Workspace
end Subgraph
