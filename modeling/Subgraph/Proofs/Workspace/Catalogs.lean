import Subgraph.Proofs.Catalog.Repetition
import Subgraph.Proofs.Workspace.Attachment

/-!
# `Workspace.Catalogs` — what a run makes of its catalogs

Several catalogs are there at once, made from one another and registered in one by one. What is in them
can be said without any of this: a `Ledger` is a list of plain lists of definitions, one for each
catalog, and a call either puts a list behind the others or definitions behind one list. That is all
that ever happens to the catalogs of a workspace (`run_ledger`), so a catalog holds what was registered
in it, in this order, and no call on one reaches another (`run_isolated`).

A call that enters definitions into a catalog is refused iff a name repeats in what the catalog would
hold, and the failure names the first repetition (`perform_eq_error_iff`).
-/

namespace Subgraph

/-! ## Ledgers -/

/-- The definitions of several catalogs, each in the order of registration. -/
abbrev Ledger := List (List Definition)

namespace Ledger

variable {l : Ledger} {id : CatalogId} {ds : List Definition} {a : Action}

/-- What a call wants a catalog to hold: the definitions that are there, and those that it enters. A
call that has nothing to do with catalogs, or names one that is not there, wants nothing. -/
def wanted? (l : Ledger) : Action → Option (List Definition)
  | .create ds => some ds
  | .register id d => l[id]?.map (· ++ [d])
  | .extend id ds => l[id]?.map (· ++ ds)
  | .construct _ _ _ _ _ _ | .attach _ _ | .freeze _ => none

/-- The ledger with what a call wants: in the place of the old list for a registration, and as one more
list otherwise. -/
def put (l : Ledger) (a : Action) (ds : List Definition) : Ledger :=
  match a with
  | .register id _ => l.set id ds
  | _ => l ++ [ds]

/-- The ledger after a call. If a name repeats in what the call wants, the ledger stays as it is. -/
def after (l : Ledger) (a : Action) : Ledger :=
  match l.wanted? a with
  | none => l
  | some ds => if (ds.map (·.name)).Nodup then l.put a ds else l

/-- The ledger after a sequence of calls. -/
def run (l : Ledger) (actions : List Action) : Ledger := actions.foldl after l

/-- The other lists stay as they are. -/
theorem put_isolated (h : l[id]? = some ds) (ha : ∀ d, a ≠ .register id d) (es : List Definition) :
    (l.put a es)[id]? = some ds := by
  cases a with
  | register k d =>
    have hne : k ≠ id := fun hk => ha d (by rw [hk])
    exact (List.getElem?_set_ne hne).trans h
  | create | extend | construct | attach | freeze =>
    have hlt : id < l.length := (List.getElem?_eq_some_iff.mp h).1
    exact (List.getElem?_append_left hlt).trans h

/-- **Isolation.** A call changes the list of a catalog only by registering in this very catalog. -/
theorem after_isolated (h : l[id]? = some ds) (ha : ∀ d, a ≠ .register id d) :
    (l.after a)[id]? = some ds := by
  unfold after
  split
  · exact h
  · split
    · exact put_isolated h ha _
    · exact h

/-- Isolation over a whole run. -/
theorem run_isolated {actions : List Action} (h : l[id]? = some ds)
    (ha : ∀ d, Action.register id d ∉ actions) : (l.run actions)[id]? = some ds := by
  unfold run
  induction actions generalizing l with
  | nil => exact h
  | cons a as ih =>
    have hstep : (l.after a)[id]? = some ds :=
      after_isolated h fun d hd => ha d (hd ▸ List.mem_cons_self)
    exact ih hstep fun d hd => ha d (List.mem_cons_of_mem a hd)

end Ledger

namespace Workspace

variable {w w' : Workspace} {a : Action}

/-- The definitions of the catalogs of a workspace. -/
def ledger (w : Workspace) : Ledger := w.catalogs.toList.map (·.definitions)

theorem ledger_getElem? (w : Workspace) (id : CatalogId) :
    w.ledger[id]? = w.catalogs[id]?.map (·.definitions) := by
  simp [ledger]

/-- A catalog is the one of an index iff its definitions are those of the ledger. -/
theorem catalogs_getElem?_iff {id : CatalogId} {c : Catalog} :
    w.catalogs[id]? = some c ↔ w.ledger[id]? = some c.definitions := by
  rw [ledger_getElem?, Option.map_eq_some_iff]
  constructor
  · intro h
    exact ⟨c, h, rfl⟩
  · rintro ⟨c', h, hsame⟩
    rw [h, Catalog.eq_of_definitions_eq hsame]

/-! ## Steps -/

/-- The workspace with a catalog in the place where a call puts it. -/
def put (w : Workspace) (a : Action) (c : Catalog) : Workspace :=
  match a with
  | .register id _ => { w with catalogs := w.catalogs.setIfInBounds id c }
  | _ => (w.addCatalog c).1

theorem put_ledger (w : Workspace) (a : Action) (c : Catalog) :
    (w.put a c).ledger = w.ledger.put a c.definitions := by
  cases a <;> simp [put, Ledger.put, ledger, addCatalog, List.map_set]

/-- **What a call on catalogs does:** it makes a catalog of what it wants and puts it in its place. -/
theorem perform_eq_put {ds : List Definition} (h : w.ledger.wanted? a = some ds) :
    w.perform a = (Catalog.ofDefinitions ds).map (w.put a) := by
  cases a with
  | create es =>
    injection h with h
    rw [h]
    rfl
  | register id d =>
    obtain ⟨old, hold, rfl⟩ := Option.map_eq_some_iff.mp h
    rw [ledger_getElem?] at hold
    obtain ⟨c, hc, rfl⟩ := Option.map_eq_some_iff.mp hold
    simp only [perform, registerIn, hc, ← Catalog.register_eq_ofDefinitions]
    cases c.register d <;> rfl
  | extend id es =>
    obtain ⟨old, hold, rfl⟩ := Option.map_eq_some_iff.mp h
    rw [ledger_getElem?] at hold
    obtain ⟨c, hc, rfl⟩ := Option.map_eq_some_iff.mp hold
    have hcatalog : w.catalog id = c := by rw [catalog, hc, Option.getD_some]
    have hextended : Catalog.ofDefinitions (c.definitions ++ es) = c.extended es := rfl
    rw [perform, extendCatalog, hcatalog, hextended]
    cases c.extended es <;> rfl
  | construct | attach | freeze => exact absurd h (by simp [Ledger.wanted?])

/-- A call that wants something names a catalog that is there. -/
theorem canName_of_wanted {ds : List Definition} (h : w.ledger.wanted? a = some ds) :
    w.canName a = true := by
  cases a with
  | create es => rfl
  | register id d | extend id es =>
    obtain ⟨old, hold, -⟩ := Option.map_eq_some_iff.mp h
    have hlt : id < w.ledger.length := (List.getElem?_eq_some_iff.mp hold).1
    simpa [canName, ledger] using hlt
  | construct | attach | freeze => exact absurd h (by simp [Ledger.wanted?])

/-- An element that is constructed or annotated leaves the catalogs alone. -/
theorem addElement_catalogs {l : Location} {o : Options CatalogId} {id : ElementId}
    (h : w.addElement l o = .ok (w', id)) : w'.catalogs = w.catalogs := by
  unfold addElement at h
  simp only at h
  split at h
  · injection h with h
    injection h with h
    rw [← h]
  · exact absurd h (by simp)

theorem attach_catalogs {id : ElementId} {d : Directive} (h : w.attach id d = .ok w') :
    w'.catalogs = w.catalogs := by
  unfold attach at h
  split at h
  · injection h with h
    rw [← h]
  · split at h
    · injection h with h
      rw [← h]
      rfl
    · exact absurd h (by simp)

/-- A call that wants nothing of the catalogs leaves them alone. -/
theorem perform_catalogs (hn : w.canName a = true) (hw : w.ledger.wanted? a = none)
    (h : w.perform a = .ok w') : w'.catalogs = w.catalogs := by
  cases a with
  | create ds => exact absurd hw (by simp [Ledger.wanted?])
  | register id d | extend id ds =>
    -- the catalog is there, so the call wants something
    have hlt : id < w.catalogs.size := by simpa [canName] using hn
    simp [Ledger.wanted?, ledger_getElem?, hlt] at hw
  | construct l tags inaccessible authenticated ds catalog =>
    obtain ⟨o, -, h⟩ := bind_eq_ok.mp h
    obtain ⟨⟨w₁, k⟩, hx, rfl⟩ := map_eq_ok.mp h
    exact addElement_catalogs hx
  | attach id d =>
    obtain ⟨⟨w₁, d'⟩, hx, rfl⟩ := map_eq_ok.mp h
    obtain ⟨d₁, -, hx⟩ := bind_eq_ok.mp hx
    obtain ⟨w₂, hx, hx'⟩ := bind_eq_ok.mp hx
    injection hx' with hx'
    injection hx' with hw
    exact hw ▸ attach_catalogs hx
  | freeze id =>
    injection h with h
    rw [← h]
    rfl

/-- **A call on catalogs is refused** iff a name repeats in what it wants, and then with the first that
does. -/
theorem perform_eq_error_iff {ds : List Definition} (h : w.ledger.wanted? a = some ds) {f : Failure} :
    w.perform a = .error f ↔
      ∃ n, f = .alreadyRegistered n ∧ FirstRepeat (ds.map (·.name)) n := by
  rw [perform_eq_put h, map_eq_error]
  exact Catalog.ofDefinitions_eq_error_iff

/-- A call that is refused changes nothing. -/
theorem after_of_error {f : Failure} (h : w.perform a = .error f) : w.after a = w := by
  unfold after
  split
  · rw [h]
    rfl
  · rfl

theorem after_catalogs (hw : w.ledger.wanted? a = none) : (w.after a).catalogs = w.catalogs := by
  unfold after
  split
  · next hn =>
    cases h : w.perform a with
    | error f => rfl
    | ok w' => exact perform_catalogs hn hw h
  · rfl

/-- **The catalogs of a workspace go the way of its ledger.** -/
theorem after_ledger (w : Workspace) (a : Action) : (w.after a).ledger = w.ledger.after a := by
  unfold Ledger.after
  cases h : w.ledger.wanted? a with
  | none => rw [ledger, after_catalogs h, ledger]
  | some ds =>
    have hstep : w.after a = ((Catalog.ofDefinitions ds).map (w.put a)).toOption.getD w := by
      rw [after, if_pos (canName_of_wanted h), perform_eq_put h]
    cases hds : Catalog.ofDefinitions ds with
    | error f =>
      obtain ⟨n, -, hrepeat⟩ := Catalog.ofDefinitions_eq_error_iff.mp hds
      have hnot : ¬ (ds.map (·.name)).Nodup :=
        fun hdistinct => not_firstRepeat_of_nodup hdistinct n hrepeat
      rw [hstep, hds]
      simp only [if_neg hnot]
      rfl
    | ok c =>
      obtain rfl : c.definitions = ds := Catalog.ofDefinitions_eq_ok_iff.mp hds
      rw [hstep, hds]
      simp only [if_pos c.distinct]
      exact put_ledger w a c

/-! ## Runs -/

/-- Calls go the way of the ledger as well. -/
theorem foldl_after_ledger (w : Workspace) (actions : List Action) :
    (actions.foldl after w).ledger = w.ledger.run actions := by
  unfold Ledger.run
  induction actions generalizing w with
  | nil => rfl
  | cons a as ih => rw [List.foldl_cons, ih, after_ledger, List.foldl_cons]

/-- **The catalogs of a run** are what its calls make of a ledger, at first with the standard one. -/
theorem run_ledger (actions : List Action) :
    (run actions).ledger = Ledger.run [Catalog.standard.definitions] actions :=
  foldl_after_ledger {} actions

/-- **Isolation.** What calls follow a run, a catalog of it stays as it is unless one of them registers in
it. -/
theorem run_isolated {actions rest : List Action} {id : CatalogId} {c : Catalog}
    (hc : (run actions).catalogs[id]? = some c) (hrest : ∀ d, Action.register id d ∉ rest) :
    (run (actions ++ rest)).catalogs[id]? = some c := by
  have hsplit : run (actions ++ rest) = rest.foldl after (run actions) := List.foldl_append
  rw [catalogs_getElem?_iff] at hc ⊢
  rw [hsplit, foldl_after_ledger]
  exact Ledger.run_isolated hc hrest

/-- **Catalogs over runs.** The catalogs of a run hold what was registered in them, in this order, as the
ledger says. In each of them names are distinct, a definition is found under its own name and under no
other, extending twice is extending once by all that is new, and later calls leave it as it is unless
they register in it. A call that enters definitions is refused iff a name repeats in what the catalog
would hold, the failure names the first repetition, and nothing changes then. -/
theorem run_catalogs (actions : List Action) :
    (run actions).ledger = Ledger.run [Catalog.standard.definitions] actions ∧
      (∀ id c, (run actions).catalogs[id]? = some c →
        c.names.Nodup ∧
          (∀ n d, c.lookup n = .ok d ↔ d ∈ c.definitions ∧ d.name = n) ∧
          (∀ n f, c.lookup n = .error f ↔ f = .unknownDirective n ∧ n ∉ c.names) ∧
          (∀ ds es, (c.extended ds >>= fun c' => c'.extended es) = c.extended (ds ++ es)) ∧
          ∀ rest, (∀ d, Action.register id d ∉ rest) →
            (run (actions ++ rest)).catalogs[id]? = some c) ∧
      ∀ a ds, (run actions).ledger.wanted? a = some ds → ∀ f,
        ((run actions).perform a = .error f ↔
          ∃ n, f = .alreadyRegistered n ∧ FirstRepeat (ds.map (·.name)) n) ∧
        ((run actions).perform a = .error f → run (actions ++ [a]) = run actions) := by
  refine ⟨run_ledger actions, fun id c hc => ?_, fun a ds ha f => ⟨perform_eq_error_iff ha, ?_⟩⟩
  · refine ⟨c.distinct, fun n d => ?_, fun n f => Catalog.lookup_eq_error_iff,
      c.extended_extended, fun rest hrest => run_isolated hc hrest⟩
    rw [Catalog.lookup_eq_ok_iff, Catalog.find?_eq_some_iff]
  · intro hf
    have hsplit : run (actions ++ [a]) = (run actions).after a := List.foldl_append
    rw [hsplit, after_of_error hf]

/-- A run that makes a catalog, extends it, and goes on registering in both: each gets a `note` of its
own, and the second `key` is refused. -/
def branchingRun : List Action :=
  [.create [⟨"key", ⟨[2], "2.0"⟩, [.object], false⟩],
    .extend 1 [⟨"link", ⟨[2, 1], "2.1"⟩, [.object], false⟩],
    .register 1 ⟨"note", ⟨[2, 2], "2.2"⟩, [.object], true⟩,
    .register 2 ⟨"note", ⟨[2, 4], "2.4"⟩, [.union], false⟩,
    .register 2 ⟨"key", ⟨[2, 5], "2.5"⟩, [.object], false⟩]

/-- The catalog that was made first. -/
def trunkCatalog : Catalog where
  definitions :=
    [⟨"key", ⟨[2], "2.0"⟩, [.object], false⟩, ⟨"note", ⟨[2, 2], "2.2"⟩, [.object], true⟩]
  distinct := by decide

/-- `run_catalogs` at that run: the first catalog after a registration in the second, and an extension
that repeats two names. -/
theorem run_catalogs_branching :
    (run branchingRun).catalogs[1]? = some trunkCatalog ∧
      (run (branchingRun ++ [.register 2 ⟨"tag", ⟨[2], "2.0"⟩, [], false⟩])).catalogs[1]? =
        some trunkCatalog ∧
      ∃ f, (run branchingRun).perform
          (.extend 1 [⟨"tag", ⟨[2], "2.0"⟩, [], false⟩, ⟨"note", ⟨[2], "2.0"⟩, [], false⟩,
            ⟨"key", ⟨[2], "2.0"⟩, [], false⟩]) = .error f ∧
        f = .alreadyRegistered "note" := by
  have hc : (run branchingRun).catalogs[1]? = some trunkCatalog := by rfl
  obtain ⟨-, hcatalogs, hcalls⟩ := run_catalogs branchingRun
  obtain ⟨-, -, -, -, hstays⟩ := hcatalogs 1 trunkCatalog hc
  refine ⟨hc, hstays _ (by simp), _, ((hcalls _ _ (by rfl) _).1).mpr ⟨"note", rfl, ?_⟩, rfl⟩
  exact ⟨["key", "note", "tag"], ["key"], by rfl, by decide, by decide⟩

end Workspace
end Subgraph
