import Mathlib.Data.List.Perm.Subperm
import Subgraph.Proofs.Yaml.Faults

/-!
# `Yaml.Value` — in which order nodes are made, and which goes wrong first

Nodes are made from the root on, collections being filled in the order in which they were made. `Reaches`
is that order as a relation: all nodes before have been made, these are known, and those come next. Making
all of a document goes wrong, other than by malformed text, iff the order reaches a node that has no value
or a mapping whose merges lead on too far (`construct_eq_error_iff`).

One direction follows the run, which reaches what it fails on. The other one needs that the run gets as
far as the order does: every node is made once, so there are as many collections to be filled as nodes at
most (`Sound`).

## Contents
- **Merging.** `flatten_ends`.
- **The order.** `Reaches`, `Next`, `Unmade`.
- **The run follows the order.** `make_ends`, `perform_ends`, `fill_ends`.
- **The run gets as far.** `Sound`, `Reaches.rest`.
- **Texts.** `construct_eq_error_iff`, `load_eq_error_iff`.
-/

namespace Subgraph
namespace Yaml

variable {g g' : NodeGraph} {root id : NodeId} {fault : Fault} {text : String}

/-! ## Merging -/

/-- A mapping that cannot take over the entries of others: one of them is none, or they lead on too
far. -/
def Unmerged (fault : Fault) : Prop := fault = .malformed ∨ fault = .misuse .deepNesting

theorem size_setEntries (g : NodeGraph) (id : NodeId) (entries : List (NodeId × NodeId)) :
    (setEntries g id entries).size = g.size := Array.size_modify

theorem size_settleKeys (g : NodeGraph) (keys : List NodeId) : (settleKeys g keys).size = g.size := by
  induction keys generalizing g with
  | nil => rfl
  | cons k keys ih => exact (ih _).trans Array.size_modify

section Merging

variable {inner : NodeGraph → NodeId → Except Fault NodeGraph}
  (hinner : ∀ g id, Ends Unmerged (fun g' => g'.size = g.size) (inner g id))

include hinner

theorem mergedParts_ends (g : NodeGraph) (ids : List NodeId) :
    Ends Unmerged (fun r => r.1.size = g.size) (mergedParts inner g ids) := by
  induction ids generalizing g with
  | nil => exact .ok rfl
  | cons id ids ih =>
    unfold mergedParts
    split
    · exact .error (Or.inl rfl)
    · exact (hinner g id).bind fun g' hg' => (ih g').bind fun r hr => .ok (hr.trans hg')

theorem merged_ends (g : NodeGraph) (id : NodeId) :
    Ends Unmerged (fun r => r.1.size = g.size) (merged inner g id) := by
  unfold merged
  split
  · exact (hinner g id).bind fun g' hg' => .ok hg'
  · next items _ => exact (mergedParts_ends hinner g items).bind fun r hr => .ok hr
  · exact .error (Or.inl rfl)

/-- Taking over entries adds no nodes, by induction on the merge keys that are left. -/
theorem takeOver_ends (id : NodeId) (fuel : Nat) (g : NodeGraph) (taken : List (NodeId × NodeId)) :
    Ends Unmerged (fun r => r.1.size = g.size) (takeOver inner id fuel g taken) := by
  induction fuel generalizing g taken with
  | zero => exact .ok rfl
  | succ fuel ih =>
    unfold takeOver
    split
    · exact .ok rfl
    · next v rest _ =>
      refine (merged_ends hinner (setEntries g id rest) v).bind fun r hr => ?_
      refine (ih r.1 _).mono (fun _ h => h) fun r' hr' => ?_
      rw [hr', hr, size_setEntries]

end Merging

/-- **Merging leaves the nodes where they are**, and fails only where what is merged is no mapping or
leads on too far. -/
theorem flatten_ends (room : Nat) (g : NodeGraph) (id : NodeId) :
    Ends Unmerged (fun g' => g'.size = g.size) (flatten room g id) := by
  induction room generalizing g id with
  | zero => exact .error (Or.inr rfl)
  | succ room ih =>
    refine (takeOver_ends ih id _ _ _).bind fun r hr => .ok ?_
    rw [size_settleKeys] at hr
    split
    · exact hr
    · rw [size_setEntries, hr]

/-! ## The order -/

open Filling (has make perform enter fill)

/-- The order in which the nodes of a document are made: from its root on, all nodes before having been
made, this is known and these come next. When nothing comes next, the first collection that is still to
be filled does. -/
inductive Reaches (g : NodeGraph) (root : NodeId) : Filling → List Task → Prop where
  | start : Reaches g root { graph := g } [.value root]
  | value {f f' : Filling} {id : NodeId} {ts : List Task} (h : Reaches g root f (.value id :: ts))
    (hmake : f.make id = .ok f') : Reaches g root f' ts
  | key {f f' : Filling} {id : NodeId} {ts : List Task} (h : Reaches g root f (.key id :: ts))
    (hmake : f.make id = .ok f') (hkey : (tagOf f'.graph id).isCollection = false) :
    Reaches g root f' ts
  | pair {f : Filling} {id k v : NodeId} {ts : List Task} (h : Reaches g root f (.pair id :: ts))
    (hentry : entriesOf f.graph id = some [(k, v)]) : Reaches g root f (.value k :: .value v :: ts)
  | entered {f f' : Filling} {id : NodeId} {ids : List NodeId} {ts : List Task}
    (h : Reaches g root f []) (hpending : f.pending = id :: ids)
    (henter : { f with pending := ids }.enter id = .ok (f', ts)) : Reaches g root f' ts

/-- The node that is made next. -/
inductive Next : List Task → NodeId → Prop where
  | value (id : NodeId) (ts : List Task) : Next (.value id :: ts) id
  | key (id : NodeId) (ts : List Task) : Next (.key id :: ts) id

/-- What is reached first and cannot be made: a node that has no value, or a mapping whose merges lead on
too far. -/
inductive Unmade (g : NodeGraph) (root : NodeId) : Fault → Prop where
  | node {f : Filling} {ts : List Task} {id : NodeId} {fault : Fault} (hreach : Reaches g root f ts)
    (hnext : Next ts id) (hnew : f.has id = false) (hvalue : NoValue f.graph id fault) :
    Unmade g root fault
  | merging {f : Filling} {id : NodeId} {ids : List NodeId} {entries : List (NodeId × NodeId)}
    (hreach : Reaches g root f []) (hpending : f.pending = id :: ids)
    (htag : tagOf f.graph id = .mapping ∨ tagOf f.graph id = .set)
    (hbody : bodyOf f.graph id = some (.mapping entries))
    (hmerge : flatten stackRoom f.graph id = .error (.misuse .deepNesting)) :
    Unmade g root (.misuse .deepNesting)

/-! ## The run follows the order -/

variable {f f' : Filling} {ts : List Task}

/-- What making the nodes of a document stops at: it is malformed, or a node that is reached cannot be
made. -/
def Halts (g : NodeGraph) (root : NodeId) (fault : Fault) : Prop :=
  fault = .malformed ∨ Unmade g root fault

/-- Making a node that is not there yet goes wrong as making its value does. -/
theorem make_eq_error_iff :
    f.make id = .error fault ↔
      f.has id = false ∧ scalarValue f.graph id (tagOf f.graph id) = .error fault := by
  unfold make
  cases f.has id with
  | true => simp
  | false => simp [map_eq_error]

/-- The node that is made next is made, or it is malformed or has no value. -/
theorem make_ends (hreach : Reaches g root f ts) (hnext : Next ts id) :
    Ends (Halts g root) (fun f' => f.make id = .ok f') (f.make id) := by
  refine ⟨fun fault h => ?_, fun f' h => h⟩
  obtain ⟨hnew, hvalue⟩ := make_eq_error_iff.mp h
  by_cases hfault : fault = .malformed
  · exact Or.inl hfault
  · exact Or.inr (.node hreach hnext hnew (scalarValue_eq_error_iff.mp ⟨hvalue, hfault⟩))

/-- Nodes made one after the other lead to where nothing comes next, or to one that cannot be made. -/
theorem perform_ends (hreach : Reaches g root f ts) :
    Ends (Halts g root) (fun f' => Reaches g root f' []) (f.perform ts) := by
  induction ts generalizing f with
  | nil => exact .ok hreach
  | cons t ts ih =>
    cases t with
    | value id => exact (make_ends hreach (.value id ts)).bind fun f' hmake => ih (hreach.value hmake)
    | key id =>
      refine (make_ends hreach (.key id ts)).bind fun f' hmake => ?_
      split
      · exact .error (Or.inl rfl)
      · next hkey => exact ih (hreach.key hmake (by simpa using hkey))
    | pair id =>
      unfold perform
      split
      · next k v hentry =>
        have hpair := hreach.pair hentry
        refine (make_ends hpair (.value k _)).bind fun f' hk => ?_
        exact (make_ends (hpair.value hk) (.value v ts)).bind fun f'' hv => ih ((hpair.value hk).value hv)
      · exact .error (Or.inl rfl)

/-- The first collection that is to be filled is entered, or it is malformed or its merges lead on too
far. -/
theorem enter_ends {ids : List NodeId} (hreach : Reaches g root f []) (hpending : f.pending = id :: ids) :
    Ends (Halts g root) (fun r => Reaches g root r.1 r.2) ({ f with pending := ids }.enter id) := by
  refine ⟨fun fault h => ?_, fun r h => hreach.entered hpending h⟩
  -- a mapping goes wrong as its merging does
  have hmapping {entries : List (NodeId × NodeId)}
      (htag : tagOf f.graph id = .mapping ∨ tagOf f.graph id = .set)
      (hbody : bodyOf f.graph id = some (.mapping entries))
      (h : flatten stackRoom f.graph id = .error fault) : Halts g root fault := by
    rcases (flatten_ends _ _ _).1 fault h with rfl | rfl
    · exact Or.inl rfl
    · exact Or.inr (.merging hreach hpending htag hbody h)
  unfold enter at h
  split at h
  · exact absurd h (by simp)
  · exact absurd h (by simp)
  · next htag hbody =>
    rcases bind_eq_error.mp h with h | ⟨g', -, h⟩
    · exact hmapping (Or.inl htag) hbody h
    · exact absurd h (by simp)
  · next htag hbody =>
    rcases bind_eq_error.mp h with h | ⟨g', -, h⟩
    · exact hmapping (Or.inr htag) hbody h
    · exact absurd h (by simp)
  · exact Or.inl (Except.error.inj h).symm

/-- Collections filled one after the other lead to a node that cannot be made, if anything goes wrong. -/
theorem fill_ends (fuel : Nat) (hreach : Reaches g root f []) :
    FailsOnly (Halts g root) (f.fill fuel) := by
  induction fuel generalizing f with
  | zero => exact .ok _
  | succ fuel ih =>
    unfold fill
    split
    · exact .ok _
    · next id ids hpending =>
      have hall : Ends (Halts g root) (fun _ => True) ({ f with pending := ids }.enter id >>= fun r =>
          r.1.perform r.2 >>= fun f' => f'.fill fuel) :=
        (enter_ends hreach hpending).bind fun r hr => (perform_ends hr).bind fun f' hf' =>
          .of_failsOnly (ih hf')
      exact hall.1

/-- **What goes wrong with a document is reached.** -/
theorem construct_halts (g : NodeGraph) (root : NodeId) :
    FailsOnly (Halts g root) (construct g root) :=
  ((perform_ends .start).bind fun _ hf => .of_failsOnly (fill_ends g.size hf)).1

/-! ## The run gets as far -/

/-- What holds of the nodes made when so many collections have been entered: they are nodes of the graph,
each is made once, and those entered and those still to be filled are among them. -/
structure Sound (count entered : Nat) (f : Filling) : Prop where
  graph : f.graph.size = count
  nodup : (f.made.map (·.1)).Nodup
  bound : ∀ p ∈ f.made, p.1 < count
  pending : entered + f.pending.length ≤ f.made.length

/-- There are no more nodes made than nodes. -/
theorem Sound.made_le {count entered : Nat} (h : Sound count entered f) : f.made.length ≤ count := by
  have hsub : f.made.map (·.1) ⊆ List.range count := by
    intro id hid
    obtain ⟨p, hp, rfl⟩ := List.mem_map.mp hid
    exact List.mem_range.mpr (h.bound p hp)
  simpa using (List.subperm_of_subset h.nodup hsub).length_le

/-- A tag makes a value only of a node that there is. -/
theorem lt_size_of_scalarValue {v : Value} (h : scalarValue g id (tagOf g id) = .ok v) :
    id < g.size := by
  by_contra hsize
  have htag : tagOf g id = .unknown := by
    rw [tagOf, Array.getElem?_eq_none (Nat.le_of_not_lt hsize)]
  rw [htag] at h
  exact absurd h (by simp [scalarValue, Tag.isCollection, Tag.readsText])

/-- Making a node keeps what holds. -/
theorem Sound.make {count entered : Nat} (h : Sound count entered f) (hmake : f.make id = .ok f') :
    Sound count entered f' := by
  unfold Filling.make at hmake
  cases hhas : f.has id with
  | true =>
    rw [if_pos hhas] at hmake
    exact Except.ok.inj hmake ▸ h
  | false =>
    rw [if_neg (by simp [hhas])] at hmake
    obtain ⟨v, hvalue, rfl⟩ := map_eq_ok.mp hmake
    have hnew : id ∉ f.made.map (·.1) := by
      intro hmem
      obtain ⟨p, hp, rfl⟩ := List.mem_map.mp hmem
      have hlookup : f.made.lookup p.1 = none := by simpa [Filling.has] using hhas
      exact absurd (List.lookup_eq_none_iff.mp hlookup p hp) (by simp)
    refine ⟨h.graph, List.nodup_cons.mpr ⟨hnew, h.nodup⟩, ?_, ?_⟩
    · rintro p (_ | ⟨_, hp⟩)
      · exact h.graph ▸ lt_size_of_scalarValue hvalue
      · exact h.bound p hp
    · have hpending := h.pending
      dsimp only
      split
      · rw [List.length_append, List.length_cons, List.length_cons, List.length_nil]
        omega
      · rw [List.length_cons]
        omega

/-- Entering a collection takes it from those that are still to be filled. -/
theorem Sound.enter {count entered : Nat} {ids : List NodeId} (h : Sound count entered f)
    (hpending : f.pending = id :: ids) (henter : { f with pending := ids }.enter id = .ok (f', ts)) :
    Sound count (entered + 1) f' := by
  have hcount := h.pending
  rw [hpending, List.length_cons] at hcount
  -- the graph may have changed, but not in size
  have hmapping {g' : NodeGraph} (hmerge : flatten stackRoom f.graph id = .ok g') :
      Sound count (entered + 1) { f with graph := g', pending := ids } :=
    ⟨((flatten_ends _ _ _).2 g' hmerge).trans h.graph, h.nodup, h.bound, by dsimp only; omega⟩
  have hsame : Sound count (entered + 1) { f with pending := ids } :=
    ⟨h.graph, h.nodup, h.bound, by dsimp only; omega⟩
  unfold Filling.enter at henter
  split at henter
  · exact (Prod.mk.inj (Except.ok.inj henter)).1 ▸ hsame
  · exact (Prod.mk.inj (Except.ok.inj henter)).1 ▸ hsame
  · obtain ⟨g', hmerge, hresult⟩ := bind_eq_ok.mp henter
    exact (Prod.mk.inj (Except.ok.inj hresult)).1 ▸ hmapping hmerge
  · obtain ⟨g', hmerge, hresult⟩ := bind_eq_ok.mp henter
    exact (Prod.mk.inj (Except.ok.inj hresult)).1 ▸ hmapping hmerge
  · exact absurd henter (by simp)

/-- While a collection is to be filled, not all have been. -/
theorem Sound.left {count entered : Nat} {ids : List NodeId} (h : Sound count entered f)
    (hpending : f.pending = id :: ids) : count - entered = count - (entered + 1) + 1 := by
  have hmade := h.made_le
  have hcount := h.pending
  rw [hpending, List.length_cons] at hcount
  omega

/-- A collection that is to be filled is entered, then what it has is made, and the others are filled. -/
theorem fill_pending {fuel : Nat} {ids : List NodeId} (hpending : f.pending = id :: ids) :
    f.fill (fuel + 1) = { f with pending := ids }.enter id >>= fun r =>
      r.1.perform r.2 >>= fun f' => f'.fill fuel := by
  rw [fill, hpending]

/-- **From what is reached the run goes on**: making the whole document is making what comes next and
filling the collections that are left. -/
theorem Reaches.rest (hreach : Reaches g root f ts) :
    ∃ entered, Sound g.size entered f ∧
      construct g root = f.perform ts >>= fun f' => f'.fill (g.size - entered) := by
  induction hreach with
  | start => exact ⟨0, ⟨rfl, by simp, by simp, by simp⟩, rfl⟩
  | value _ hmake ih =>
    obtain ⟨entered, hsound, hrest⟩ := ih
    refine ⟨entered, hsound.make hmake, hrest.trans ?_⟩
    rw [perform, hmake, ok_bind]
  | key _ hmake hkey ih =>
    obtain ⟨entered, hsound, hrest⟩ := ih
    refine ⟨entered, hsound.make hmake, hrest.trans ?_⟩
    rw [perform, hmake, ok_bind, if_neg (by simp [hkey])]
  | pair _ hentry ih =>
    obtain ⟨entered, hsound, hrest⟩ := ih
    refine ⟨entered, hsound, hrest.trans ?_⟩
    simp only [perform, hentry]
  | @entered f f' id ids ts _ hpending henter ih =>
    obtain ⟨entered, hsound, hrest⟩ := ih
    refine ⟨entered + 1, hsound.enter hpending henter, hrest.trans ?_⟩
    rw [perform, ok_bind, hsound.left hpending, fill_pending hpending, henter, ok_bind]

/-- **Making all of a document goes wrong, other than by malformed text, iff what cannot be made is
reached.** -/
theorem construct_eq_error_iff :
    (construct g root = .error fault ∧ fault ≠ .malformed) ↔ Unmade g root fault := by
  constructor
  · rintro ⟨h, hfault⟩
    exact (construct_halts g root fault h).resolve_left hfault
  · intro h
    cases h with
    | node hreach hnext hnew hvalue =>
      obtain ⟨entered, -, hrest⟩ := hreach.rest
      obtain ⟨hscalar, hfault⟩ := scalarValue_eq_error_iff.mpr hvalue
      have hmake := make_eq_error_iff.mpr ⟨hnew, hscalar⟩
      refine ⟨?_, hfault⟩
      rw [hrest]
      cases hnext <;> rw [perform, hmake] <;> rfl
    | @merging f id ids entries hreach hpending htag hbody hmerge =>
      obtain ⟨entered, hsound, hrest⟩ := hreach.rest
      have henter : { f with pending := ids }.enter id = .error (.misuse .deepNesting) := by
        unfold enter
        rcases htag with htag | htag <;> simp only [htag, hbody, hmerge] <;> rfl
      refine ⟨?_, by simp⟩
      rw [hrest, perform, ok_bind, hsound.left hpending, fill_pending hpending, henter]
      rfl

/-! ## Texts -/

/-- **Loading a text goes wrong, other than by malformed text, iff that is what reading its document goes
wrong with, or what cannot be made of its document is reached.** -/
theorem load_eq_error_iff {depth : Nat} :
    (load depth text = .error fault ∧ fault ≠ .malformed) ↔
      (compose text.toList = .error fault ∧ fault ≠ .malformed) ∨
        ∃ root g, compose text.toList = .ok (some root, g) ∧ Unmade g root fault := by
  unfold load
  cases hcompose : compose text.toList with
  | error f => simp [bind, Except.bind]
  | ok r =>
    obtain ⟨root?, g⟩ := r
    cases root? with
    | none => simp [bind, Except.bind]
    | some root => simp [bind, Except.bind, map_eq_error, construct_eq_error_iff]

end Yaml
end Subgraph
