import Subgraph.Proofs.Workspace.Growth
import Subgraph.Sdl.Document

/-!
# `Session.Runs` — programs that build schemas and go on

A program shares catalogs, elements and types between the schemas that it builds, and goes on using all
of them afterwards: it attaches directives, constructs elements, declares types, builds further
schemas, chooses versions and prints. A `Session` is what it holds in between, and a `Call` is one of
these things, done in any order. As with the calls of a workspace, a call can only name what is there,
and one that fails changes nothing.

Two facts carry all others. Every session that a run reaches is `WellFormed` (`Reachable.wellFormed`):
its annotations are in order with their catalogs, nothing refers outside, and its federated schemas are
frozen. And every session comes `Later` than those before it (`Reachable.later`): what was frozen is the
same, and a schema keeps its contents.
-/

namespace Subgraph

/-- What a program holds: what its schemas share, and the schemas in the order of their building. -/
structure Session where
  workspace : Workspace := {}
  schemas : Array Schema := #[]

/-- The index of a schema in a session. -/
abbrev SchemaId := Nat

/-- A call of a program that builds schemas. Types are declared in blocks, with their fields, so that the
types of a block can refer to one another. -/
inductive Call where
  | act (a : Action)
  | declare (types : List TypeDef)
  | buildFederated (roots : Roots) (description : Option String) (version : Value)
      (catalog : Option CatalogId)
  | buildPlain (roots : Roots) (description : Option String)
  | choose (schema : SchemaId) (version : Value)
  | print (schema : SchemaId) (catalog : Option Catalog) (version : Option Version)

namespace Session

/-- The session after a call that succeeds. -/
def perform (st : Session) : Call → Except Failure Session
  | .act a => (st.workspace.perform a).map fun w => { st with workspace := w }
  | .declare ts =>
    .ok { st with workspace := { st.workspace with graph := st.workspace.graph.addTypes ts } }
  | .buildFederated roots description version catalog =>
    (st.workspace.buildFederated roots description version catalog).map fun p =>
      ⟨p.1, st.schemas.push p.2⟩
  | .buildPlain roots description =>
    (st.workspace.buildPlain roots description).map fun s =>
      { st with schemas := st.schemas.push s }
  | .choose id version =>
    match st.schemas[id]? with
    | none => .ok st
    | some s => (s.choose version).map fun s' =>
        { st with schemas := st.schemas.setIfInBounds id s' }
  | .print id catalog version =>
    match st.schemas[id]? with
    | none => .ok st
    | some s => (Sdl.federationDocument st.workspace s catalog version).map fun _ => st

/-- Whether everything that a schema is built from is there. -/
def hasRoots (st : Session) (roots : Roots) : Bool :=
  (roots.starts ++ roots.extra).all (· < st.workspace.graph.types.size)

/-- Whether the types and elements that a type of a block names are there, the types of the block
included. -/
def hasParts (st : Session) (block : Nat) (t : TypeDef) : Bool :=
  t.referenced.all (· < st.workspace.graph.types.size + block) &&
    t.parts.all fun part => part.element.all (· < st.workspace.elements.size)

/-- Whether everything that a call names is there. -/
def canName (st : Session) : Call → Bool
  | .act a => st.workspace.canName a
  | .declare ts => ts.all (st.hasParts ts.length)
  | .buildFederated roots _ _ catalog =>
    st.hasRoots roots && catalog.all (· < st.workspace.catalogs.size)
  | .buildPlain roots _ => st.hasRoots roots
  | .choose id _ | .print id _ _ => id < st.schemas.size

/-- The session after a call, whether it succeeds or fails. -/
def after (st : Session) (c : Call) : Session :=
  if st.canName c then (st.perform c).toOption.getD st else st

/-- The session after a sequence of calls. -/
def run (st : Session) (calls : List Call) : Session := calls.foldl after st

/-! ## The invariant and the order -/

/-- Annotations are in order with their catalogs, nothing refers outside, and the workspace holds every
schema. -/
structure WellFormed (st : Session) : Prop where
  sound : st.workspace.Sound
  closed : st.workspace.Closed
  holds : ∀ (id : SchemaId) (s : Schema), st.schemas[id]? = some s → st.workspace.Holds s

/-- `st'` comes after `st`: its workspace does, and every schema has kept its contents. -/
structure Later (st st' : Session) : Prop where
  workspace : st.workspace.Later st'.workspace
  schemas : ∀ (id : SchemaId) (s : Schema), st.schemas[id]? = some s →
    ∃ s', st'.schemas[id]? = some s' ∧ s'.contents = s.contents

variable {st st' st'' : Session}

theorem Later.refl (st : Session) : st.Later st where
  workspace := .refl _
  schemas := fun _ s hs => ⟨s, hs, rfl⟩

theorem Later.trans (h : st.Later st') (h' : st'.Later st'') : st.Later st'' where
  workspace := h.workspace.trans h'.workspace
  schemas := by
    intro id s hs
    obtain ⟨s₁, hs₁, hsame₁⟩ := h.schemas id s hs
    obtain ⟨s₂, hs₂, hsame₂⟩ := h'.schemas id s₁ hs₁
    exact ⟨s₂, hs₂, hsame₂.trans hsame₁⟩

/-- At first there is no schema and no element. -/
theorem initial_wellFormed : WellFormed {} where
  sound := Workspace.initial_sound
  closed := Workspace.initial_closed
  holds := fun id s hs => absurd hs (by simp)

/-! ## Steps -/

/-- A session whose schemas stay the same comes later if its workspace does. -/
theorem later_of_workspace {w : Workspace} (hw : st.workspace.Later w) :
    st.Later { st with workspace := w } where
  workspace := hw
  schemas := fun _ s hs => ⟨s, hs, rfl⟩

/-- The schemas of a session are held by every later workspace. -/
theorem WellFormed.with_workspace (h : st.WellFormed) {w : Workspace}
    (hw : st.workspace.Later w) (hsound : w.Sound) (hclosed : w.Closed) :
    WellFormed { st with workspace := w } where
  sound := hsound
  closed := hclosed
  holds := fun id s hs => (h.holds id s hs).later hw

/-- One more schema leaves the others where they are. -/
theorem later_of_push {w : Workspace} (hw : st.workspace.Later w) (s : Schema) :
    st.Later ⟨w, st.schemas.push s⟩ where
  workspace := hw
  schemas := by
    intro id s₁ hs₁
    have hlt : id < st.schemas.size := (Array.getElem?_eq_some_iff.mp hs₁).1
    refine ⟨s₁, ?_, rfl⟩
    rw [Array.getElem?_push, if_neg (Nat.ne_of_lt hlt)]
    exact hs₁

theorem WellFormed.push (h : st.WellFormed) {s : Schema} (hs : st.workspace.Holds s) :
    WellFormed { st with schemas := st.schemas.push s } where
  sound := h.sound
  closed := h.closed
  holds := by
    intro id s₁ hs₁
    rw [Array.getElem?_push] at hs₁
    split at hs₁
    · injection hs₁ with hs₁
      exact hs₁ ▸ hs
    · exact h.holds id s₁ hs₁

/-- A schema in whose place stands one of the same contents. -/
theorem later_of_set {id : SchemaId} {s s' : Schema} (hs : st.schemas[id]? = some s)
    (hsame : s'.contents = s.contents) :
    st.Later { st with schemas := st.schemas.setIfInBounds id s' } where
  workspace := .refl _
  schemas := by
    intro k s₁ hs₁
    rw [Array.getElem?_setIfInBounds]
    by_cases hk : id = k
    · subst hk
      have hlt : id < st.schemas.size := (Array.getElem?_eq_some_iff.mp hs).1
      rw [hs] at hs₁
      injection hs₁ with hs₁
      exact ⟨s', by simp [hlt], hs₁ ▸ hsame⟩
    · exact ⟨s₁, by rw [if_neg hk]; exact hs₁, rfl⟩

theorem WellFormed.set (h : st.WellFormed) {id : SchemaId} {s' : Schema}
    (hs' : st.workspace.Holds s') :
    WellFormed { st with schemas := st.schemas.setIfInBounds id s' } where
  sound := h.sound
  closed := h.closed
  holds := by
    intro k s₁ hs₁
    rw [Array.getElem?_setIfInBounds] at hs₁
    split at hs₁
    · split at hs₁
      · injection hs₁ with hs₁
        exact hs₁ ▸ hs'
      · exact absurd hs₁ (by simp)
    · exact h.holds k s₁ hs₁

/-- What a schema is built from is in the graph. -/
theorem has_of_hasRoots {roots : Roots} (h : st.hasRoots roots = true) :
    (∀ k ∈ roots.starts, st.workspace.graph.Has k) ∧
      ∀ k ∈ roots.extra, st.workspace.graph.Has k := by
  unfold hasRoots at h
  rw [List.all_eq_true] at h
  have hall : ∀ k ∈ roots.starts ++ roots.extra, st.workspace.graph.Has k := by
    intro k hk
    exact TypeGraph.has_iff_lt.mpr (by simpa using h k hk)
  exact ⟨fun k hk => hall k (List.mem_append_left _ hk),
    fun k hk => hall k (List.mem_append_right _ hk)⟩

/-- Declaring a block of types that names what is there keeps a workspace closed. -/
theorem declare_closed (h : st.workspace.Closed) {ts : List TypeDef}
    (hts : ts.all (st.hasParts ts.length) = true) :
    Workspace.Closed { st.workspace with graph := st.workspace.graph.addTypes ts } := by
  rw [List.all_eq_true] at hts
  refine ⟨TypeGraph.addTypes_closed h.graph fun t ht k hk => ?_,
    fun id t ht part hpart e he => ?_⟩
  · have hparts := hts t ht
    rw [hasParts, Bool.and_eq_true, List.all_eq_true] at hparts
    simpa using hparts.1 k (TypeDef.mem_referenced.mpr hk)
  · rcases TypeGraph.type?_addTypes ht with hold | hnew
    · exact h.parts id t hold part hpart e he
    · have hparts := hts t hnew
      rw [hasParts, Bool.and_eq_true, List.all_eq_true, List.all_eq_true] at hparts
      have hpart' := hparts.2 part hpart
      rw [he] at hpart'
      simpa using hpart'

/-- Freezing changes no catalog, no type and no count. -/
theorem freezeAll_closed {w : Workspace} (h : w.Closed) (ids : List ElementId) :
    (w.freezeAll ids).Closed :=
  h.of_graph_eq (Workspace.freezeAll_graph w ids)
    (Nat.le_of_eq (Workspace.freezeAll_size w ids).symm)

/-- Printing changes nothing. -/
theorem perform_print {id : SchemaId} {catalog : Option Catalog} {version : Option Version}
    (hp : st.perform (.print id catalog version) = .ok st') : st' = st := by
  cases hs : st.schemas[id]? with
  | none =>
    rw [perform, hs] at hp
    injection hp with hp
    exact hp.symm
  | some s =>
    rw [perform, hs] at hp
    obtain ⟨text, -, hp⟩ := map_eq_ok.mp hp
    exact hp.symm

/-- **What a call that succeeds leads to:** a session that is well-formed, and later. -/
theorem perform_step (h : st.WellFormed) {c : Call} (hn : st.canName c = true)
    (hp : st.perform c = .ok st') : st'.WellFormed ∧ st.Later st' := by
  cases c with
  | act a =>
    obtain ⟨w, hw, rfl⟩ := map_eq_ok.mp hp
    have hlater : st.workspace.Later w := Workspace.perform_later hw
    obtain ⟨-, hgraph⟩ := Workspace.perform_change hw
    have hclosed : w.Closed := h.closed.of_graph_eq hgraph hlater.elements
    have hsound : w.Sound := Workspace.perform_sound h.sound hn hw
    exact ⟨h.with_workspace hlater hsound hclosed, later_of_workspace hlater⟩
  | declare ts =>
    injection hp with hp
    subst hp
    have hlater := Workspace.later_of_graph (TypeGraph.addTypes_extends st.workspace.graph ts)
    -- neither elements nor catalogs are touched
    have hsound : Workspace.Sound
        { st.workspace with graph := st.workspace.graph.addTypes ts } :=
      h.sound.of_catalogs rfl fun id hid => ⟨hid, Catalog.Keeps.refl _⟩
    exact ⟨h.with_workspace hlater hsound (declare_closed h.closed hn), later_of_workspace hlater⟩
  | buildFederated roots description version catalog =>
    obtain ⟨⟨w, s⟩, hb, rfl⟩ := map_eq_ok.mp hp
    rw [canName, Bool.and_eq_true] at hn
    obtain ⟨hstarts, hextra⟩ := has_of_hasRoots hn.1
    have hholds : w.Holds s := Workspace.buildFederated_holds h.closed hstarts hextra hb
    obtain ⟨-, rfl⟩ := Workspace.buildFederated_eq_ok hb
    have hlater := Workspace.freezeAll_later st.workspace (s.elements st.workspace.graph)
    have hfrozen := h.with_workspace hlater (Workspace.freezeAll_sound h.sound _)
      (freezeAll_closed h.closed _)
    exact ⟨hfrozen.push hholds, later_of_push hlater s⟩
  | buildPlain roots description =>
    obtain ⟨s, hb, rfl⟩ := map_eq_ok.mp hp
    obtain ⟨hstarts, hextra⟩ := has_of_hasRoots hn
    exact ⟨h.push (Workspace.buildPlain_holds hstarts hextra hb), later_of_push (.refl _) s⟩
  | choose id version =>
    cases hs : st.schemas[id]? with
    | none =>
      rw [perform, hs] at hp
      injection hp with hp
      exact hp ▸ ⟨h, .refl _⟩
    | some s =>
      rw [perform, hs] at hp
      obtain ⟨s', hchoose, rfl⟩ := map_eq_ok.mp hp
      obtain ⟨hsame, hfed⟩ := Schema.choose_contents hchoose
      have hholds : st.workspace.Holds s' := (h.holds id s hs).of_contents hsame hfed
      exact ⟨h.set hholds, later_of_set hs hsame⟩
  | print id catalog version =>
    obtain rfl : st' = st := perform_print hp
    exact ⟨h, .refl _⟩

/-! ## Runs -/

/-- A call leaves a session as it is, or to what it leads to when it succeeds. -/
theorem after_cases (st : Session) (c : Call) : st.after c = st ∨ st.perform c = .ok (st.after c) := by
  unfold after
  split
  · cases hp : st.perform c with
    | error f => exact Or.inl rfl
    | ok st' => exact Or.inr rfl
  · exact Or.inl rfl

/-- A call that fails leaves a session as it is. -/
theorem after_of_error {c : Call} {f : Failure} (h : st.perform c = .error f) : st.after c = st := by
  rcases st.after_cases c with hsame | hok
  · exact hsame
  · exact absurd (h.symm.trans hok) (by simp)

theorem after_step (h : st.WellFormed) (c : Call) :
    (st.after c).WellFormed ∧ st.Later (st.after c) := by
  unfold after
  split
  · next hn =>
    cases hp : st.perform c with
    | error f => exact ⟨h, .refl _⟩
    | ok st' => exact perform_step h hn hp
  · exact ⟨h, .refl _⟩

/-- **A whole run** keeps the invariant, and leads to a later session. -/
theorem run_step (h : st.WellFormed) (calls : List Call) :
    (st.run calls).WellFormed ∧ st.Later (st.run calls) := by
  unfold run
  induction calls generalizing st with
  | nil => exact ⟨h, .refl _⟩
  | cons c calls ih =>
    obtain ⟨hc, hlater⟩ := after_step h c
    obtain ⟨hrun, hrest⟩ := ih hc
    exact ⟨hrun, hlater.trans hrest⟩

/-- A session that a program can reach. -/
def Reachable (st : Session) : Prop := ∃ calls, run {} calls = st

/-- **The invariant holds in every session that can be reached.** -/
theorem Reachable.wellFormed (h : st.Reachable) : st.WellFormed := by
  obtain ⟨calls, rfl⟩ := h
  exact (run_step initial_wellFormed calls).1

/-- Calls that follow lead to a later session. -/
theorem Reachable.later (h : st.Reachable) (calls : List Call) : st.Later (st.run calls) :=
  (run_step h.wellFormed calls).2

end Session
end Subgraph
