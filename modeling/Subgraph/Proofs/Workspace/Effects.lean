import Subgraph.Proofs.Failure.Chain
import Subgraph.Schema.Basic

/-!
# `Workspace.Effects` — one workspace, changed as a program goes on

The functions on workspaces lead to another workspace or to a failure, and what a failure leaves behind
is no question for them. A program has one workspace and changes it as it goes: if it fails, what it has
done until then stays done. An `Effect` is such a program. Adding a directive and building a federated
schema are written out here statement by statement, each change where it happens.

Neither leaves anything behind when it fails (`addDirective_on`, `buildFederated_on`): it comes to what
the function gives, and to the workspace as it was if that is a failure. The reason is the order of the
statements, since none that can fail comes after the first that changes something.
-/

namespace Subgraph

/-- Programs on a workspace. A failure ends a program and keeps the changes made before it. -/
abbrev Effect (α : Type) := ExceptT Failure (StateM Workspace) α

namespace Effect

variable {α β : Type}

/-- What a program gives, and the workspace that it leaves. -/
def on (p : Effect α) (w : Workspace) : Except Failure α × Workspace := p.run.run w

/-- A computation that looks at no workspace. -/
def give (x : Except Failure α) : Effect α := ExceptT.mk (pure x)

/-! ## Statements -/

/-- An element is frozen. -/
def freeze (id : ElementId) : Effect Unit := modify fun w => w.freeze id

/-- A directive is put behind those of an element that is not frozen. -/
def append (id : ElementId) (d : Directive) : Effect Unit := do
  let a := (← get).annotations id
  if a.frozen then throw (.frozen d.name)
  modify fun w => w.setAnnotations id { a with directives := a.directives ++ [d] }

/-- A directive is attached to an element, behind the checks of the catalog. -/
def attach (id : ElementId) (d : Directive) : Effect Unit := do
  let w ← get
  match w.elements[id]? with
  | none => pure ()
  | some e =>
    let definition ← give ((w.catalog e.catalog).lookup d.name)
    if !definition.allows e.location then throw (.misplacedDirective d.name e.location)
    if !definition.repeatable && e.annotations.contains d.name then throw (.notRepeatable d.name)
    append id d

/-- A directive is read and attached to an element, and returned. -/
def addDirective (id : ElementId) (d : LooseDirective) : Effect Directive := do
  let d ← give d.read
  attach id d
  pure d

/-- A federated schema: the version is read, the host builds the schema, and its elements are frozen one
after the other. -/
def buildFederated (roots : Roots) (description : Option String) (version : Value)
    (catalog : Option CatalogId) : Effect Schema := do
  let target ← give (Target.initial version)
  let w ← get
  let s ← give
    (w.assemble roots description (some ⟨target, catalog.getD Workspace.standardCatalog⟩))
  forM (s.elements w.graph) freeze
  pure s

/-! ## Running -/

variable {w : Workspace}

/-- A statement that fails ends the program, with the workspace as it is by then. -/
theorem on_bind (p : Effect α) (f : α → Effect β) :
    (p >>= f).on w =
      match p.on w with
      | (.ok a, w') => (f a).on w'
      | (.error e, w') => (.error e, w') := by
  rw [on, on, ExceptT.run_bind, StateT.run_bind]
  cases p.run.run w with
  | mk x w' => cases x <;> rfl

theorem on_give (x : Except Failure α) : (give x).on w = (x, w) := rfl

theorem on_get : (get : Effect Workspace).on w = (.ok w, w) := rfl

/-- What a call leaves that does all or nothing: the new workspace with what it gives, or the failure
with the old one. -/
def atomic (w : Workspace) : Except Failure (Workspace × α) → Except Failure α × Workspace
  | .ok (w', a) => (.ok a, w')
  | .error f => (.error f, w)

theorem append_on {id : ElementId} {d : Directive} :
    (append id d).on w =
      atomic w (((w.annotations id).append d).map fun a => (w.setAnnotations id a, ())) := by
  unfold append Annotations.append
  simp only [on_bind, on_get]
  split
  · rfl
  · rfl

/-- Attaching does all or nothing. -/
theorem attach_on {id : ElementId} {d : Directive} :
    (attach id d).on w = atomic w ((w.attach id d).map fun w' => (w', ())) := by
  unfold attach Workspace.attach
  simp only [on_bind, on_get]
  cases he : w.elements[id]? with
  | none => rfl
  | some e =>
    dsimp only
    rw [on_bind, on_give]
    have hannotations : e.annotations = w.annotations id := by simp [Workspace.annotations, he]
    unfold Annotations.attach
    cases (w.catalog e.catalog).lookup d.name with
    | error f => rfl
    | ok definition =>
      dsimp only
      split
      · rfl
      · split
        · rfl
        · rw [append_on, hannotations]
          cases (w.annotations id).append d <;> rfl

/-- **Adding a directive does all or nothing.** -/
theorem addDirective_on {id : ElementId} {d : LooseDirective} :
    (addDirective id d).on w = atomic w (w.addDirective id d) := by
  unfold addDirective Workspace.addDirective
  rw [on_bind, on_give]
  cases d.read with
  | error f => rfl
  | ok d =>
    dsimp only
    rw [on_bind, attach_on, ok_bind]
    cases w.attach id d with
    | error f => rfl
    | ok w' => rfl

theorem forM_freeze_on (ids : List ElementId) :
    (forM ids freeze).on w = (.ok (), w.freezeAll ids) := by
  unfold Workspace.freezeAll
  induction ids generalizing w with
  | nil => rfl
  | cons id ids ih =>
    rw [List.forM_cons, on_bind]
    exact ih

/-- **Building a federated schema does all or nothing.** -/
theorem buildFederated_on {roots : Roots} {description : Option String} {version : Value}
    {catalog : Option CatalogId} :
    (buildFederated roots description version catalog).on w =
      atomic w (w.buildFederated roots description version catalog) := by
  unfold buildFederated Workspace.buildFederated
  rw [on_bind, on_give]
  cases Target.initial version with
  | error f => rfl
  | ok target =>
    simp only [on_bind, on_get, on_give]
    cases w.assemble roots description (some ⟨target, catalog.getD Workspace.standardCatalog⟩) with
    | error f => rfl
    | ok s =>
      simp only [forM_freeze_on]
      rfl

end Effect
end Subgraph
