import Subgraph.Files.Tree
import Subgraph.Proofs.Failure.Chain

/-!
# `Files.Tree` — what a delivery leaves

A text is delivered in two steps: the directories around its place are made, and the text is set there.
The first step changes no file (`contents_of_makeDirectories`). The second one changes one: where a path leads
to a file or to a place for one, it leads to this file with the text in it once that is set
(`resolve_setFile`), since no directory is added or taken away.

So whether a path can be written to does not depend on the text (`writable_iff`), and after a delivery the
path leads to the whole text while every other file is as before (`Writable.deliver`).
-/

namespace Subgraph.FileTree

variable {t t' : FileTree} {names other : List String} {content : FileContent} {p : Path} {spot : Spot}

/-! ## Setting a file -/

/-- A file that is set is there. -/
theorem content?_setFile_self : (t.setFile names content).content? names = some content := by
  rw [content?, setFile, List.lookup_append, lookup_filter_ne, if_pos rfl, Option.none_or]
  exact List.lookup_cons_self

/-- Every other file stays. -/
theorem content?_setFile_of_ne (h : other ≠ names) :
    (t.setFile names content).content? other = t.content? other := by
  have hlast : [(names, content)].lookup other = none := by
    rw [List.lookup_cons, beq_false_of_ne h]
    rfl
  rw [content?, setFile, List.lookup_append, lookup_filter_ne, if_neg h, hlast, Option.or_none]
  rfl

/-- The names of a file or of a place for one. -/
def Spot.place? : Spot → Option (List String)
  | .file names _ | .vacant names => some names
  | .directory _ => none

/-- **Names that lead to a file or to a place for one** lead to the file once it is set. -/
theorem walk_setFile {here parts : List String} (h : t.walk here parts = .ok spot)
    (hplace : spot.place? = some names) :
    (t.setFile names content).walk here parts = .ok (.file names content) := by
  -- the directories are the same, so both walks take the same way
  fun_induction walk t here parts with
  | case1 here =>
    obtain rfl : .directory here = spot := Except.ok.inj h
    exact absurd hplace (by simp [Spot.place?])
  | case2 => exact absurd h (by simp)
  | case3 here part parts there hlong hdirectory ih =>
    rw [walk, if_neg hlong]
    exact (if_pos hdirectory).trans (ih h)
  | case4 here part parts there hlong hdirectory c hc hlast =>
    obtain rfl : .file there c = spot := Except.ok.inj h
    obtain rfl : there = names := Option.some.inj hplace
    rw [walk, if_neg hlong]
    refine (if_neg hdirectory).trans ?_
    rw [content?_setFile_self]
    exact if_pos hlast
  | case5 => exact absurd h (by simp)
  | case6 here part parts there hlong hdirectory hvacant hlast =>
    obtain rfl : .vacant there = spot := Except.ok.inj h
    obtain rfl : there = names := Option.some.inj hplace
    rw [walk, if_neg hlong]
    refine (if_neg hdirectory).trans ?_
    rw [content?_setFile_self]
    exact if_pos hlast
  | case7 => exact absurd h (by simp)

/-- A path that leads to a file or to a place for one leads to the file once it is set. -/
theorem resolve_setFile (h : t.resolve p = .ok spot) (hplace : spot.place? = some names) :
    (t.setFile names content).resolve p = .ok (.file names content) := by
  rw [resolve] at h ⊢
  cases hnames : p.checkNames with
  | error f =>
    rw [hnames] at h
    exact absurd h (by simp)
  | ok =>
    rw [hnames] at h
    exact walk_setFile h hplace

/-! ## Making directories -/

/-- A directory that is made changes no file. -/
theorem contents_of_makeDirectory (h : t.makeDirectory p = .ok t') : t'.contents = t.contents := by
  unfold makeDirectory at h
  split at h
  · rw [Except.ok.inj h]
  · next names _ =>
    rw [← Except.ok.inj h, addDirectory]
    split <;> rfl
  · exact absurd h (by simp)
  · exact absurd h (by simp)

/-- **Directories that are made change no file.** -/
theorem contents_of_makeDirectories {root : String} {parts : List String}
    (h : t.makeDirectories root parts = .ok t') : t'.contents = t.contents := by
  fun_induction makeDirectories t root parts generalizing t' with
  | case1 => exact absurd h (by simp)
  | case2 parts hmissing hne ih =>
    -- what they lie in is made before them
    obtain ⟨t₁, hmade, h⟩ := bind_eq_ok.mp h
    rw [contents_of_makeDirectory h, ih hmade]
  | case3 => exact contents_of_makeDirectory h

/-! ## Deliveries -/

/-- A text can be delivered to the path. -/
def Writable (t : FileTree) (p : Path) : Prop := ∃ s t', t.deliver p s = .ok t'

/-- A text is written where a path leads to a file or to a place for one. -/
theorem writeFile_eq_ok_iff {s : String} :
    t.writeFile p s = .ok t' ↔
      ∃ spot names, t.resolve p = .ok spot ∧ spot.place? = some names ∧
        t' = t.setFile names (.text s) := by
  unfold writeFile
  cases t.resolve p with
  | error f => simp
  | ok spot => cases spot <;> simp [Spot.place?, eq_comm]

/-- **Whether a path can be written to does not depend on the text**: the directories around it can be made,
and then it leads to a file or to a place for one. -/
theorem writable_iff :
    t.Writable p ↔ ∃ t₁ spot names, t.makeDirectories p.root p.parent.parts = .ok t₁ ∧
      t₁.resolve p = .ok spot ∧ spot.place? = some names := by
  constructor
  · rintro ⟨s, t', h⟩
    obtain ⟨t₁, hmade, hwritten⟩ := bind_eq_ok.mp h
    obtain ⟨spot, names, hresolved, hplace, -⟩ := writeFile_eq_ok_iff.mp hwritten
    exact ⟨t₁, spot, names, hmade, hresolved, hplace⟩
  · rintro ⟨t₁, spot, names, hmade, hresolved, hplace⟩
    refine ⟨"", t₁.setFile names (.text ""), ?_⟩
    rw [deliver, hmade, ok_bind, writeFile_eq_ok_iff]
    exact ⟨spot, names, hresolved, hplace, rfl⟩

/-- **A path that can be written to leads to the whole text** after its delivery, and every other file is as
before. -/
theorem Writable.deliver (h : t.Writable p) (s : String) :
    ∃ t' names, t.deliver p s = .ok t' ∧ t'.resolve p = .ok (.file names (.text s)) ∧
      ∀ other, other ≠ names → t'.content? other = t.content? other := by
  obtain ⟨t₁, spot, names, hmade, hresolved, hplace⟩ := writable_iff.mp h
  refine ⟨t₁.setFile names (.text s), names, ?_, resolve_setFile hresolved hplace, fun other hne => ?_⟩
  · rw [FileTree.deliver, hmade, ok_bind, writeFile_eq_ok_iff]
    exact ⟨spot, names, hresolved, hplace, rfl⟩
  · rw [content?_setFile_of_ne hne, content?, contents_of_makeDirectories hmade]
    rfl

end Subgraph.FileTree
