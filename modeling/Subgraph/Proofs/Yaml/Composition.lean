import Subgraph.Proofs.Yaml.Tokens
import Subgraph.Yaml.Node

/-!
# `Yaml.Node` — a text makes up a document or is refused

Reading a document from a scan fails in three ways: what the tokens make up is no document, a token fails
at a place that the scan comes to, or the nodes are inside one another deeper than there is room for
(`compose_ofDocument`). `Reads` is that property of a step, together with the scan going on; it is closed under
the ways in which steps are put together. The readers of the collections are given that of the nodes
inside, so each has the property if that one has it, by induction on its parts; a node has it by induction
on the room.
-/

namespace Subgraph
namespace Yaml

/-- Why no document is read from a scan. -/
def Stops (s : Scan) (fault : Fault) : Prop := s.Meets fault ∨ fault = .misuse .deepNesting

namespace Composing

variable {α β : Type} {s : Scan}

/-! ## Steps -/

/-- A step that goes on in a scan and, if it fails, fails as reading a document from it may. -/
def Reads (s : Scan) (x : Composing α) : Prop :=
  ∀ c, s.Goes c.scan → Ends (Stops s) (fun r => s.Goes r.2.scan) (x c)

/-- What is no document is refused as malformed. -/
theorem refuse_reads : Reads s (refuse : Composing α) := fun _ _ => .error (Or.inl (Or.inl rfl))

namespace Reads

theorem pure (a : α) : Reads s (Pure.pure a : Composing α) := fun _ h => .ok h

/-- A step and then another, whatever the first one gives. -/
theorem bind {x : Composing α} {f : α → Composing β} (hx : Reads s x) (hf : ∀ a, Reads s (f a)) :
    Reads s (x >>= f) :=
  fun c h => (hx c h).bind fun r hr => hf r.1 r.2 hr

theorem map {x : Composing α} (hx : Reads s x) (f : α → β) : Reads s (f <$> x) :=
  fun c h => (hx c h).bind fun _ hr => .ok hr

theorem ite {c : Prop} [Decidable c] {x y : Composing α} (hx : Reads s x) (hy : Reads s y) :
    Reads s (if c then x else y) := by
  split
  · exact hx
  · exact hy

theorem get : Reads s (MonadState.get : Composing Composition) := fun _ h => .ok h

/-- The short forms for tags are no part of the scan. -/
theorem handles (f : Composition → List (String × String)) :
    Reads s (modify fun c => { c with handles := f c }) := fun _ h => .ok h

end Reads

/-- The next token is found by reading on. -/
theorem peek_reads : Reads s peek := by
  intro c h
  unfold peek
  have hsupply := Scan.supply_ends h
  cases hscan : c.scan.supply with
  | error fault => exact .error (Or.inl (hsupply.1 fault hscan))
  | ok scan => exact .ok (hsupply.2 scan hscan)

/-- Passing a token does not fail. -/
theorem pass_reads : Reads s pass := fun _ h => .ok h.taken

theorem passIf_reads (t : Token) : Reads s (passIf t) :=
  peek_reads.bind fun _ => .ite (pass_reads.bind fun _ => .pure _) (.pure _)

theorem atOne_reads (ts : List Token) : Reads s (atOne ts) := by
  refine peek_reads.bind fun t => ?_
  cases t with
  | some t => exact .pure _
  | none => exact .pure _

/-! ## Nodes, anchors and tags -/

theorem add_reads (n : Node) : Reads s (add n) := fun _ h => .ok h

theorem absent_reads : Reads s absent := add_reads _

/-- A new node is no part of the scan, nor is its anchor. -/
theorem addUnder_reads (anchor : Option String) (n : Node) : Reads s (addUnder anchor n) := by
  refine (add_reads n).bind fun id => ?_
  cases anchor with
  | some name => exact fun _ h => .ok h
  | none => exact .pure _

theorem complete_reads (id : NodeId) (body : NodeBody) : Reads s (complete id body) :=
  fun _ h => .ok h

/-- A collection fails on what is inside. -/
theorem collection_reads (anchor : Option String) (tag : Tag) {body : Composing NodeBody}
    (hbody : Reads s body) : Reads s (collection anchor tag body) :=
  (addUnder_reads _ _).bind fun _ => hbody.bind fun _ => (complete_reads _ _).bind fun _ => .pure _

/-- An alias without an anchor is refused. -/
theorem referred_reads (name : String) : Reads s (referred name) := by
  refine Reads.get.bind fun c => ?_
  split
  · exact .pure _
  · exact refuse_reads

/-- An anchor that stands twice is refused. -/
theorem checkNew_reads (anchor : Option String) : Reads s (checkNew anchor) :=
  Reads.get.bind fun _ => .ite refuse_reads (.pure _)

/-- A tag with an unknown handle is refused. -/
theorem tagName_reads (handle : Option String) (suffix : String) : Reads s (tagName handle suffix) := by
  unfold tagName
  cases handle with
  | none => exact .pure _
  | some handle =>
    refine Reads.get.bind fun c => ?_
    split
    · exact .pure _
    · exact refuse_reads

/-- An anchor in front of a node is not looked up yet. -/
theorem anchor?_reads : Reads s anchor? := by
  refine peek_reads.bind fun t => ?_
  split
  · exact pass_reads.bind fun _ => .pure _
  · exact .pure _

theorem tag?_reads : Reads s tag? := by
  refine peek_reads.bind fun t => ?_
  split
  · exact pass_reads.bind fun _ => .pure _
  · exact .pure _

/-- In front of a node only the handle of its tag may be refused. -/
theorem properties_reads : Reads s properties := by
  unfold properties
  refine anchor?_reads.bind fun early => tag?_reads.bind fun written => ?_
  extract_lets named
  have hnamed : ∀ late, Reads s (named late) := by
    intro late
    dsimp only [named]
    split
    · exact ((tagName_reads _ _).map _).bind fun _ => .pure _
    · exact (Reads.pure _).bind fun _ => .pure _
  exact .ite (anchor?_reads.bind hnamed) ((Reads.pure _).bind hnamed)

theorem leftOut_reads (anchor name : Option String) : Reads s (leftOut anchor name) :=
  .ite refuse_reads (addUnder_reads _ _)

/-! ## What is inside -/

section Inside

variable {inner : Position → Composing NodeId} (hinner : ∀ position, Reads s (inner position))

include hinner

/-- Where a node may be left out, only the one that is there may fail. -/
theorem nodeUnless_reads (stop : List Token) (position : Position) :
    Reads s (nodeUnless inner stop position) :=
  (atOne_reads _).bind fun _ => .ite absent_reads (hinner _)

theorem valueUnless_reads (stop : List Token) (position : Position) :
    Reads s (valueUnless inner stop position) :=
  (passIf_reads _).bind fun _ => .ite (nodeUnless_reads hinner _ _) absent_reads

/-- The items of a block sequence fail as the nodes inside do, or where neither an item nor the end
follows. -/
theorem blockItems_reads (fuel : Nat) : Reads s (blockItems inner fuel) := by
  induction fuel with
  | zero => exact refuse_reads
  | succ fuel ih =>
    refine (passIf_reads _).bind fun entry => .ite ?_ ?_
    · exact (nodeUnless_reads hinner _ _).bind fun _ => ih.bind fun _ => .pure _
    · exact (passIf_reads _).bind fun _ => .ite (.pure _) refuse_reads

theorem indentlessItems_reads (fuel : Nat) : Reads s (indentlessItems inner fuel) := by
  induction fuel with
  | zero => exact refuse_reads
  | succ fuel ih =>
    refine (passIf_reads _).bind fun entry => .ite ?_ (.pure _)
    exact (nodeUnless_reads hinner _ _).bind fun _ => ih.bind fun _ => .pure _

/-- The entries of a block mapping fail as the nodes inside do, or where neither a key nor the end
follows. -/
theorem blockEntries_reads (fuel : Nat) : Reads s (blockEntries inner fuel) := by
  induction fuel with
  | zero => exact refuse_reads
  | succ fuel ih =>
    refine (passIf_reads _).bind fun _ => .ite (.pure _) ?_
    refine (passIf_reads _).bind fun _ => .ite ?_ refuse_reads
    refine (nodeUnless_reads hinner _ _).bind fun key => ?_
    exact (valueUnless_reads hinner _ _).bind fun value => ih.bind fun _ => .pure _

omit hinner in
/-- Two parts of a flow collection without a mark between them are refused. -/
theorem separator_reads (first : Bool) : Reads s (separator first) :=
  .ite (.pure _) ((passIf_reads _).bind fun _ => .ite (.pure _) refuse_reads)

/-- The items of a flow sequence, by induction on how many may come: an item that starts with the mark of a
key is a pair. -/
theorem flowItems_reads (fuel : Nat) (first : Bool) : Reads s (flowItems inner fuel first) := by
  induction fuel generalizing first with
  | zero => exact refuse_reads
  | succ fuel ih =>
    have hitem (position : Position) : Reads s (inner position >>= fun item =>
        flowItems inner fuel false >>= fun items => Pure.pure (item :: items)) :=
      (hinner position).bind fun _ => (ih false).bind fun _ => .pure _
    refine (passIf_reads _).bind fun _ => .ite (.pure _) ((separator_reads _).bind fun _ => ?_)
    refine (atOne_reads _).bind fun _ => .ite (hitem .pair) ?_
    exact (passIf_reads _).bind fun _ => .ite (.pure _) (hitem .flow)

/-- The entries of a flow mapping fail as the nodes inside do, or on a missing mark between two. -/
theorem flowEntries_reads (fuel : Nat) (first : Bool) : Reads s (flowEntries inner fuel first) := by
  induction fuel generalizing first with
  | zero => exact refuse_reads
  | succ fuel ih =>
    refine (passIf_reads _).bind fun _ => .ite (.pure _) ((separator_reads _).bind fun _ => ?_)
    refine (passIf_reads _).bind fun _ => .ite ?_ ?_
    · refine (nodeUnless_reads hinner _ _).bind fun key => ?_
      exact (valueUnless_reads hinner _ _).bind fun value => (ih false).bind fun _ => .pure _
    · refine (passIf_reads _).bind fun _ => .ite (.pure _) ?_
      exact (hinner _).bind fun _ => absent_reads.bind fun _ => (ih false).bind fun _ => .pure _

theorem pairEntry_reads : Reads s (pairEntry inner) :=
  pass_reads.bind fun _ => (nodeUnless_reads hinner _ _).bind fun _ =>
    (valueUnless_reads hinner _ _).bind fun _ => .pure _

/-- Behind its anchor and its tag a node is a scalar, one of the four collections, or left out. -/
theorem content_reads (fuel : Nat) (position : Position) (anchor name : Option String) :
    Reads s (content inner fuel position anchor name) := by
  refine peek_reads.bind fun t => (checkNew_reads _).bind fun _ => ?_
  split
  · exact .ite (collection_reads _ _ ((indentlessItems_reads hinner _).map _)) (leftOut_reads _ _)
  · exact pass_reads.bind fun _ => addUnder_reads _ _
  · exact pass_reads.bind fun _ => collection_reads _ _ ((flowItems_reads hinner _ _).map _)
  · exact pass_reads.bind fun _ => collection_reads _ _ ((flowEntries_reads hinner _ _).map _)
  · refine .ite (pass_reads.bind fun _ => ?_) (leftOut_reads _ _)
    exact collection_reads _ _ ((blockItems_reads hinner _).map _)
  · refine .ite (pass_reads.bind fun _ => ?_) (leftOut_reads _ _)
    exact collection_reads _ _ ((blockEntries_reads hinner _).map _)
  · exact leftOut_reads _ _

end Inside

/-! ## Nodes -/

/-- **A node fails as reading a document may**: without room it is nested too deep, and else it is read
with the nodes inside, which have less room. -/
theorem node_reads (fuel room : Nat) (position : Position) : Reads s (node fuel room position) := by
  induction room generalizing position with
  | zero => exact fun _ _ => .error (Or.inr rfl)
  | succ room ih =>
    refine .ite (collection_reads _ _ ((pairEntry_reads ih).map _)) (peek_reads.bind fun t => ?_)
    split
    · exact pass_reads.bind fun _ => referred_reads _
    · exact properties_reads.bind fun _ => content_reads ih _ _ _ _

/-! ## Documents -/

/-- The instructions before a document are refused if there is a second version or a handle a second
time. -/
theorem instructions_reads (fuel : Nat) (versionSeen : Bool) :
    Reads s (instructions fuel versionSeen) := by
  induction fuel generalizing versionSeen with
  | zero => exact refuse_reads
  | succ fuel ih =>
    refine peek_reads.bind fun t => ?_
    split
    · refine pass_reads.bind fun _ => ?_
      split
      · exact .ite refuse_reads (ih _)
      · refine Reads.get.bind fun _ => .ite refuse_reads ?_
        exact (Reads.handles _).bind fun _ => ih _
      · exact ih _
    · exact .pure _

/-- The marks at the end of a document are passed, as many as there may be. -/
theorem passEnds_reads (fuel : Nat) : Reads s (passEnds fuel) := by
  induction fuel with
  | zero => exact refuse_reads
  | succ fuel ih => exact (passIf_reads _).bind fun _ => .ite ih (.pure _)

theorem rootBehindStart_reads (fuel : Nat) : Reads s (rootBehindStart fuel) := by
  refine peek_reads.bind fun t => ?_
  split <;> first | exact absent_reads | exact node_reads _ _ _

/-- A document that has instructions must have the mark of its start. -/
theorem explicitRoot_reads (fuel : Nat) : Reads s (explicitRoot fuel) := by
  refine (instructions_reads _ _).bind fun _ => (Reads.handles _).bind fun _ => ?_
  exact (passIf_reads _).bind fun _ => .ite (rootBehindStart_reads _) refuse_reads

theorem root_reads (fuel : Nat) : Reads s (root fuel) := by
  have himplicit : Reads s (modify (fun c => { c with handles := commonHandles }) >>= fun _ =>
      node fuel nodeRoom .block) :=
    (Reads.handles _).bind fun _ => node_reads _ _ _
  refine peek_reads.bind fun t => ?_
  split
  · exact explicitRoot_reads _
  · exact explicitRoot_reads _
  · exact himplicit

/-- Another document is refused, after what comes up in its instructions. -/
theorem ending_reads (fuel : Nat) : Reads s (ending fuel) := by
  refine (passEnds_reads _).bind fun _ => (atOne_reads _).bind fun _ => .ite (.pure _) ?_
  refine (Reads.handles _).bind fun _ => ?_
  exact (instructions_reads _ _).bind fun _ => refuse_reads

/-- **A document is read from a scan, or what is wrong with it is met.** -/
theorem document_reads (fuel : Nat) : Reads s (document fuel) :=
  (atOne_reads _).bind fun _ => .ite (.pure _)
    ((root_reads _).bind fun _ => (ending_reads _).bind fun _ => .pure _)

end Composing

/-- A fault of a text that is no document: one at a token that its scan comes to, or nodes that are inside
one another too deep. -/
def OfDocument (text : List Char) (fault : Fault) : Prop :=
  fault = .malformed ∨ ∃ s, Scan.start text = .ok s ∧ Stops s fault

/-- **Reading a document from a text fails on the text**, at one of its tokens or in what they make up. -/
theorem compose_ofDocument (text : List Char) : FailsOnly (OfDocument text) (compose text) := by
  intro fault h
  unfold compose at h
  rcases bind_eq_error.mp h with hstart | ⟨s, hstart, h⟩
  · have hmalformed : FailsOnly (· = Fault.malformed) (Scan.start text) :=
      FailsOnly.ite (.ok _) (.error rfl)
    exact Or.inl (hmalformed fault hstart)
  · rcases bind_eq_error.mp h with hdocument | ⟨r, -, h⟩
    · have hreads := Composing.document_reads (4 * text.length + 8) (s := s) { scan := s } (.refl s)
      exact Or.inr ⟨s, hstart, hreads.1 fault hdocument⟩
    · exact absurd h (by simp)

end Yaml
end Subgraph
