import Subgraph.Proofs.Failure.Chain
import Subgraph.Yaml.TokenStream

/-!
# `Yaml.TokenStream` — how finding the tokens of a text fails

A text is malformed, or a number that is written in it has no meaning: one that stands for a character,
or one of the version of the language. No token has other faults (`token_ofText`). The lemmas follow the
readers, from those of scalars and properties up to the dispatch.

A scan goes on token by token (`Goes`). Reading on until the next token is found goes on in this way, and
where it fails it is a token that fails, at a place that the scan has come to (`supply_ends`).
-/

namespace Subgraph
namespace Yaml

/-- The faults of a text as it is written: it is malformed, or a number that stands for a character or
in the version of the language has no meaning. -/
inductive Fault.OfText : Fault → Prop where
  | malformed : OfText .malformed
  | longCharacter : OfText (.misuse .longCharacter)
  | noSuchCharacter : OfText (.misuse .noSuchCharacter)
  | halfCharacter : OfText (.misuse .halfCharacter)
  | longVersion (digits : Nat) : OfText (.misuse (.longNumeral digits))

/-- The faults of a number that is written in a text and has no meaning. -/
inductive Fault.OfNumber : Fault → Prop where
  | longCharacter : OfNumber (.misuse .longCharacter)
  | noSuchCharacter : OfNumber (.misuse .noSuchCharacter)
  | longVersion (digits : Nat) : OfNumber (.misuse (.longNumeral digits))

/-- A text that is not malformed has a number without a meaning, if none is that of half a character. -/
theorem Fault.OfText.ofNumber {fault : Fault} (h : fault.OfText) (hfault : fault ≠ .malformed)
    (hwhole : fault ≠ .misuse .halfCharacter) : fault.OfNumber := by
  cases h with
  | malformed => exact absurd rfl hfault
  | longCharacter => exact .longCharacter
  | noSuchCharacter => exact .noSuchCharacter
  | halfCharacter => exact absurd rfl hwhole
  | longVersion digits => exact .longVersion digits

theorem Fault.OfNumber.ne_malformed {fault : Fault} (h : fault.OfNumber) : fault ≠ .malformed := by
  cases h <;> simp

theorem Fault.OfNumber.ne_halfCharacter {fault : Fault} (h : fault.OfNumber) :
    fault ≠ .misuse .halfCharacter := by
  cases h <;> simp

open Fault (OfText)

/-- That a text is malformed is a fault of the text. -/
theorem malformed_ofText {α : Type} : FailsOnly OfText (malformed : Except Fault α) :=
  .error .malformed

theorem skipLine_ofText (c : Cursor) : FailsOnly OfText c.skipLine := by
  unfold Cursor.skipLine
  dsimp only
  split
  · exact .ok _
  · exact malformed_ofText

/-! ## Quoted scalars -/

/-- A number stands for no character in three ways: it is too long, too large, or that of half of one. -/
theorem charOf_ofText (n : Nat) : FailsOnly OfText (charOf n) :=
  .ite (.error .longCharacter) (.ite (.error .noSuchCharacter) (.ite (.error .halfCharacter) (.ok _)))

/-- Between the lines of a quoted scalar a mark between documents is refused. -/
theorem quotedBreaks_ofText (fuel : Nat) (c : Cursor) (breaks : List Char) :
    FailsOnly OfText (quotedBreaks fuel c breaks) := by
  induction fuel generalizing c breaks with
  | zero => exact .ok _
  | succ fuel ih =>
    unfold quotedBreaks
    split
    · exact malformed_ofText
    · dsimp only
      split
      · exact ih _ _
      · exact .ok _

/-- A gap in a quoted scalar must not be the end of the text. -/
theorem quotedGap_ofText (c : Cursor) : FailsOnly OfText (quotedGap c) := by
  unfold quotedGap
  split
  split
  · exact malformed_ofText
  · exact .ok _
  · exact (quotedBreaks_ofText _ _ _).map _

/-- An escape fails on its letter, on its digits, or on the number that they write. -/
theorem escape_ofText (c : Cursor) : FailsOnly OfText (escape c) := by
  unfold escape
  split
  · exact malformed_ofText
  · split
    · exact .ok _
    · dsimp only
      split
      · exact malformed_ofText
      · split
        · exact (charOf_ofText _).map _
        · exact malformed_ofText
    · exact quotedBreaks_ofText _ _ _
    · exact malformed_ofText

/-- The pieces of a quoted scalar, by induction on their number: what follows a piece is the same
whichever it is. -/
theorem quotedPieces_ofText (double : Bool) (fuel : Nat) (c : Cursor) :
    FailsOnly OfText (quotedPieces double fuel c) := by
  induction fuel generalizing c with
  | zero => exact malformed_ofText
  | succ fuel ih =>
    -- what follows a piece, whichever it is
    have hrest : ∀ piece : List Char × Cursor × Bool,
        FailsOnly OfText (if piece.2.2 then .ok ([], piece.2.1)
          else quotedPieces double fuel piece.2.1 >>= fun rest =>
            .ok (piece.1 ++ rest.1, rest.2) : Except Fault (List Char × Cursor)) := by
      intro piece
      split
      · exact .ok _
      · exact (ih _).bind fun rest => .ok _
    unfold quotedPieces
    dsimp only
    split
    · exact malformed_ofText.bind hrest
    · refine FailsOnly.ite ((FailsOnly.ok _).bind hrest) ?_
      refine FailsOnly.ite ((FailsOnly.ok _).bind hrest) ?_
      refine FailsOnly.ite ((FailsOnly.ok _).bind hrest) ?_
      refine FailsOnly.ite (((escape_ofText _).map _).bind hrest) ?_
      exact FailsOnly.ite (((quotedGap_ofText _).map _).bind hrest) ((FailsOnly.ok _).bind hrest)

/-- A quoted scalar fails on one of its pieces. -/
theorem quotedText_ofText (double : Bool) (c : Cursor) : FailsOnly OfText (quotedText double c) :=
  (quotedPieces_ofText double _ _).map _

/-! ## Block scalars -/

/-- The header of a block fails on the hint about its indentation, or on what stands behind it. -/
theorem blockHeader_ofText (c : Cursor) : FailsOnly OfText (blockHeader c) := by
  unfold blockHeader
  extract_lets chomp indentation
  have hindentation : ∀ c, FailsOnly OfText (indentation c) := by
    intro c
    dsimp only [indentation]
    split
    · exact FailsOnly.ite malformed_ofText (FailsOnly.ite (.ok _) (.ok _))
    · exact .ok _
  split
  refine (hindentation _).bind fun hint => ?_
  split
  split
  exact FailsOnly.ite ((skipLine_ofText _).bind fun _ => .ok _) malformed_ofText

/-- A block scalar fails on its header only. -/
theorem blockText_ofText (folded : Bool) (parent : Int) (c : Cursor) :
    FailsOnly OfText (blockText folded parent c) :=
  (blockHeader_ofText c.next).bind fun _ => .ok _

/-! ## Properties and instructions -/

theorem anchorName_ofText (c : Cursor) : FailsOnly OfText (anchorName c) :=
  FailsOnly.ite malformed_ofText (.ok _)

/-- The escapes in an address fail on their digits. -/
theorem escapedBytes_ofText (fuel : Nat) (c : Cursor) : FailsOnly OfText (escapedBytes fuel c) := by
  induction fuel generalizing c with
  | zero => exact .ok _
  | succ fuel ih =>
    unfold escapedBytes
    refine FailsOnly.ite ?_ (.ok _)
    split
    · split
      · exact (ih _).map _
      · exact malformed_ofText
    · exact malformed_ofText

/-- An address fails on bytes that encode no text. -/
theorem uriPieces_ofText (fuel : Nat) (c : Cursor) : FailsOnly OfText (uriPieces fuel c) := by
  induction fuel generalizing c with
  | zero => exact .ok _
  | succ fuel ih =>
    unfold uriPieces
    refine FailsOnly.ite ((escapedBytes_ofText _ _).bind fun bytes => ?_) (.ok _)
    split
    split
    · exact malformed_ofText
    · exact (ih _).bind fun _ => .ok _

theorem tagUri_ofText (c : Cursor) : FailsOnly OfText (tagUri c) :=
  FailsOnly.ite (uriPieces_ofText _ _) malformed_ofText

theorem tagHandle_ofText (c : Cursor) : FailsOnly OfText (tagHandle c) :=
  FailsOnly.ite malformed_ofText
    (FailsOnly.ite (.ok _) (FailsOnly.ite (.ok _) malformed_ofText))

/-- A tag fails on its handle, on its address, or on what stands behind it. -/
theorem tag_ofText (c : Cursor) : FailsOnly OfText (tag c) := by
  -- behind a tag there is a gap
  have hrest : ∀ t : Option String × String × Cursor,
      FailsOnly OfText (if isSpaceGap t.2.2.peek then .ok (.tag t.1 t.2.1, t.2.2)
        else malformed : Except Fault (Token × Cursor)) :=
    fun t => FailsOnly.ite (.ok _) malformed_ofText
  unfold tag
  dsimp only
  refine FailsOnly.ite ?_ ?_
  · refine (tagUri_ofText _).bind fun uri => ?_
    exact FailsOnly.ite ((FailsOnly.ok _).bind hrest) (malformed_ofText.bind hrest)
  · refine FailsOnly.ite ((FailsOnly.ok _).bind hrest) (FailsOnly.ite ?_ ?_)
    · refine (tagHandle_ofText _).bind fun handle => (tagUri_ofText _).bind fun uri => ?_
      exact (FailsOnly.ok _).bind hrest
    · exact (tagUri_ofText _).bind fun uri => (FailsOnly.ok _).bind hrest

/-- A number of a version may be too long to be read. -/
theorem versionNumber_ofText (c : Cursor) : FailsOnly OfText (versionNumber c) :=
  FailsOnly.ite malformed_ofText (FailsOnly.ite (.error (.longVersion _)) (.ok _))

/-- The version that an instruction states fails on one of its two numbers. -/
theorem versionInstruction_ofText (c : Cursor) : FailsOnly OfText (versionInstruction c) := by
  refine (versionNumber_ofText _).bind fun major => FailsOnly.ite malformed_ofText ?_
  exact (versionNumber_ofText _).bind fun minor => FailsOnly.ite (.ok _) malformed_ofText

theorem handleInstruction_ofText (c : Cursor) : FailsOnly OfText (handleInstruction c) := by
  refine (tagHandle_ofText _).bind fun handle => FailsOnly.ite malformed_ofText ?_
  exact (tagUri_ofText _).bind fun expansion => FailsOnly.ite (.ok _) malformed_ofText

/-- A line of instructions fails on what it states, or on the rest of the line. -/
theorem instruction_ofText (c : Cursor) : FailsOnly OfText (instruction c) := by
  have hrest : ∀ i : Instruction × Cursor, FailsOnly OfText (i.2.skipLine >>= fun c =>
      .ok (.instruction i.1, c) : Except Fault (Token × Cursor)) :=
    fun i => (skipLine_ofText _).bind fun _ => .ok _
  unfold instruction
  dsimp only
  refine FailsOnly.ite malformed_ofText (FailsOnly.ite ?_ (FailsOnly.ite ?_ ?_))
  · exact (versionInstruction_ofText _).bind hrest
  · exact (handleInstruction_ofText _).bind hrest
  · exact (FailsOnly.ok _).bind hrest

/-! ## The scan -/

namespace Scan

/-- A token that has to be a key and is none makes the text malformed. -/
theorem dropCandidate_ofText (s : Scan) : FailsOnly OfText s.dropCandidate :=
  FailsOnly.ite malformed_ofText (.ok _)

/-- So does one that is too far back to be a key. -/
theorem dropStale_ofText (s : Scan) : FailsOnly OfText s.dropStale :=
  FailsOnly.ite malformed_ofText (.ok _)

theorem addCandidate_ofText (s : Scan) : FailsOnly OfText s.addCandidate :=
  FailsOnly.ite ((dropCandidate_ofText s).bind fun _ => .ok _) (.ok _)

/-- A block collection is refused where no key is allowed. -/
theorem openBlock_ofText (s : Scan) (t : Token) : FailsOnly OfText (s.openBlock t) :=
  FailsOnly.ite (.ok _) (FailsOnly.ite malformed_ofText (.ok _))

theorem atEnd_ofText (s : Scan) : FailsOnly OfText s.atEnd :=
  (dropCandidate_ofText _).bind fun _ => .ok _

theorem atInstruction_ofText (s : Scan) : FailsOnly OfText s.atInstruction :=
  (dropCandidate_ofText _).bind fun _ => (instruction_ofText _).bind fun _ => .ok _

theorem atDocument_ofText (s : Scan) (t : Token) : FailsOnly OfText (s.atDocument t) :=
  (dropCandidate_ofText _).bind fun _ => .ok _

theorem atFlowStart_ofText (s : Scan) (t : Token) : FailsOnly OfText (s.atFlowStart t) :=
  (addCandidate_ofText s).bind fun _ => .ok _

theorem atFlowEnd_ofText (s : Scan) (t : Token) : FailsOnly OfText (s.atFlowEnd t) :=
  (dropCandidate_ofText s).bind fun _ => .ok _

theorem atFlowEntry_ofText (s : Scan) : FailsOnly OfText s.atFlowEntry :=
  (dropCandidate_ofText s).bind fun _ => .ok _

theorem atBlockEntry_ofText (s : Scan) : FailsOnly OfText s.atBlockEntry :=
  (openBlock_ofText s _).bind fun _ => (dropCandidate_ofText _).bind fun _ => .ok _

theorem atKey_ofText (s : Scan) : FailsOnly OfText s.atKey :=
  (openBlock_ofText s _).bind fun _ => (dropCandidate_ofText _).bind fun _ => .ok _

/-- The mark of a value fails only where there is no candidate for its key. -/
theorem atValue_ofText (s : Scan) : FailsOnly OfText s.atValue := by
  unfold atValue
  split
  · exact .ok _
  · exact (openBlock_ofText s _).bind fun _ => (dropCandidate_ofText _).bind fun _ => .ok _

/-- A token that may be a key fails as the function fails that reads it. -/
theorem atCandidate_ofText (s : Scan) {read : Cursor → Except Fault (Token × Cursor)}
    (hread : ∀ c, FailsOnly OfText (read c)) : FailsOnly OfText (s.atCandidate read) :=
  (addCandidate_ofText s).bind fun _ => (hread _).bind fun _ => .ok _

/-- A block scalar ends the candidate before it. -/
theorem atBlockText_ofText (s : Scan) (folded : Bool) : FailsOnly OfText (s.atBlockText folded) :=
  (dropCandidate_ofText s).bind fun _ => (blockText_ofText _ _ _).bind fun _ => .ok _

theorem atQuoted_ofText (s : Scan) (double : Bool) : FailsOnly OfText (s.atQuoted double) :=
  atCandidate_ofText s fun c => (quotedText_ofText double c).map _

theorem atPlain_ofText (s : Scan) : FailsOnly OfText s.atPlain :=
  (addCandidate_ofText s).bind fun _ => .ok _

/-- **A token fails on the text as it is written.** -/
theorem token_ofText (s : Scan) : FailsOnly OfText s.token := by
  unfold token
  refine (dropStale_ofText _).bind fun s => ?_
  dsimp only
  split
  · exact atEnd_ofText _
  · refine FailsOnly.ite (atInstruction_ofText _) ?_
    refine FailsOnly.ite (atDocument_ofText _ _) ?_
    refine FailsOnly.ite (atDocument_ofText _ _) ?_
    refine FailsOnly.ite (atFlowStart_ofText _ _) ?_
    refine FailsOnly.ite (atFlowStart_ofText _ _) ?_
    refine FailsOnly.ite (atFlowEnd_ofText _ _) ?_
    refine FailsOnly.ite (atFlowEnd_ofText _ _) ?_
    refine FailsOnly.ite (atFlowEntry_ofText _) ?_
    refine FailsOnly.ite (atBlockEntry_ofText _) ?_
    refine FailsOnly.ite (atKey_ofText _) ?_
    refine FailsOnly.ite (atValue_ofText _) ?_
    refine FailsOnly.ite (atCandidate_ofText _ fun c => (anchorName_ofText c).map _) ?_
    refine FailsOnly.ite (atCandidate_ofText _ fun c => (anchorName_ofText c).map _) ?_
    refine FailsOnly.ite (atCandidate_ofText _ tag_ofText) ?_
    refine FailsOnly.ite (atBlockText_ofText _ _) ?_
    refine FailsOnly.ite (atBlockText_ofText _ _) ?_
    refine FailsOnly.ite (atQuoted_ofText _ _) ?_
    refine FailsOnly.ite (atQuoted_ofText _ _) ?_
    exact FailsOnly.ite (atPlain_ofText _) malformed_ofText

/-! ## The next token -/

/-- A scan goes on to another: candidates that are too far back are dropped, a token is found, or the next
one is taken. -/
inductive Goes : Scan → Scan → Prop where
  | refl (s : Scan) : Goes s s
  | dropped {s s' s'' : Scan} (h : Goes s s') (hdrop : s'.dropStale = .ok s'') : Goes s s''
  | found {s s' s'' : Scan} (h : Goes s s') (htoken : s'.token = .ok s'') : Goes s s''
  | taken {s s' : Scan} (h : Goes s s') : Goes s s'.take

/-- A fault at a token that a scan comes to, or a text that is malformed. -/
def Meets (s : Scan) (fault : Fault) : Prop :=
  fault = .malformed ∨ ∃ s', Goes s s' ∧ s'.token = .error fault

/-- Whether more of the text is needed is found out by dropping candidates. -/
theorem needsMore_ends {s s' : Scan} (h : Goes s s') :
    Ends (Meets s) (fun r => Goes s r.2) s'.needsMore := by
  unfold needsMore
  split
  · exact .ok h
  · split
    · exact .ok h
    · cases hdrop : s'.dropStale with
      | error fault =>
        have hfault : FailsOnly (· = Fault.malformed) s'.dropStale := FailsOnly.ite (.error rfl) (.ok _)
        exact .error (Or.inl (hfault fault hdrop))
      | ok s'' => exact .ok (h.dropped hdrop)

theorem supplyWithin_ends {s s' : Scan} (fuel : Nat) (h : Goes s s') :
    Ends (Meets s) (Goes s) (s'.supplyWithin fuel) := by
  induction fuel generalizing s' with
  | zero => exact .ok h
  | succ fuel ih =>
    refine (needsMore_ends h).bind ?_
    rintro ⟨more, s''⟩ hmore
    cases more with
    | true =>
      dsimp only [if_true]
      cases htoken : s''.token with
      | error fault => exact .error (Or.inr ⟨s'', hmore, htoken⟩)
      | ok t => exact ih (hmore.found htoken)
    | false => exact .ok hmore

/-- **Reading on until the next token is found fails at a token only.** -/
theorem supply_ends {s s' : Scan} (h : Goes s s') : Ends (Meets s) (Goes s) s'.supply :=
  supplyWithin_ends _ h

end Scan

end Yaml
end Subgraph
