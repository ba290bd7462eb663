import Subgraph.Proofs.Sdl.ReadBack
import Subgraph.Proofs.Value.Inside

/-!
# `Sdl.Literal` — which values have a literal, and how it is written

A value is written in a document by way of a literal. Here it is said without one: `hasLiteral` tells of a
single value whether its kind has literals, and `documentText` is the text by the shape of the value. Both
ask for truth values and members of enumerations before integers, as which some of them count too.

- A collection is written by writing its parts, and fails as the first of them does
  (`textWithin_collection`); any other value is written by itself (`textWithin_single`).
- So a value is written iff every value inside it has a literal of its kind, and then as its
  `documentText` (`textWithin_of_hasLiteral`); and otherwise the first value inside that has none is what
  the failure names (`textWithin_of_isFirst`).

Integers that are too long to be written are left out throughout, and so are values that the call stack has
no room for. The room grows smaller on the way into a value, so that everything is said of any room.
-/

namespace Subgraph

open Text

namespace Value

/-! ## Kinds and texts -/

/-- Whether values of this kind have literals: null, truth values, members of enumerations, integers,
finite floating-point values, texts, and collections, whatever they hold. -/
def hasLiteral : Value → Bool
  | .null | .bool _ | .symbol _ | .numeral _ _ | .int _ | .text _ => true
  | .float x => x.isFinite
  | .dict _ | .list _ | .tuple _ => true
  | .bytes _ | .version _ | .argument _ _ => false

/-- The failure of a value whose kind has no literals. -/
def offence : Value → Failure
  | .float x => .notFiniteLiteral x
  | v => .notLiteral v

mutual
/-- The text of a value in a document, by its shape. Values without literals have no text; they are
written as nothing here. -/
def documentText : Value → String
  | .null => "null"
  | .bool b => if b then "true" else "false"
  | .symbol ⟨name, _⟩ | .numeral name _ => name
  | .int n => toString n
  | .float x => x.text
  | .text s => Sdl.stringLiteral s
  | .list items | .tuple items => "[" ++ ", ".intercalate (itemTexts items) ++ "]"
  | .dict entries => "\x7b" ++ ", ".intercalate (entryTexts entries) ++ "\x7d"
  | .bytes _ | .version _ | .argument _ _ => ""

/-- The texts of items in a document. -/
def itemTexts : List Value → List String
  | [] => []
  | x :: xs => documentText x :: itemTexts xs

/-- The texts of entries in a document: the key in its plain form, and the value. -/
def entryTexts : List (Value × Value) → List String
  | [] => []
  | (k, x) :: es => (k.plain ++ ": " ++ documentText x) :: entryTexts es
end

/-- A value fails by a class that is not one of the federation's. -/
theorem offence_label (v : Value) : v.offence.label = "TypeError" := by
  cases v <;> rfl

/-! ## Collections -/

/-- Whether a value is a collection. -/
def isCollection : Value → Bool
  | .list _ | .tuple _ | .dict _ => true
  | _ => false

/-- Only collections have parts. -/
theorem isCollection_of_mem_parts {v x : Value} (h : x ∈ v.parts) : v.isCollection = true := by
  cases v with
  | list | tuple | dict => rfl
  | _ => exact absurd h (by simp [parts])

/-- Collections have literals, whatever they hold. -/
theorem hasLiteral_of_isCollection {v : Value} (h : v.isCollection = true) : v.hasLiteral = true := by
  cases v with
  | list | tuple | dict => rfl
  | _ => exact absurd h (by simp [isCollection])

/-- The text of a collection, from the texts of its parts. -/
def framed : Value → List String → String
  | .dict entries, ts =>
    "\x7b" ++ ", ".intercalate (List.zipWith (fun e t => e.1.plain ++ ": " ++ t) entries ts) ++ "\x7d"
  | _, ts => "[" ++ ", ".intercalate ts ++ "]"

theorem itemTexts_eq (items : List Value) : itemTexts items = items.map documentText := by
  induction items with
  | nil => rfl
  | cons x items ih => rw [itemTexts, ih, List.map_cons]

theorem entryTexts_eq (entries : List (Value × Value)) :
    entryTexts entries = entries.map fun e => e.1.plain ++ ": " ++ e.2.documentText := by
  induction entries with
  | nil => rfl
  | cons e entries ih => rw [entryTexts, ih, List.map_cons]

/-- A collection is written as its parts are, between brackets. -/
theorem documentText_collection {v : Value} (hv : v.isCollection = true) :
    v.documentText = v.framed (v.parts.map documentText) := by
  cases v with
  | list items | tuple items => rw [documentText, itemTexts_eq]; rfl
  | dict entries =>
    rw [documentText, entryTexts_eq, parts, framed, List.map_map, List.zipWith_map_right,
      List.zipWith_self]
    rfl
  | _ => exact absurd hv (by simp [isCollection])

/-- Integers inside the parts of a value are short if those inside the value are. -/
theorem withinDigitLimit_of_mem_parts {v x : Value} (hv : v.withinDigitLimit = true)
    (h : x ∈ v.parts) : x.withinDigitLimit = true := by
  cases v with
  | list items | tuple items =>
    rw [withinDigitLimit, itemsWithinDigitLimit_eq, List.all_eq_true] at hv
    exact hv x h
  | dict entries =>
    obtain ⟨e, he, rfl⟩ := List.mem_map.mp h
    rw [withinDigitLimit, entriesWithinDigitLimit_eq, List.all_eq_true] at hv
    exact (Bool.and_eq_true_iff.mp (hv e he)).2
  | _ => exact absurd h (by simp [parts])

/-- A value without a literal takes the room that writing it takes. -/
theorem literalFrames_of_no_literal {v : Value} (hv : v.hasLiteral = false) :
    v.literalFrames = v.frames := by
  cases v with
  | float | bytes | version | argument => rfl
  | _ => exact absurd hv (by simp [hasLiteral])

/-- A collection that there is room for leaves some for its parts. -/
theorem exists_room_below {v : Value} {room : Nat} (hv : v.isCollection = true)
    (h : v.literalFrames ≤ room) : ∃ below, room = below + 2 := by
  have hopen : 2 ≤ v.literalFrames := by
    cases v with
    | list | tuple | dict =>
      rw [literalFrames]
      omega
    | _ => exact absurd hv (by simp [isCollection])
  exact ⟨room - 2, by omega⟩

theorem literalFrames_le_below {v x : Value} {room : Nat} (hx : x ∈ v.parts)
    (h : v.literalFrames ≤ room + 2) : x.literalFrames ≤ room := by
  have hle := literalFrames_of_mem_parts hx
  omega

/-- The plain form of a value shows no more integers than are inside it. -/
theorem plainWithinDigitLimit_of_within {v : Value} (h : v.withinDigitLimit = true) :
    v.plainWithinDigitLimit = true := by
  cases v with
  | version v => simp [plainWithinDigitLimit, h]
  | symbol member => rfl
  | _ => exact h

end Value

/-! ## Texts of literals -/

open Value
open Literal (textWithin)

/-- Items are written one by one. -/
theorem itemTexts_ofItems (room : Nat) (items : List Value) :
    (Literal.ofItems room items).map Literal.itemTexts = items.mapM (textWithin room) := by
  have htexts : Literal.itemTexts = List.map Literal.text := funext Sdl.itemTexts_eq
  rw [Literal.ofItems_eq, htexts]
  exact (mapM_map (Literal.ofValue room) Literal.text items).symm

/-- A key that can be written is written in its plain form. -/
theorem keyText_eq_ok {room : Nat} {k : Value} (hroom : k.plainFrames ≤ room)
    (hshort : k.plainWithinDigitLimit = true) : Literal.keyText room k = .ok k.plain := by
  rw [Literal.keyText, if_neg (by omega), if_pos hshort]

/-- Entries are written one by one, each behind its key. -/
theorem fieldTexts_ofEntries {room : Nat} {entries : List (Value × Value)}
    (h : ∀ e ∈ entries, Literal.keyText room e.1 = .ok e.1.plain) :
    (Literal.ofEntries room entries).map Literal.fieldTexts =
      ((entries.map (·.2)).mapM (textWithin room)).map
        (List.zipWith (fun e t => e.1.plain ++ ": " ++ t) entries) := by
  induction entries with
  | nil => rfl
  | cons e entries ih =>
    obtain ⟨k, x⟩ := e
    rw [List.forall_mem_cons] at h
    have ih := ih h.2
    rw [Literal.ofEntries, show Literal.keyText room k = .ok k.plain from h.1, List.map_cons,
      List.mapM_cons, textWithin]
    cases Literal.ofValue room x with
    | error f => rfl
    | ok l =>
      cases hentries : Literal.ofEntries room entries with
      | error f =>
        rw [hentries] at ih
        have hparts : (entries.map (·.2)).mapM (textWithin room) = .error f := map_eq_error.mp ih.symm
        rw [hparts]
        rfl
      | ok fs =>
        rw [hentries] at ih
        obtain ⟨ts, hts, hzip⟩ := map_eq_ok.mp ih.symm
        rw [hts]
        exact congrArg Except.ok (congrArg _ hzip.symm)

/-- **A collection is written as its parts are**, and fails as the first of them does. Its parts have the
room that is left. -/
theorem textWithin_collection {v : Value} {room : Nat} (hv : v.isCollection = true)
    (hshort : v.withinDigitLimit = true) (hroom : v.literalFrames ≤ room + 2) :
    textWithin (room + 2) v = (v.parts.mapM (textWithin room)).map v.framed := by
  have hopen : ¬ room + 2 < 2 := by omega
  cases v with
  | list items | tuple items =>
    rw [parts, ← itemTexts_ofItems, textWithin, Literal.ofValue, if_neg hopen, Nat.add_sub_cancel]
    cases Literal.ofItems room items <;> rfl
  | dict entries =>
    have hkeys : ∀ e ∈ entries, Literal.keyText room e.1 = .ok e.1.plain := by
      rw [withinDigitLimit, entriesWithinDigitLimit_eq, List.all_eq_true] at hshort
      rw [literalFrames, Nat.add_le_add_iff_right, literalEntriesFrames_le_iff] at hroom
      intro e he
      have hplain := plainWithinDigitLimit_of_within (Bool.and_eq_true_iff.mp (hshort e he)).1
      exact keyText_eq_ok (hroom e he).1 hplain
    have hframed : ∀ r : Except Failure (List String), r.map (Value.dict entries).framed =
        (r.map (List.zipWith (fun e t => e.1.plain ++ ": " ++ t) entries)).map
          fun ts => "\x7b" ++ ", ".intercalate ts ++ "\x7d" := by
      intro r
      cases r <;> rfl
    rw [parts, hframed, ← fieldTexts_ofEntries hkeys, textWithin, Literal.ofValue, if_neg hopen,
      Nat.add_sub_cancel]
    cases Literal.ofEntries room entries <;> rfl
  | _ => exact absurd hv (by simp [isCollection])

/-- Any other value is written by itself, or is what the failure names. -/
theorem textWithin_single {v : Value} {room : Nat} (hv : v.isCollection = false)
    (hshort : v.withinDigitLimit = true) (hroom : v.literalFrames ≤ room) :
    textWithin room v = if v.hasLiteral = true then .ok v.documentText else .error v.offence := by
  cases v with
  | list | tuple | dict => exact absurd hv (by simp [isCollection])
  | int n =>
    have hlimit : exceedsDigitLimit n = false := by simpa [withinDigitLimit] using hshort
    rw [textWithin, Literal.ofValue, hlimit]
    rfl
  | float x =>
    rw [textWithin, Literal.ofValue, hasLiteral]
    cases x.isFinite <;> rfl
  | bytes | version | argument =>
    rw [literalFrames_of_no_literal rfl, ← Nat.not_lt] at hroom
    rw [textWithin, Literal.ofValue, Literal.refuse, if_neg hroom, if_pos hshort]
    rfl
  | symbol member => cases member; rfl
  | _ => rfl

/-! ## Which values are written -/

/-- **A value is written if every value inside it has a literal**, and by its shape. -/
theorem textWithin_of_hasLiteral {v : Value} {room : Nat} (hshort : v.withinDigitLimit = true)
    (hroom : v.literalFrames ≤ room) (h : ∀ x ∈ v.inside, x.hasLiteral = true) :
    textWithin room v = .ok v.documentText := by
  induction v using parts_induction generalizing room with
  | step v ih =>
    obtain ⟨hkind, hparts⟩ := forall_inside_iff.mp h
    cases hv : v.isCollection with
    | false => rw [textWithin_single hv hshort hroom, if_pos hkind]
    | true =>
      obtain ⟨below, rfl⟩ := exists_room_below hv hroom
      have hwritten : v.parts.mapM (textWithin below) = .ok (v.parts.map documentText) := by
        rw [mapM_eq_ok_iff, List.forall₂_map_right_iff, List.forall₂_same]
        exact fun x hx => ih x hx (withinDigitLimit_of_mem_parts hshort hx)
          (literalFrames_le_below hx hroom) (hparts x hx)
      rw [textWithin_collection hv hshort hroom, hwritten, documentText_collection hv]
      rfl

/-- **A value is not written if a value inside it has no literal**, and the first of these is named. -/
theorem textWithin_of_isFirst {v x : Value} {room : Nat} (hshort : v.withinDigitLimit = true)
    (hroom : v.literalFrames ≤ room) (h : IsFirst (fun x => x.hasLiteral = false) v.inside x) :
    textWithin room v = .error x.offence := by
  induction v using parts_induction generalizing room with
  | step v ih =>
    rw [inside_eq, isFirst_cons_iff] at h
    rcases h with ⟨hkind, rfl⟩ | ⟨-, h⟩
    · have hv : x.isCollection = false := by
        cases hx : x.isCollection with
        | false => rfl
        | true => exact absurd (hasLiteral_of_isCollection hx) (by simp [hkind])
      rw [textWithin_single hv hshort hroom, if_neg (by simp [hkind])]
    · obtain ⟨part, ⟨-, before, after, hsplit, hbefore⟩, hx⟩ := isFirst_flatMap_iff.mp h
      have hmem : part ∈ v.parts := by
        rw [hsplit]
        simp
      have hv : v.isCollection = true := isCollection_of_mem_parts hmem
      obtain ⟨below, rfl⟩ := exists_room_below hv hroom
      have hpart : textWithin below part = .error x.offence :=
        ih part hmem (withinDigitLimit_of_mem_parts hshort hmem) (literalFrames_le_below hmem hroom) hx
      -- the parts before are written, since nothing inside them lacks a literal
      have hfirst : IsFirst (fun y => ∃ f, textWithin below y = .error f) v.parts part := by
        refine ⟨⟨_, hpart⟩, before, after, hsplit, ?_⟩
        rintro y hy ⟨f, hf⟩
        have hy' : y ∈ v.parts := by
          rw [hsplit]
          exact List.mem_append_left _ hy
        have hwritten : textWithin below y = .ok y.documentText := by
          apply textWithin_of_hasLiteral (withinDigitLimit_of_mem_parts hshort hy')
            (literalFrames_le_below hy' hroom)
          intro z hz
          by_contra hkind
          exact hbefore y hy ⟨z, hz, by simpa using hkind⟩
        exact absurd hf (by simp [hwritten])
      rw [textWithin_collection hv hshort hroom, map_eq_error]
      exact mapM_eq_error_iff.mpr ⟨part, hfirst, hpart⟩

/-! ## Whatever the room is -/

open Literal (ofValue ofEntry)

/-- A collection that has a literal leaves two calls, and with these every part has one. -/
theorem ofValue_parts_ok {v : Value} {room : Nat} {l : Literal} (hv : v.isCollection = true)
    (h : ofValue room v = .ok l) :
    ∃ below, room = below + 2 ∧ (∀ x ∈ v.parts, ∃ l, ofValue below x = .ok l) ∧
      ((∀ x ∈ v.parts, x.literalFrames ≤ below) → v.literalFrames ≤ room) := by
  cases v with
  | list items | tuple items =>
    have hlist : ofValue room (.list items) = .ok l := by simpa only [Literal.ofValue_tuple] using h
    obtain ⟨below, ls, rfl, hls, -⟩ := Literal.ofValue_list_ok hlist
    refine ⟨below, rfl, fun x hx => exists_ok_of_mapM hls hx, fun hfit => ?_⟩
    exact Nat.add_le_add_right (literalItemsFrames_le_iff.mpr hfit) 2
  | dict entries =>
    obtain ⟨below, fs, rfl, hfs, -⟩ := Literal.ofValue_dict_ok h
    have hentry : ∀ e ∈ entries, e.1.plainFrames ≤ below ∧ ∃ l, ofValue below e.2 = .ok l := by
      intro e he
      obtain ⟨f, hf⟩ := exists_ok_of_mapM hfs he
      obtain ⟨name, hname, hf⟩ := bind_eq_ok.mp hf
      obtain ⟨l, hl, -⟩ := bind_eq_ok.mp hf
      refine ⟨?_, l, hl⟩
      by_contra hdeep
      rw [Literal.keyText, if_pos (by omega)] at hname
      exact absurd hname (by simp)
    refine ⟨below, rfl, List.forall_mem_map.mpr fun e he => (hentry e he).2, fun hfit => ?_⟩
    refine Nat.add_le_add_right (literalEntriesFrames_le_iff.mpr fun e he => ?_) 2
    exact ⟨(hentry e he).1, hfit _ (List.mem_map_of_mem he)⟩
  | _ => exact absurd hv (by simp [isCollection])

/-- **What is written has room**, and everything inside it a literal. -/
theorem fits_of_ofValue_ok {v : Value} {room : Nat} {l : Literal} (h : ofValue room v = .ok l) :
    (∀ x ∈ v.inside, x.hasLiteral = true) ∧ v.literalFrames ≤ room := by
  induction v using parts_induction generalizing room l with
  | step v ih =>
    rw [forall_inside_iff]
    cases hv : v.isCollection with
    | true =>
      obtain ⟨below, rfl, hparts, hfit⟩ := ofValue_parts_ok hv h
      refine ⟨⟨hasLiteral_of_isCollection hv, fun x hx => ?_⟩, hfit fun x hx => ?_⟩
      · obtain ⟨l, hl⟩ := hparts x hx
        exact (ih x hx hl).1
      · obtain ⟨l, hl⟩ := hparts x hx
        exact (ih x hx hl).2
    | false =>
      have hnone : v.parts = [] := List.eq_nil_iff_forall_not_mem.mpr fun x hx =>
        absurd (isCollection_of_mem_parts hx) (by simp [hv])
      have hkind : v.hasLiteral = true ∧ v.literalFrames ≤ room := by
        cases v with
        | list | tuple | dict => exact absurd hv (by simp [isCollection])
        | float x =>
          rw [ofValue] at h
          split at h
          · next hx => exact ⟨hx, Nat.zero_le room⟩
          · exact absurd h (by simp)
        | bytes | version | argument =>
          rw [ofValue, Literal.refuse] at h
          split at h
          · exact absurd h (by simp)
          · split at h <;> exact absurd h (by simp)
        | _ => exact ⟨rfl, Nat.zero_le room⟩
      simpa [hnone] using hkind

/-- A collection fails for want of room, or as the first of its parts that fails. -/
theorem ofValue_parts_error {v : Value} {below : Nat} {f : Failure} (hv : v.isCollection = true)
    (hshort : v.withinDigitLimit = true) (h : ofValue (below + 2) v = .error f) :
    f = .misuse .deepNesting ∨ ∃ part, IsFirst (fun y => ∃ f, ofValue below y = .error f) v.parts part ∧
      ofValue below part = .error f := by
  cases v with
  | list items | tuple items =>
    have hlist : ofValue (below + 2) (.list items) = .error f := by
      simpa only [Literal.ofValue_tuple] using h
    rw [Literal.ofValue_list, map_eq_error, mapM_eq_error_iff] at hlist
    exact .inr hlist
  | dict entries =>
    rw [Literal.ofValue_dict, map_eq_error, mapM_eq_error_iff] at h
    obtain ⟨e, ⟨-, before, after, hsplit, hbefore⟩, he⟩ := h
    have hmem : e ∈ entries := by
      rw [hsplit]
      simp
    rcases bind_eq_error.mp he with hname | ⟨name, -, hvalue⟩
    · -- a key without a text is too deep, since its integers are short
      rw [withinDigitLimit, entriesWithinDigitLimit_eq, List.all_eq_true] at hshort
      have hplain := plainWithinDigitLimit_of_within (Bool.and_eq_true_iff.mp (hshort e hmem)).1
      rw [Literal.keyText, if_pos hplain] at hname
      split at hname
      · exact .inl (Except.error.inj hname).symm
      · exact absurd hname (by simp)
    · have hfails : ofValue below e.2 = .error f := by
        rcases bind_eq_error.mp hvalue with hvalue | ⟨l, -, hpure⟩
        · exact hvalue
        · exact absurd hpure (by simp [pure, Except.pure])
      refine .inr ⟨e.2, ⟨⟨f, hfails⟩, before.map (·.2), after.map (·.2), ?_, ?_⟩, hfails⟩
      · rw [parts, hsplit, List.map_append, List.map_cons]
      · rintro x hx ⟨g, hg⟩
        obtain ⟨d, hd, rfl⟩ := List.mem_map.mp hx
        refine hbefore d hd ?_
        cases hkey : Literal.keyText below d.1 with
        | error k => exact ⟨k, bind_eq_error.mpr (.inl hkey)⟩
        | ok name => exact ⟨g, bind_eq_error.mpr (.inr ⟨name, hkey, bind_eq_error.mpr (.inl hg)⟩)⟩
  | _ => exact absurd hv (by simp [isCollection])

/-- Where a value cannot be opened, or cannot be shown, there is no room for it. -/
theorem ofValue_no_room {v : Value} {room : Nat} (hroom : room < v.literalFrames)
    (hopen : v.isCollection = true → room < 2) : ofValue room v = .error (.misuse .deepNesting) := by
  cases v with
  | list | tuple | dict => rw [ofValue, if_pos (hopen rfl)]
  | bytes | version | argument =>
    rw [literalFrames_of_no_literal rfl] at hroom
    rw [ofValue, Literal.refuse, if_pos hroom]
  | _ => exact absurd hroom (Nat.not_lt_zero room)

/-- Nothing inside the parts before the first that fails lacks a literal, so that what is first without
one inside this part is so in the whole. -/
theorem isFirst_of_part {v part x : Value} {below : Nat} (hv : v.isCollection = true)
    (hpart : IsFirst (fun y => ∃ f, ofValue below y = .error f) v.parts part)
    (hx : IsFirst (fun x => x.hasLiteral = false) part.inside x) :
    IsFirst (fun x => x.hasLiteral = false) v.inside x := by
  obtain ⟨-, before, after, hsplit, hbefore⟩ := hpart
  rw [inside_eq, isFirst_cons_iff, isFirst_flatMap_iff]
  refine .inr ⟨by simp [hasLiteral_of_isCollection hv], part,
    ⟨⟨x, hx.mem, hx.1⟩, before, after, hsplit, ?_⟩, hx⟩
  rintro y hy ⟨z, hz, hkind⟩
  refine hbefore y hy ?_
  cases hresult : ofValue below y with
  | error g => exact ⟨g, hresult⟩
  | ok l => exact absurd ((fits_of_ofValue_ok hresult).1 z hz) (by simp [hkind])

/-- **What is not written is too deep, or the failure names the first value inside without a literal.** -/
theorem offence_of_ofValue_error {v : Value} {room : Nat} {f : Failure}
    (hshort : v.withinDigitLimit = true) (h : ofValue room v = .error f) :
    (f = .misuse .deepNesting ∧ room < v.literalFrames) ∨
      ∃ x, IsFirst (fun x => x.hasLiteral = false) v.inside x ∧ f = x.offence := by
  induction v using parts_induction generalizing room with
  | step v ih =>
    by_cases hroom : v.literalFrames ≤ room
    · -- with enough room, a value without a literal is there, and it is named
      have hnot : ¬ ∀ x ∈ v.inside, x.hasLiteral = true := by
        intro hkind
        obtain ⟨l, hl, -⟩ := map_eq_ok.mp (textWithin_of_hasLiteral hshort hroom hkind)
        exact absurd (h.symm.trans hl) (by simp)
      obtain ⟨x, hx⟩ : ∃ x, IsFirst (fun x => x.hasLiteral = false) v.inside x :=
        exists_isFirst_iff.mpr (by simpa using hnot)
      have hfails := map_eq_error.mp (textWithin_of_isFirst hshort hroom hx)
      exact .inr ⟨x, hx, Except.error.inj (h.symm.trans hfails)⟩
    · rw [Nat.not_le] at hroom
      by_cases hopen : v.isCollection = true → room < 2
      · exact .inl ⟨Except.error.inj (h.symm.trans (ofValue_no_room hroom hopen)), hroom⟩
      · obtain ⟨hv, hopen⟩ := Classical.not_imp.mp hopen
        obtain ⟨below, rfl⟩ : ∃ below, room = below + 2 := ⟨room - 2, by omega⟩
        rcases ofValue_parts_error hv hshort h with hdeep | ⟨part, hpart, hfails⟩
        · exact .inl ⟨hdeep, hroom⟩
        · have hshort := withinDigitLimit_of_mem_parts hshort hpart.mem
          refine (ih part hpart.mem hshort hfails).imp (fun hdeep => ⟨hdeep.1, hroom⟩) ?_
          exact fun ⟨x, hx, hf⟩ => ⟨x, isFirst_of_part hv hpart hx, hf⟩

end Subgraph
