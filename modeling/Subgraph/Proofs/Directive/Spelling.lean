import Subgraph.Directive.Reader
import Subgraph.Proofs.Failure.Chain

/-!
# `Directive.Spelling` — one list of arguments, many ways to write it

Arguments can be given as a mapping, or item by item: as an argument, as a record with a name, as anything
that yields two items. Whichever way is taken, an item has at most one name and one value (`Parts`), and
what it is read as depends on these two alone (`ofItem_of_parts`). An item that has no parts, or whose name
spells no text, is `Malformed` in one way.

So reading a list of arguments is exact in both directions. It gives the arguments that the items denote,
one for each, or the failure of the first malformed item (`listOf_eq_ok_iff`, `listOf_eq_error_iff`). That
all spellings of an argument are interchangeable, item by item, is a case of this, and so is that what has
been read is read as itself (`listOf_asItems`).
-/

namespace Subgraph

/-! ## Names -/

namespace Value

variable {v value : Value} {s t field : String} {f : RecordFault}

/-- The value that a member of an enumeration stands for. -/
inductive StandsFor : Value → Value → Prop where
  | symbol (member : Member) : StandsFor (.symbol member) member.value
  | numeral (name : String) (n : Int) : StandsFor (.numeral name n) (.int n)

/-- The values that a field of a record takes for a text: the text itself, the bytes that encode it, and a
member of an enumeration that stands for a value with this text. -/
inductive Spells : Value → String → Prop where
  | text (s : String) : Spells (.text s) s
  | bytes (s : String) : Spells (.bytes s.toByteArray.data.toList) s
  | member {v value : Value} (h : v.StandsFor value) (hroom : value.plainFrames ≤ stackRoom)
    (hshort : value.plainWithinDigitLimit = true) : Spells v value.plain

/-- What is wrong with a member of an enumeration whose value has no text: it is too deep, or an integer in
it is too long. -/
def memberFault (value : Value) : RecordFault :=
  if stackRoom < value.plainFrames then .unwritable .deepNesting else .unwritable .longInteger

/-- What is wrong with a name that spells no text. -/
def nameFault : Value → RecordFault
  | .bytes _ => .notEncoded "name"
  | .symbol member => memberFault member.value
  | .numeral _ n => memberFault (.int n)
  | _ => .notText "name"

/-- Bytes are read as the text that they encode. -/
theorem decoded?_eq_some_iff {bs : List UInt8} :
    decoded? bs = some s ↔ s.toByteArray.data.toList = bs := by
  unfold decoded? String.fromUTF8?
  constructor
  · intro h
    split at h
    · injection h with h
      rw [← h]
      rfl
    · exact absurd h (by simp)
  · rintro rfl
    exact dif_pos s.isValidUTF8

/-- A member of an enumeration is read as the value that it stands for is written. -/
theorem StandsFor.fieldText (h : v.StandsFor value) : v.fieldText field = memberText value := by
  cases h <;> rfl

theorem memberText_eq_ok_iff :
    memberText value = .ok s ↔
      value.plainFrames ≤ stackRoom ∧ value.plainWithinDigitLimit = true ∧ value.plain = s := by
  unfold memberText
  split
  · next hdeep => simp [Nat.not_le_of_lt hdeep]
  · next hroom =>
    split
    · next hshort => simp [Nat.le_of_not_lt hroom, hshort]
    · next hlong => simp [hlong]

theorem memberText_eq_error (h : memberText value = .error f) : f = memberFault value := by
  unfold memberText at h
  unfold memberFault
  split at h
  · next hdeep => rw [if_pos hdeep, Except.error.inj h]
  · next hroom =>
    split at h
    · exact absurd h (by simp)
    · rw [if_neg hroom, Except.error.inj h]

/-- What a member of an enumeration is read as is spelled by it. -/
theorem StandsFor.spells (h : v.StandsFor value) (hread : v.fieldText field = .ok s) : v.Spells s := by
  obtain ⟨hroom, hshort, rfl⟩ := memberText_eq_ok_iff.mp (h.fieldText.symm.trans hread)
  exact .member h hroom hshort

/-- **A name is read iff it spells a text.** -/
theorem fieldText_eq_ok_iff : v.fieldText field = .ok s ↔ v.Spells s := by
  constructor
  · intro h
    cases v with
    | text t =>
      obtain rfl : t = s := Except.ok.inj h
      exact .text t
    | bytes bs =>
      rw [fieldText] at h
      cases hbs : decoded? bs with
      | some t =>
        rw [hbs] at h
        obtain rfl : t = s := Except.ok.inj h
        obtain rfl := decoded?_eq_some_iff.mp hbs
        exact .bytes t
      | none =>
        rw [hbs] at h
        exact absurd h (by simp)
    | symbol member => exact (StandsFor.symbol member).spells h
    | numeral name n => exact (StandsFor.numeral name n).spells h
    | _ => exact absurd h (by simp [fieldText])
  · rintro (_ | _ | ⟨hmember, hroom, hshort⟩)
    · rfl
    · rw [fieldText, decoded?_eq_some_iff.mpr rfl]
    · rw [hmember.fieldText, memberText_eq_ok_iff]
      exact ⟨hroom, hshort, rfl⟩

/-- A name that is not read has the fault of its kind. -/
theorem fieldText_eq_error (h : v.fieldText "name" = .error f) : f = v.nameFault := by
  cases v with
  | text s => exact absurd h (by simp [fieldText])
  | bytes bs =>
    rw [fieldText] at h
    cases hbs : decoded? bs with
    | some t =>
      rw [hbs] at h
      exact absurd h (by simp)
    | none =>
      rw [hbs] at h
      exact (Except.error.inj h).symm
  | symbol | numeral => exact memberText_eq_error h
  | _ => exact (Except.error.inj h).symm

/-- A value spells one text. -/
theorem Spells.unique (h : v.Spells s) (h' : v.Spells t) : s = t := by
  have hs : v.fieldText "name" = .ok s := fieldText_eq_ok_iff.mpr h
  have ht : v.fieldText "name" = .ok t := fieldText_eq_ok_iff.mpr h'
  exact Except.ok.inj (hs.symm.trans ht)

end Value

namespace Argument

variable {item name value v : Value} {items : List Value} {a : Argument} {args : List Argument}
  {f : Failure}

/-! ## Items -/

/-- An argument as an item of its own. -/
def asItem (a : Argument) : Value := .argument a.name a.value

/-- An item is unpacked into what it yields unless it has a name of its own: a mapping or an argument. -/
def Unpacks (item : Value) (items : List Value) : Prop :=
  (∀ entries, item ≠ .dict entries) ∧ (∀ n v, item ≠ .argument n v) ∧ item.items? = some items

/-- The name and the value that an item has, whatever the name is. -/
inductive Parts : Value → Value → Value → Prop where
  | argument (n : String) (value : Value) : Parts (.argument n value) (.text n) value
  | mapping {entries : List (Value × Value)} {name : Value}
    (h : Value.lookup? entries "name" = some name) :
    Parts (.dict entries) name ((Value.lookup? entries "value").getD .null)
  | pair {item name value : Value} (h : Unpacks item [name, value]) : Parts item name value

/-- The argument that an item denotes. -/
def Denotes (item : Value) (a : Argument) : Prop := ∃ name, Parts item name a.value ∧ name.Spells a.name

/-- What is wrong with an item that denotes no argument. -/
inductive Malformed : Value → Failure → Prop where
  | nameless {entries : List (Value × Value)} (h : Value.lookup? entries "name" = none) :
    Malformed (.dict entries) (.missingKey "name")
  | few {item : Value} {items : List Value} (h : Unpacks item items) (hlen : items.length < 2) :
    Malformed item (.misuse (.tooFewItems items.length))
  | many {item : Value} {items : List Value} (h : Unpacks item items) (hlen : 2 < items.length) :
    Malformed item (.misuse .tooManyItems)
  | whole {item : Value} (h : item.items? = none) : Malformed item (.misuse (.notPair item.kind))
  | name {item name value : Value} (h : Parts item name value) (hname : ∀ s, ¬ name.Spells s) :
    Malformed item (.refusedRecord [name.nameFault])

/-- Loose parts make an argument iff the name spells its name. -/
theorem ofParts_eq_ok_iff : ofParts name value = .ok a ↔ name.Spells a.name ∧ a.value = value := by
  unfold ofParts
  cases hname : name.fieldText "name" with
  | ok s =>
    have hs : name.Spells s := Value.fieldText_eq_ok_iff.mp hname
    constructor
    · intro h
      obtain rfl : (⟨s, value⟩ : Argument) = a := Except.ok.inj h
      exact ⟨hs, rfl⟩
    · rintro ⟨hspells, rfl⟩
      rw [hs.unique hspells]
  | error fault =>
    constructor
    · intro h
      exact absurd h (by simp)
    · rintro ⟨hspells, -⟩
      exact absurd (hname.symm.trans (Value.fieldText_eq_ok_iff.mpr hspells)) (by simp)

/-- They make none iff the name spells nothing. -/
theorem ofParts_eq_error_iff :
    ofParts name value = .error f ↔ (∀ s, ¬ name.Spells s) ∧ f = .refusedRecord [name.nameFault] := by
  unfold ofParts
  cases hname : name.fieldText "name" with
  | ok s =>
    have hs : name.Spells s := Value.fieldText_eq_ok_iff.mp hname
    constructor
    · intro h
      exact absurd h (by simp)
    · rintro ⟨hno, -⟩
      exact absurd hs (hno s)
  | error fault =>
    obtain rfl := Value.fieldText_eq_error hname
    constructor
    · intro h
      refine ⟨fun s hs => ?_, (Except.error.inj h).symm⟩
      exact absurd (hname.symm.trans (Value.fieldText_eq_ok_iff.mpr hs)) (by simp)
    · rintro ⟨-, rfl⟩
      rfl

/-- An item that is unpacked is read as the pair that it should be. -/
theorem ofItem_of_unpacks (h : Unpacks item items) : ofItem item = ofPair items := by
  obtain ⟨hdict, hargument, hitems⟩ := h
  unfold ofItem
  split
  · next n v => exact absurd rfl (hargument n v)
  · next entries => exact absurd rfl (hdict entries)
  · rw [hitems]

/-- **An item is read by its parts**, whatever has them. -/
theorem ofItem_of_parts (h : Parts item name value) : ofItem item = ofParts name value := by
  cases h with
  | argument n => rfl
  | mapping hname =>
    rw [ofItem, hname]
  | pair hpair => exact ofItem_of_unpacks hpair

/-- An item has parts, or is malformed for want of them. -/
theorem parts_or_malformed (item : Value) :
    (∃ name value, Parts item name value) ∨ ∃ f, Malformed item f := by
  -- arguments and mappings have ways of their own, everything else is unpacked
  by_cases hargument : ∃ n v, item = .argument n v
  · obtain ⟨n, v, rfl⟩ := hargument
    exact Or.inl ⟨_, _, .argument n v⟩
  by_cases hdict : ∃ entries, item = .dict entries
  · obtain ⟨entries, rfl⟩ := hdict
    cases hname : Value.lookup? entries "name" with
    | some name => exact Or.inl ⟨_, _, .mapping hname⟩
    | none => exact Or.inr ⟨_, .nameless hname⟩
  · push Not at hargument hdict
    cases hitems : item.items? with
    | none => exact Or.inr ⟨_, .whole hitems⟩
    | some items =>
      have hunpacks : Unpacks item items := ⟨hdict, hargument, hitems⟩
      match items, hunpacks with
      | [], h => exact Or.inr ⟨_, .few h (by simp)⟩
      | [_], h => exact Or.inr ⟨_, .few h (by simp)⟩
      | [name, value], h => exact Or.inl ⟨name, value, .pair h⟩
      | _ :: _ :: _ :: _, h => exact Or.inr ⟨_, .many h (by simp)⟩

/-- A malformed item is refused for what is wrong with it. -/
theorem ofItem_of_malformed (h : Malformed item f) : ofItem item = .error f := by
  cases h with
  | nameless hname => simp [ofItem, hname]
  | @few _ items hunpacks hlen =>
    rw [ofItem_of_unpacks hunpacks]
    match items, hlen with
    | [], _ => rfl
    | [_], _ => rfl
    | _ :: _ :: _, hlen => exact absurd hlen (by simp)
  | @many _ items hunpacks hlen =>
    rw [ofItem_of_unpacks hunpacks]
    match items, hlen with
    | [], hlen | [_], hlen | [_, _], hlen => exact absurd hlen (by simp)
    | _ :: _ :: _ :: _, _ => rfl
  | whole hitems =>
    -- what yields nothing is neither an argument nor a mapping
    unfold ofItem
    split
    · simp [Value.items?] at hitems
    · simp [Value.items?] at hitems
    · rw [hitems]
  | name hparts hname =>
    rw [ofItem_of_parts hparts]
    exact ofParts_eq_error_iff.mpr ⟨hname, rfl⟩

/-- **An item is read as the argument that it denotes.** -/
theorem ofItem_eq_ok_iff : ofItem item = .ok a ↔ Denotes item a := by
  constructor
  · intro h
    rcases parts_or_malformed item with ⟨name, value, hparts⟩ | ⟨f, hf⟩
    · rw [ofItem_of_parts hparts] at h
      obtain ⟨hname, rfl⟩ := ofParts_eq_ok_iff.mp h
      exact ⟨name, hparts, hname⟩
    · exact absurd (h.symm.trans (ofItem_of_malformed hf)) (by simp)
  · rintro ⟨name, hparts, hname⟩
    rw [ofItem_of_parts hparts]
    exact ofParts_eq_ok_iff.mpr ⟨hname, rfl⟩

/-- **Any other item is refused for what is wrong with it.** -/
theorem ofItem_eq_error_iff : ofItem item = .error f ↔ Malformed item f := by
  refine ⟨fun h => ?_, ofItem_of_malformed⟩
  rcases parts_or_malformed item with ⟨name, value, hparts⟩ | ⟨g, hg⟩
  · rw [ofItem_of_parts hparts] at h
    obtain ⟨hname, rfl⟩ := ofParts_eq_error_iff.mp h
    exact .name hparts hname
  · rw [Except.error.inj (h.symm.trans (ofItem_of_malformed hg))]
    exact hg

/-! ## Lists of arguments -/

/-- The items that a value gives as arguments: none if it counts as false, the entries of a mapping as
pairs, and otherwise what it yields. -/
inductive Gives : Value → List Value → Prop where
  | nothing {v : Value} (h : v.isTrue = false) : Gives v []
  | mapping (entries : List (Value × Value)) :
    Gives (.dict entries) (entries.map fun e => .tuple [e.1, e.2])
  | sequence {v : Value} {items : List Value} (htrue : v.isTrue = true)
    (hdict : ∀ entries, v ≠ .dict entries) (h : v.items? = some items) : Gives v items

/-- The failure of the first malformed item. -/
def FirstMalformed (items : List Value) (f : Failure) : Prop :=
  ∃ item, IsFirst (fun item => ∃ f, Malformed item f) items item ∧ Malformed item f

/-- **Arguments are read item by item**, in whatever the items are given. -/
theorem listOf_of_gives (h : Gives v items) : listOf v = items.mapM ofItem := by
  unfold listOf
  cases h with
  | nothing hfalse =>
    rw [hfalse]
    rfl
  | mapping entries =>
    cases entries with
    | nil => rfl
    | cons e entries =>
      -- an entry is read like the pair of its key and its value
      rw [List.mapM_map]
      rfl
  | sequence htrue hdict hitems =>
    rw [if_pos htrue]
    split
    · next entries => exact absurd rfl (hdict entries)
    · rw [hitems]

/-- A value that gives no items is not gone through. -/
theorem listOf_of_not_gives (h : ∀ items, ¬ Gives v items) :
    listOf v = .error (.misuse (.notIterable v.kind)) := by
  have htrue : v.isTrue = true := by
    by_contra hfalse
    exact h [] (.nothing (by simpa using hfalse))
  unfold listOf
  rw [if_pos htrue]
  split
  · next entries => exact absurd (.mapping entries) (h _)
  · next hdict =>
    cases hitems : v.items? with
    | none => rfl
    | some items => exact absurd (.sequence htrue hdict hitems) (h items)

/-- **A list of arguments is read iff every item denotes one.** -/
theorem listOf_eq_ok_iff (h : Gives v items) :
    listOf v = .ok args ↔ List.Forall₂ Denotes items args := by
  rw [listOf_of_gives h, mapM_eq_ok_iff]
  simp only [ofItem_eq_ok_iff]

/-- **Otherwise the first malformed item decides.** -/
theorem listOf_eq_error_iff (h : Gives v items) : listOf v = .error f ↔ FirstMalformed items f := by
  rw [listOf_of_gives h, mapM_eq_error_iff]
  simp only [ofItem_eq_error_iff, FirstMalformed]

/-- Items of a list or a tuple are given as they are. -/
theorem gives_list (items : List Value) : Gives (.list items) items := by
  cases items with
  | nil => exact .nothing rfl
  | cons item items => exact .sequence rfl (by simp) rfl

theorem gives_tuple (items : List Value) : Gives (.tuple items) items := by
  cases items with
  | nil => exact .nothing rfl
  | cons item items => exact .sequence rfl (by simp) rfl

/-! ## Spellings -/

/-- The spellings of an argument as an item: a pair, a mapping, where a null value may be left out, and
the argument itself. -/
inductive Spelling (a : Argument) : Value → Prop where
  | tuple : Spelling a (.tuple [.text a.name, a.value])
  | list : Spelling a (.list [.text a.name, a.value])
  | mapping {entries : List (Value × Value)} (hname : Value.lookup? entries "name" = some (.text a.name))
    (hvalue : Value.lookup? entries "value" = some a.value) : Spelling a (.dict entries)
  | bare {entries : List (Value × Value)} (hname : Value.lookup? entries "name" = some (.text a.name))
    (hvalue : Value.lookup? entries "value" = none) (hnull : a.value = .null) : Spelling a (.dict entries)
  | argument : Spelling a a.asItem

/-- Every spelling has the parts of the argument. -/
theorem Spelling.parts (h : Spelling a item) : Parts item (.text a.name) a.value := by
  cases h with
  | tuple | list => exact .pair ⟨by simp, by simp, rfl⟩
  | mapping hname hvalue => simpa [hvalue] using Parts.mapping hname
  | bare hname hvalue hnull => simpa [hvalue, hnull] using Parts.mapping hname
  | argument => exact .argument a.name a.value

/-- A spelling denotes the argument. -/
theorem Spelling.denotes (h : Spelling a item) : Denotes item a :=
  ⟨.text a.name, h.parts, .text a.name⟩

/-- Arguments that have been read are read as themselves. -/
theorem listOf_asItems (args : List Argument) : listOf (.tuple (args.map asItem)) = .ok args := by
  rw [listOf_eq_ok_iff (gives_tuple _), List.forall₂_map_left_iff, List.forall₂_same]
  intro a _
  exact Spelling.argument.denotes

/-! ## Mappings -/

/-- Entries with names that are not there yet go to the end, in order. -/
theorem foldl_put_of_nodup (args : List Argument) (entries : List (Value × Value))
    (hnodup : (args.map Argument.name).Nodup)
    (hnew : ∀ e ∈ entries, ∀ a ∈ args, e.1.same (.text a.name) = false) :
    (args.map fun a => (Value.text a.name, a.value)).foldl (fun es e => Value.put es e.1 e.2) entries =
      entries ++ args.map fun a => (Value.text a.name, a.value) := by
  -- the entries grow with every argument, and the later names are new to each of them
  induction args generalizing entries with
  | nil => simp
  | cons a args ih =>
    rw [List.map_cons, List.nodup_cons] at hnodup
    have hput : Value.put entries (.text a.name) a.value = entries ++ [(.text a.name, a.value)] := by
      refine if_neg ?_
      simpa using fun k v he => hnew (k, v) he a List.mem_cons_self
    rw [List.map_cons, List.foldl_cons, hput, ih _ hnodup.2, List.append_assoc]
    · rfl
    · intro e he b hb
      rcases List.mem_append.mp he with he | he
      · exact hnew e he b (List.mem_cons_of_mem a hb)
      · obtain rfl := List.mem_singleton.mp he
        have hne : a.name ≠ b.name := fun heq => hnodup.1 (heq ▸ List.mem_map_of_mem hb)
        simpa [Value.same] using hne

/-- A mapping keeps the entries that are put into it if their names are distinct. -/
theorem dictOf_of_nodup (h : (args.map Argument.name).Nodup) :
    Value.dictOf (args.map fun a => (.text a.name, a.value)) =
      .dict (args.map fun a => (.text a.name, a.value)) := by
  unfold Value.dictOf
  rw [foldl_put_of_nodup args [] h (by simp), List.nil_append]

/-- A mapping is a spelling of a list of arguments with distinct names. -/
theorem listOf_dictOf (h : (args.map Argument.name).Nodup) :
    listOf (Value.dictOf (args.map fun a => (.text a.name, a.value))) = .ok args := by
  rw [dictOf_of_nodup h, listOf_eq_ok_iff (.mapping _), List.map_map, List.forall₂_map_left_iff,
    List.forall₂_same]
  intro a _
  exact Spelling.tuple.denotes

/-! ## The outcome -/

/-- **Spellings of arguments are interchangeable.** However the items of a list or a tuple spell
arguments, each in a way of its own, these are the arguments that are read, one for each item and in their
order; a mapping gives them too, if their names are distinct. What has been read is read as itself. What is
given is read iff every item denotes an argument, and is otherwise refused with the failure of the first
that is malformed. -/
theorem spellings_interchangeable :
    (∀ args items, List.Forall₂ Spelling args items →
      listOf (.list items) = .ok args ∧ listOf (.tuple items) = .ok args) ∧
    (∀ args : List Argument, (args.map Argument.name).Nodup →
      listOf (Value.dictOf (args.map fun a => (.text a.name, a.value))) = .ok args) ∧
    (∀ v, (listOf v >>= fun args => listOf (.tuple (args.map asItem))) = listOf v) ∧
    ∀ v,
      (∀ items, Gives v items →
        (∀ args, listOf v = .ok args ↔ List.Forall₂ Denotes items args) ∧
        ∀ f, listOf v = .error f ↔ FirstMalformed items f) ∧
      ((∀ items, ¬ Gives v items) → listOf v = .error (.misuse (.notIterable v.kind))) := by
  refine ⟨?_, ?_, ?_, ?_⟩
  · intro args items h
    have hdenotes : List.Forall₂ Denotes items args :=
      h.flip.imp fun _ _ hspelling => hspelling.denotes
    exact ⟨(listOf_eq_ok_iff (gives_list items)).mpr hdenotes,
      (listOf_eq_ok_iff (gives_tuple items)).mpr hdenotes⟩
  · intro args hnodup
    exact listOf_dictOf hnodup
  · intro v
    simp only [listOf_asItems, bind_ok_self]
  · intro v
    constructor
    · intro items h
      exact ⟨fun args => listOf_eq_ok_iff h, fun f => listOf_eq_error_iff h⟩
    · exact listOf_of_not_gives

/-- Four arguments in four spellings, and a record without a name that stands before another fault. -/
theorem spellings_interchangeable_mixed :
    listOf (.list [.tuple [.text "a", .int 1], .dict [(.text "value", .int 2), (.text "name", .text "b")],
        .dict [(.text "name", .text "c")], .argument "d" .null]) =
      .ok [⟨"a", .int 1⟩, ⟨"b", .int 2⟩, ⟨"c", .null⟩, ⟨"d", .null⟩] ∧
    listOf (Value.dictOf [(.text "b", .int 1), (.text "a", .int 2)]) = .ok [⟨"b", .int 1⟩, ⟨"a", .int 2⟩] ∧
    listOf (.tuple [.text "xy", .dict [(.text "value", .int 2)], .text "abc"]) =
      .error (.missingKey "name") ∧
    listOf (.int 5) = .error (.misuse (.notIterable "int")) := by
  refine ⟨?_, ?_, ?_, ?_⟩
  · refine (spellings_interchangeable.1 _ _ ?_).1
    exact .cons .tuple (.cons (.mapping rfl rfl) (.cons (.bare rfl rfl rfl) (.cons .argument .nil)))
  · exact spellings_interchangeable.2.1 [⟨"b", .int 1⟩, ⟨"a", .int 2⟩] (by decide)
  · refine ((spellings_interchangeable.2.2.2 _).1 _ (gives_tuple _)).2 _ |>.mpr ?_
    refine ⟨.dict [(.text "value", .int 2)], ⟨⟨_, .nameless rfl⟩, [.text "xy"], [.text "abc"], rfl, ?_⟩,
      .nameless rfl⟩
    simp only [List.mem_singleton, forall_eq, not_exists, ← ofItem_eq_error_iff]
    intro f
    exact fun h => absurd h (by simp [ofItem, Value.items?, ofPair, ofParts, Value.fieldText])
  · refine (spellings_interchangeable.2.2.2 _).2 ?_
    rintro items (h | _ | ⟨_, _, h⟩)
    · exact absurd h (by decide)
    · exact absurd h (by simp [Value.items?])

/-- **A name need not be given as a text**: the byte of `n` names an argument as well, and so does a member
of an enumeration, by the value that it stands for. -/
theorem listOf_of_loose_names :
    (∀ s, Value.bytes [0x6e] ≠ .text s) ∧ (∀ s, Value.symbol (.mk "M" (.text "m")) ≠ .text s) ∧
      listOf (.list [.tuple [.bytes [0x6e], .int 1], .tuple [.symbol (.mk "M" (.text "m")), .int 2]]) =
        .ok [⟨"n", .int 1⟩, ⟨"m", .int 2⟩] :=
  ⟨by simp, by simp, by rfl⟩

end Argument

end Subgraph
