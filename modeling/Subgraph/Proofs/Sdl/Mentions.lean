import Subgraph.Proofs.Sdl.Body

/-!
# `Sdl.Mentions` — the types that a document names

A document refers to types by their names. This module takes documents apart into `Piece`s, of which
those that are names of types are told from all other text. Pieces are made of a schema without its
graph: where a type is referred to there is its index, and only spelling the pieces looks up its name.
Spelled in the graph they are the document (`document_spelled`), so what they name is what the document
mentions.

Contents

* `Piece`, `spelled`, `named` — pieces, and what is read off them;
* `typePieces`, `documentPieces` — the pieces of a type and of a document;
* `type_spelled`, `document_spelled` — spelled, they are what is printed;
* `mem_named_typePieces` — a type names what it refers to;
* `Mentions`, `mem_named_documentPieces` — a document names what it mentions, which is told by cases;
* `piecesAt`, `documentAt_spelled` — the pieces of the document of a schema at a version.
-/

namespace Subgraph
namespace Sdl

/-! ## Pieces -/

/-- A stretch of a document: text of its own, the name of a type that is referred to, or the default
value of an argument or an input field. -/
inductive Piece where
  | text (s : String)
  | name (id : TypeId)
  | default (a : InputValue)

namespace Piece

/-- A piece in a graph. -/
def spell (g : TypeGraph) : Piece → String
  | text s => s
  | name id => g.nameOf id
  | default a => shown (defaultText g a)

/-- The type that a piece names; a default value may name enum values, but no type. -/
def named? : Piece → Option TypeId
  | name id => some id
  | text _ | default _ => none

end Piece

/-- Pieces in a graph, one behind the other. -/
def spelled (g : TypeGraph) (ps : List Piece) : String := String.join (ps.map (Piece.spell g))

/-- The types that pieces name. -/
def named (ps : List Piece) : List TypeId := ps.filterMap Piece.named?

/-- Pieces of items with a text between them. -/
def joinedPieces (sep : String) (items : List (List Piece)) : List Piece :=
  [Piece.text sep].intercalate items

section

variable (g : TypeGraph)

@[simp] theorem spelled_nil : spelled g [] = "" := rfl
@[simp] theorem spelled_cons (p : Piece) (ps : List Piece) :
    spelled g (p :: ps) = p.spell g ++ spelled g ps := String.join_cons
@[simp] theorem spelled_append (ps qs : List Piece) :
    spelled g (ps ++ qs) = spelled g ps ++ spelled g qs := by
  rw [spelled, List.map_append, String.join_append, spelled, spelled]

@[simp] theorem named_nil : named [] = [] := rfl
@[simp] theorem named_text (s : String) (ps : List Piece) : named (.text s :: ps) = named ps := rfl
@[simp] theorem named_default (a : InputValue) (ps : List Piece) :
    named (.default a :: ps) = named ps := rfl
@[simp] theorem named_name (id : TypeId) (ps : List Piece) :
    named (.name id :: ps) = id :: named ps := rfl
@[simp] theorem named_append (ps qs : List Piece) : named (ps ++ qs) = named ps ++ named qs :=
  List.filterMap_append

@[simp] theorem spelled_joinedPieces (sep : String) (items : List (List Piece)) :
    spelled g (joinedPieces sep items) = sep.intercalate (items.map (spelled g)) := by
  unfold joinedPieces
  induction items with
  | nil => rfl
  | cons x xs ih =>
    cases xs with
    | nil => simp
    | cons y ys =>
      rw [List.intercalate_cons_cons, spelled_append, spelled_append, ih, List.map_cons,
        List.map_cons, List.map_cons, String.intercalate_cons_cons]
      simp [Piece.spell]

@[simp] theorem named_joinedPieces (sep : String) (items : List (List Piece)) :
    named (joinedPieces sep items) = items.flatMap named := by
  unfold joinedPieces
  induction items with
  | nil => rfl
  | cons x xs ih =>
    cases xs with
    | nil => simp
    | cons y ys =>
      rw [List.intercalate_cons_cons, named_append, named_append, ih]
      simp

end

/-! ## Pieces of parts -/

/-- A reference, with the marks of its wrappers. -/
def refPieces : TypeRef → List Piece
  | .named id => [.name id]
  | .list of => .text "[" :: (refPieces of ++ [.text "]"])
  | .nonNull of => refPieces of ++ [.text "!"]

/-- An argument or an input field. -/
def inputValuePieces (a : InputValue) : List Piece :=
  .text (a.name ++ ": ") :: (refPieces a.type ++ [.default a, .text (deprecated a.deprecation)])

/-- Pieces of items, each of which may depend on being the first. -/
def eachPieces {α : Type} (pieces : Bool → α → List Piece) (first : Bool) : List α → List (List Piece)
  | [] => []
  | x :: xs => pieces first x :: eachPieces pieces false xs

/-- An argument or an input field on a line of its own. -/
def valueLinePieces (indent : String) (first : Bool) (a : InputValue) : List Piece :=
  .text (description a.description indent first ++ indent) :: inputValuePieces a

/-- Arguments in parentheses. -/
def argumentsPieces (indent : String) (as : List InputValue) : List Piece :=
  if as.isEmpty then []
  else if as.all fun a => !isDescribed a.description then
    .text "(" ::
      (joinedPieces ", " (eachPieces (fun _ a => inputValuePieces a) true as) ++ [.text ")"])
  else
    .text "(\n" ::
      (joinedPieces "\n" (eachPieces (valueLinePieces ("  " ++ indent)) true as) ++
        [.text ("\n" ++ indent ++ ")")])

/-- A field of an object or an interface. -/
def fieldPieces (first : Bool) (f : Field) : List Piece :=
  .text (description f.description "  " first ++ "  " ++ f.name) ::
    (argumentsPieces "  " f.arguments ++
      .text ": " :: (refPieces f.type ++ [.text (deprecated f.deprecation)]))

/-- Types that are listed behind a word, with a text between them; nothing for no types. -/
def listPieces (word sep : String) (ids : List TypeId) : List Piece :=
  if ids.isEmpty then []
  else .text word :: joinedPieces sep (ids.map fun id => [.name id])

/-- Items in braces, each on lines of its own; nothing for no items. -/
def blockPieces (items : List (List Piece)) : List Piece :=
  if items.isEmpty then []
  else .text " \x7b\n" :: (joinedPieces "\n" items ++ [.text "\n\x7d"])

/-! ## Pieces of types and documents -/

/-- A type. -/
def typePieces (t : TypeDef) : List Piece :=
  .text (typeHead t) ::
    match t.body with
    | .scalar url => [.text (specifiedBy url)]
    | .object interfaces fields | .interface interfaces fields =>
      listPieces " implements " " & " interfaces ++ blockPieces (eachPieces fieldPieces true fields)
    | .union members => listPieces " = " " | " members
    | .enum values => [.text (block (enumValueTexts true values))]
    | .inputObject oneOf fields =>
      .text (if oneOf then " @oneOf" else "") ::
        blockPieces (eachPieces (valueLinePieces "  ") true fields)

/-- A declared directive. -/
def directivePieces (d : DirectiveDeclaration) : List Piece :=
  .text (description d.description "" true ++ "directive @" ++ d.name) ::
    (argumentsPieces "" d.arguments ++
      [.text (deprecated d.deprecation ++ (if d.repeatable then " repeatable" else "") ++ " on " ++
        " | ".intercalate (d.locations.map Location.name))])

/-- The definition of a schema. -/
def schemaPieces (s : Schema) : List Piece :=
  .text (description s.description "" true ++ "schema \x7b\n") ::
    (joinedPieces "\n" ((rootTypes s).map fun r => [.text ("  " ++ r.1 ++ ": "), .name r.2]) ++
      [.text "\n\x7d"])

/-- A document, with the definition of the schema or without, and given types. -/
def documentPieces (s : Schema) (defined : Bool) (types : List TypeDef) : List Piece :=
  joinedPieces "\n\n"
    ((if defined then [schemaPieces s] else []) ++ (statedDirectives s).map directivePieces ++
      types.map typePieces)

/-! ## What is printed -/

section

variable {g : TypeGraph}

theorem ref_spelled (r : TypeRef) : spelled g (refPieces r) = g.refText r := by
  induction r with
  | named id => simp [refPieces, Piece.spell, TypeGraph.refText]
  | list of ih => simp [refPieces, Piece.spell, TypeGraph.refText, ih, String.append_assoc]
  | nonNull of ih => simp [refPieces, Piece.spell, TypeGraph.refText, ih]

theorem inputValue_spelled {a : InputValue} {text : String} (h : inputValueText g a = .ok text) :
    spelled g (inputValuePieces a) = text := by
  obtain ⟨d, hd, h⟩ := bind_eq_ok.mp h
  injection h with h
  subst h
  simp [inputValuePieces, Piece.spell, ref_spelled, hd, String.append_assoc]

/-- Items are printed as their pieces are spelled. -/
theorem each_spelled {α : Type} {text : Bool → α → Except Failure String}
    {pieces : Bool → α → List Piece}
    (hitem : ∀ first x {t}, text first x = .ok t → spelled g (pieces first x) = t) {first : Bool}
    {xs : List α} {ts : List String} (h : eachText text first xs = .ok ts) :
    (eachPieces pieces first xs).map (spelled g) = ts := by
  induction xs generalizing first ts with
  | nil => exact Except.ok.inj h
  | cons x xs ih =>
    obtain ⟨t, ht, h⟩ := bind_eq_ok.mp h
    obtain ⟨ts', hts, h⟩ := bind_eq_ok.mp h
    injection h with h
    rw [eachPieces, List.map_cons, hitem first x ht, ih hts, h]

theorem valueLine_spelled {indent : String} (first : Bool) (a : InputValue) {text : String}
    (h : (do let t ← inputValueText g a
             .ok (description a.description indent first ++ indent ++ t)) = .ok text) :
    spelled g (valueLinePieces indent first a) = text := by
  obtain ⟨t, ht, h⟩ := bind_eq_ok.mp h
  injection h with h
  rw [valueLinePieces, spelled_cons, inputValue_spelled ht, Piece.spell, h]

theorem arguments_spelled {indent : String} {as : List InputValue} {text : String}
    (h : argumentsText g indent as = .ok text) : spelled g (argumentsPieces indent as) = text := by
  unfold argumentsText at h
  unfold argumentsPieces
  split
  · next hnone =>
    rw [if_pos hnone] at h
    injection h
  · next hsome =>
    rw [if_neg hsome] at h
    split
    · next hplain =>
      rw [if_pos hplain] at h
      obtain ⟨ts, hts, h⟩ := bind_eq_ok.mp h
      injection h with h
      have hspelled := each_spelled (fun _ _ _ ht => inputValue_spelled ht) hts
      simp [Piece.spell, hspelled, ← h, String.append_assoc]
    · next hdescribed =>
      rw [if_neg hdescribed] at h
      obtain ⟨ts, hts, h⟩ := bind_eq_ok.mp h
      injection h with h
      have hspelled := each_spelled (fun first a _ ht => valueLine_spelled first a ht) hts
      simp [Piece.spell, hspelled, ← h, String.append_assoc]

theorem field_spelled (first : Bool) (f : Field) {text : String}
    (h : fieldText g first f = .ok text) : spelled g (fieldPieces first f) = text := by
  obtain ⟨as, has, h⟩ := bind_eq_ok.mp h
  injection h with h
  subst h
  simp [fieldPieces, Piece.spell, ref_spelled, arguments_spelled has, String.append_assoc]

theorem list_spelled (word sep : String) (ids : List TypeId) :
    spelled g (listPieces word sep ids) =
      if ids.isEmpty then "" else word ++ sep.intercalate (ids.map g.nameOf) := by
  unfold listPieces
  split
  · rfl
  · have hnames : spelled g ∘ (fun id => [Piece.name id]) = g.nameOf := by
      funext id
      simp [Piece.spell]
    simp [Piece.spell, hnames]

theorem block_spelled (items : List (List Piece)) :
    spelled g (blockPieces items) = block (items.map (spelled g)) := by
  unfold blockPieces block
  cases items with
  | nil => rfl
  | cons x xs => simp [Piece.spell, String.append_assoc]

/-- **A type is printed as its pieces are spelled.** -/
theorem type_spelled {t : TypeDef} {text : String} (h : typeText g t = .ok text) :
    spelled g (typePieces t) = text := by
  unfold typeText at h
  unfold typePieces
  cases hb : t.body with
  | scalar url =>
    simp only [hb, Except.ok.injEq] at h
    simp [Piece.spell, ← h]
  | enum values =>
    simp only [hb, Except.ok.injEq] at h
    simp [Piece.spell, ← h]
  | union members =>
    simp only [hb, Except.ok.injEq] at h
    simp [Piece.spell, list_spelled, membersText, ← h]
  | object interfaces fields | interface interfaces fields =>
    simp only [hb] at h
    obtain ⟨items, hitems, h⟩ := bind_eq_ok.mp h
    injection h with h
    have hspelled := each_spelled (fun first f _ ht => field_spelled first f ht) hitems
    simp [Piece.spell, list_spelled, implementsText, block_spelled, hspelled, ← h,
      String.append_assoc]
  | inputObject oneOf fields =>
    simp only [hb] at h
    obtain ⟨items, hitems, h⟩ := bind_eq_ok.mp h
    injection h with h
    have hspelled := each_spelled (fun first a _ ht => valueLine_spelled first a ht) hitems
    simp [Piece.spell, block_spelled, hspelled, ← h, String.append_assoc]

theorem directive_spelled {d : DirectiveDeclaration} {text : String}
    (h : directiveText g d = .ok text) : spelled g (directivePieces d) = text := by
  obtain ⟨as, has, h⟩ := bind_eq_ok.mp h
  injection h with h
  subst h
  simp [directivePieces, Piece.spell, arguments_spelled has, String.append_assoc]

theorem schemaDefinition_spelled {s : Schema} {text : String}
    (h : schemaDefinition g s = some text) : spelled g (schemaPieces s) = text := by
  unfold schemaDefinition at h
  split at h
  · exact absurd h (by simp)
  · injection h with h
    have hlines : ((rootTypes s).map fun r => [Piece.text ("  " ++ r.1 ++ ": "), .name r.2]).map
        (spelled g) = (rootTypes s).map fun r => "  " ++ r.1 ++ ": " ++ g.nameOf r.2 := by
      simp [Piece.spell]
    rw [schemaPieces, spelled_cons, spelled_append, spelled_joinedPieces, hlines]
    simp [Piece.spell, ← h, String.append_assoc]

/-- **A document is printed as its pieces are spelled**, if each of its types is printed as some type
is. -/
theorem document_spelled {s : Schema} {text : TypeDef → Except Failure String}
    {form : TypeDef → TypeDef}
    (htext : ∀ t ∈ s.definedTypes g, text t = typeText g (form t)) {out : String}
    (h : document g s text = .ok out) :
    spelled g (documentPieces s (schemaDefinition g s).isSome ((s.definedTypes g).map form)) =
      out := by
  obtain ⟨ds, hds, h⟩ := bind_eq_ok.mp h
  obtain ⟨ts, hts, h⟩ := bind_eq_ok.mp h
  injection h with h
  have hdirectives : (statedDirectives s).map (spelled g ∘ directivePieces) = ds :=
    map_eq_of_mapM (fun d _ y hy => directive_spelled hy) hds
  have htypes : (s.definedTypes g).map ((spelled g ∘ typePieces) ∘ form) = ts :=
    map_eq_of_mapM (fun t ht y hy => type_spelled ((htext t ht).symm.trans hy)) hts
  have hblock : (if (schemaDefinition g s).isSome then [schemaPieces s] else []).map (spelled g) =
      (schemaDefinition g s).toList := by
    cases hs : schemaDefinition g s with
    | none => rfl
    | some text => simp [schemaDefinition_spelled hs]
  rw [documentPieces, spelled_joinedPieces, List.map_append, List.map_append, hblock,
    List.map_map, List.map_map, List.map_map, hdirectives, htypes, h]

end

/-! ## What is named -/

@[simp] theorem named_refPieces (r : TypeRef) : named (refPieces r) = [r.base] := by
  induction r with
  | named id => rfl
  | list of ih => simp [refPieces, ih, TypeRef.base]
  | nonNull of ih => simp [refPieces, ih, TypeRef.base]

@[simp] theorem named_inputValuePieces (a : InputValue) :
    named (inputValuePieces a) = [a.type.base] := by
  simp [inputValuePieces]

@[simp] theorem named_valueLinePieces (indent : String) (first : Bool) (a : InputValue) :
    named (valueLinePieces indent first a) = [a.type.base] := by
  simp [valueLinePieces]

/-- Pieces of items name what the items refer to. -/
theorem mem_named_eachPieces {α : Type} {pieces : Bool → α → List Piece} {refs : α → List TypeId}
    (h : ∀ first x id, id ∈ named (pieces first x) ↔ id ∈ refs x) {first : Bool} {xs : List α}
    {id : TypeId} : id ∈ (eachPieces pieces first xs).flatMap named ↔ ∃ x ∈ xs, id ∈ refs x := by
  induction xs generalizing first with
  | nil => simp [eachPieces]
  | cons x xs ih =>
    rw [eachPieces, List.flatMap_cons, List.mem_append, h, ih, List.exists_mem_cons_iff]

/-- Pieces of arguments or input fields, each in its way, name their types. -/
theorem mem_named_values {pieces : Bool → InputValue → List Piece}
    (h : ∀ first a, named (pieces first a) = [a.type.base]) {first : Bool} {as : List InputValue}
    {id : TypeId} :
    id ∈ (eachPieces pieces first as).flatMap named ↔ ∃ a ∈ as, a.type.base = id := by
  have hrefs : ∀ first a id, id ∈ named (pieces first a) ↔ id ∈ [a.type.base] :=
    fun first a id => by rw [h]
  rw [mem_named_eachPieces hrefs]
  simp only [List.mem_singleton, eq_comm]

theorem mem_named_argumentsPieces {indent : String} {as : List InputValue} {id : TypeId} :
    id ∈ named (argumentsPieces indent as) ↔ ∃ a ∈ as, a.type.base = id := by
  unfold argumentsPieces
  split
  · next hnone => simp [List.isEmpty_iff.mp hnone]
  · split
    · rw [named_text, named_append, named_joinedPieces]
      simpa using mem_named_values (fun _ a => named_inputValuePieces a)
    · rw [named_text, named_append, named_joinedPieces]
      simpa using mem_named_values (named_valueLinePieces ("  " ++ indent))

theorem mem_named_fieldPieces (first : Bool) (f : Field) (id : TypeId) :
    id ∈ named (fieldPieces first f) ↔ id ∈ f.referenced := by
  rw [fieldPieces, named_text, named_append, List.mem_append, mem_named_argumentsPieces, named_text,
    named_append, named_refPieces, Field.referenced, List.mem_cons, List.mem_map]
  simp [or_comm, eq_comm]

@[simp] theorem named_listPieces (word sep : String) (ids : List TypeId) :
    named (listPieces word sep ids) = ids := by
  unfold listPieces
  split
  · next hnone => rw [List.isEmpty_iff.mp hnone]; rfl
  · rw [named_text, named_joinedPieces, List.flatMap_map]
    exact List.flatMap_singleton' ids

@[simp] theorem named_blockPieces (items : List (List Piece)) :
    named (blockPieces items) = items.flatMap named := by
  unfold blockPieces
  cases items with
  | nil => rfl
  | cons x xs => simp

/-- **A type names the types that it refers to.** -/
theorem mem_named_typePieces {t : TypeDef} {id : TypeId} :
    id ∈ named (typePieces t) ↔ t.Refers id := by
  rw [← TypeDef.mem_referenced]
  unfold typePieces TypeDef.referenced
  rw [named_text]
  cases hb : t.body with
  | scalar url => simp
  | enum values => simp
  | union members => simp
  | object interfaces fields | interface interfaces fields =>
    simp only [named_append, named_listPieces, named_blockPieces, List.mem_append,
      mem_named_eachPieces mem_named_fieldPieces, List.mem_flatMap]
  | inputObject oneOf fields =>
    simp only [named_text, named_blockPieces, List.mem_map]
    exact mem_named_values (named_valueLinePieces "  ")

theorem mem_named_directivePieces {d : DirectiveDeclaration} {id : TypeId} :
    id ∈ named (directivePieces d) ↔ ∃ a ∈ d.arguments, a.type.base = id := by
  rw [directivePieces, named_text, named_append, List.mem_append, mem_named_argumentsPieces]
  simp

theorem mem_named_schemaPieces {s : Schema} {id : TypeId} :
    id ∈ named (schemaPieces s) ↔ ∃ r ∈ rootTypes s, r.2 = id := by
  rw [schemaPieces, named_text, named_append, named_joinedPieces, List.flatMap_map]
  simp [eq_comm]

/-- A document of a schema mentions a type: a type that is printed refers to it, or an argument of a
declared directive has it, or it is a root type that the definition of the schema names. -/
inductive Mentions (g : TypeGraph) (s : Schema) : TypeId → Prop where
  | type {t : TypeDef} {id : TypeId} (ht : t ∈ s.definedTypes g) (h : t.Refers id) : Mentions g s id
  | argument {d : DirectiveDeclaration} {a : InputValue} (hd : d ∈ statedDirectives s)
      (ha : a ∈ d.arguments) : Mentions g s a.type.base
  | root {r : String × TypeId} (hs : (schemaDefinition g s).isSome = true) (hr : r ∈ rootTypes s) :
      Mentions g s r.2

/-- **A document names what it mentions**, in whatever form its types are printed, if that changes no
reference. -/
theorem mem_named_documentPieces {g : TypeGraph} {s : Schema} {form : TypeDef → TypeDef}
    (hform : ∀ t, (form t).referenced = t.referenced) {id : TypeId} :
    id ∈ named
        (documentPieces s (schemaDefinition g s).isSome ((s.definedTypes g).map form)) ↔
      Mentions g s id := by
  have hrefers : ∀ t, (form t).Refers id ↔ t.Refers id := by
    intro t
    rw [← TypeDef.mem_referenced, ← TypeDef.mem_referenced, hform]
  -- the three sorts of parts of a document, each with its way to mention a type
  have hschema : id ∈ (if (schemaDefinition g s).isSome then [schemaPieces s] else []).flatMap named ↔
      (schemaDefinition g s).isSome = true ∧ ∃ r ∈ rootTypes s, r.2 = id := by
    by_cases hs : (schemaDefinition g s).isSome = true
    · simp [hs, mem_named_schemaPieces]
    · simp [hs]
  have hdirectives : id ∈ ((statedDirectives s).map directivePieces).flatMap named ↔
      ∃ d ∈ statedDirectives s, ∃ a ∈ d.arguments, a.type.base = id := by
    simp only [List.flatMap_map, List.mem_flatMap, mem_named_directivePieces]
  have htypes : id ∈ (((s.definedTypes g).map form).map typePieces).flatMap named ↔
      ∃ t ∈ s.definedTypes g, t.Refers id := by
    simp only [List.flatMap_map, List.mem_flatMap, mem_named_typePieces, hrefers]
  rw [documentPieces, named_joinedPieces, List.flatMap_append, List.flatMap_append, List.mem_append,
    List.mem_append, hschema, hdirectives, htypes]
  constructor
  · rintro ((⟨hs, r, hr, rfl⟩ | ⟨d, hd, a, ha, rfl⟩) | ⟨t, ht, h⟩)
    · exact .root hs hr
    · exact .argument hd ha
    · exact .type ht h
  · intro h
    cases h with
    | type ht h => exact Or.inr ⟨_, ht, h⟩
    | argument hd ha => exact Or.inl (Or.inr ⟨_, hd, _, ha, rfl⟩)
    | root hs hr => exact Or.inl (Or.inl ⟨hs, _, hr, rfl⟩)

/-! ## Documents at a version -/

variable {w : Workspace} {s : Schema} {c : Catalog} {v : Version}

/-- The form of a type in a document at a version: with directives from version `2.0` on. -/
def formAt (w : Workspace) (c : Catalog) (v : Version) (t : TypeDef) : TypeDef :=
  if v.isFederation2 then printedForm w c v t else t

/-- The pieces of a document, apart from its header and the directives behind its parts. -/
def piecesAt (w : Workspace) (s : Schema) (c : Catalog) (v : Version) : List Piece :=
  documentPieces s (schemaDefinition w.graph s).isSome ((s.definedTypes w.graph).map (formAt w c v))

/-- The form in which a type is printed has the references of the type. -/
theorem formAt_referenced (t : TypeDef) : (formAt w c v t).referenced = t.referenced := by
  have hunmarked : t.withoutOneOf.referenced = t.referenced := by
    obtain ⟨name, body, description, element⟩ := t
    cases body <;> rfl
  unfold formAt
  split
  · rcases printedForm_eq_or (w := w) (c := c) (v := v) t with h | h
    · rw [h, hunmarked]
    · rw [h]
  · rfl

theorem mem_named_piecesAt {id : TypeId} :
    id ∈ named (piecesAt w s c v) ↔ Mentions w.graph s id :=
  mem_named_documentPieces formAt_referenced

/-- **What a document is.** Below version `2.0` it is its pieces; from there on it is a header and a
layout, and without what is in the places of the layout it is its pieces. -/
theorem documentAt_spelled {text : String} (h : documentAt w s c v = .ok text) :
    (v.isFederation2 = false → text = spelled w.graph (piecesAt w s c v)) ∧
      (v.isFederation2 = true → ∃ behind : Part → String,
        text = joinHeader (linkHeader c v) ((bodyLayout w s c v).fill behind) ∧
        (bodyLayout w s c v).bare = spelled w.graph (piecesAt w s c v)) := by
  refine ⟨fun hv => ?_, fun hv => ?_⟩
  · -- behind the checks there is only the plain document
    unfold documentAt at h
    obtain ⟨⟨⟩, -, h⟩ := bind_eq_ok.mp h
    obtain ⟨⟨⟩, -, h⟩ := bind_eq_ok.mp h
    rw [if_neg (by simp [hv])] at h
    have hform : ∀ t ∈ s.definedTypes w.graph,
        typeText w.graph t = typeText w.graph (formAt w c v t) := by
      intro t ht
      rw [formAt, if_neg (by simp [hv])]
    exact (document_spelled hform h).symm
  · obtain ⟨hk, body, hbody, rfl⟩ := exists_body_of_documentAt hv h
    obtain ⟨-, hplain, rfl⟩ := (body_laid hk).ok hbody
    have hform : ∀ t ∈ s.definedTypes w.graph,
        typeText w.graph (printedForm w c v t) = typeText w.graph (formAt w c v t) := by
      intro t ht
      rw [formAt, if_pos hv]
    exact ⟨_, rfl, (document_spelled hform hplain).symm⟩

end Sdl
end Subgraph
