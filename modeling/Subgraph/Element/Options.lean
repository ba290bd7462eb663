import Subgraph.Directive.Reader
import Subgraph.Element.Annotations

/-!
# Options of an element

An element is declared with options of its own and with those of its kind. The options are a
shorthand for directives: labels, the two marks, and directives given as such. A shorthand is left
out where its directive may not stand; a directive given as such must be allowed.

Contents

* `Options` — the options, once they have been told apart;
* `Options.shorthand`, `Options.all` — the directives they stand for;
* `Options.annotate` — the annotations of a new element;
* `Keyword`, `Options.split` — telling the options from the rest.
-/

namespace Subgraph

/-- The options of an element. `κ` is what a catalog is referred to by. -/
structure Options (κ : Type) where
  tags : List Value := []
  inaccessible : Bool := false
  authenticated : Bool := false
  directives : List Directive := []
  catalog : Option κ := none

namespace Options

variable {κ : Type}

/-- The label that a tag option states: a text, or the name in a record. -/
def label : Value → Except Failure Value
  | .text s => .ok (.text s)
  | .dict entries =>
    match Value.lookup? entries "name" with
    | some name => .ok name
    | none => .error (.missingKey "name")
  | .list _ => .error (.misuse (.numberedParts "list"))
  | .tuple _ => .error (.misuse (.numberedParts "tuple"))
  | .bytes _ => .error (.misuse (.numberedParts "bytes"))
  | v => .error (.misuse (.notSubscriptable v.kind))

/-- The directive of one tag option. -/
def tagDirective (tag : Value) : Except Failure Directive :=
  (label tag).map fun name => ⟨"tag", [⟨"name", name⟩]⟩

/-- The directives of the shorthand options: the tags in order, then the two marks. -/
def shorthand (o : Options κ) : Except Failure (List Directive) :=
  (o.tags.mapM tagDirective).map fun tags =>
    tags ++ (if o.inaccessible then [⟨"inaccessible", []⟩] else []) ++
      (if o.authenticated then [⟨"authenticated", []⟩] else [])

/-- All directives of the options, in the order of attachment. -/
def all (o : Options κ) : Except Failure (List Directive) :=
  o.shorthand.map (· ++ o.directives)

/-- Shorthand directives attached one after the other: each must be known to the catalog, and is
left out where it may not stand. -/
def attachShorthand (catalog : Catalog) (location : Location) (a : Annotations) :
    List Directive → Except Failure Annotations
  | [] => .ok a
  | d :: ds =>
    match catalog.lookup d.name with
    | .error f => .error f
    | .ok definition =>
      if definition.allows location then
        match a.attach catalog location d with
        | .ok a' => attachShorthand catalog location a' ds
        | .error f => .error f
      else attachShorthand catalog location a ds

/-- The annotations of a new element: the shorthand directives are made, all of them before the
first is attached; then they are attached, then the others. -/
def annotate (o : Options κ) (catalog : Catalog) (location : Location) :
    Except Failure Annotations := do
  let shorthand ← o.shorthand
  let a ← attachShorthand catalog location {} shorthand
  a.attachAll catalog location o.directives

end Options

/-! ## Telling options apart -/

/-- What may stand behind a keyword: any value, and for two of the options something of their own. -/
inductive Keyword (κ : Type) where
  | value (v : Value)
  | directives (ds : List Directive)
  | catalog (c : Option κ)

namespace Options

variable {κ : Type}

/-- The names of the options. -/
def optionNames : List String :=
  ["tags", "inaccessible", "authenticated", "directives", "catalog"]

/-- The last keyword of a name. -/
def lastOf (name : String) (keywords : List (String × Keyword κ)) : Option (Keyword κ) :=
  (keywords.reverse.find? fun k => k.1 == name).map (·.2)

/-- The value behind a keyword, null if it is absent. -/
def valueOf (name : String) (keywords : List (String × Keyword κ)) : Value :=
  match lastOf name keywords with
  | some (.value v) => v
  | _ => .null

/-- The options of loose values: tags may be anything with items, and the marks are judged by what
counts as true. -/
def ofValues (tags inaccessible authenticated : Value) (directives : List Directive)
    (catalog : Option κ) : Except Failure (Options κ) :=
  let make (tags : List Value) : Options κ :=
    ⟨tags, inaccessible.isTrue, authenticated.isTrue, directives, catalog⟩
  if tags.isTrue then
    match tags.items? with
    | some items => .ok (make items)
    | none => .error (.misuse (.notIterable tags.kind))
  else .ok (make [])

/-- The options among keywords, and the keywords that are none, unchanged and in order. -/
def split (keywords : List (String × Keyword κ)) :
    Except Failure (Options κ × List (String × Keyword κ)) := do
  let directives :=
    match lastOf "directives" keywords with
    | some (.directives ds) => ds
    | _ => []
  let catalog :=
    match lastOf "catalog" keywords with
    | some (.catalog c) => c
    | _ => none
  let options ← ofValues (valueOf "tags" keywords) (valueOf "inaccessible" keywords)
    (valueOf "authenticated" keywords) directives catalog
  .ok (options, keywords.filter fun k => !optionNames.contains k.1)

end Options

end Subgraph
