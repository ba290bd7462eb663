import Subgraph.Binary64.Basic
import Subgraph.Version.Basic

/-!
# Values

The values that arguments of directives, default values, internal values of enumerations and options
of elements are made of. Keys of a dictionary are values too; its entries keep their order.

Contents

* `Value`, `Member` — the types of values and of members of enumerations;
* `Value.same` — equality, by which numbers of every kind compare by their amount;
* `Value.isTrue` — what counts as true;
* `Value.number?` — the amount of a number of any kind;
* `Value.dictOf`, `Value.get?` — dictionaries: building one, and looking a text key up;
* `Value.items?` — what a value yields when it is gone through item by item;
* `Value.kind` — what a value is called.
-/

namespace Subgraph

mutual
/-- A value. -/
inductive Value where
  | null
  | bool (b : Bool)
  | int (n : Int)
  | float (x : Binary64)
  | text (s : String)
  | bytes (bs : List UInt8)
  | list (items : List Value)
  | tuple (items : List Value)
  | dict (entries : List (Value × Value))
  /-- A member of an enumeration. -/
  | symbol (member : Member)
  /-- A member of an enumeration whose members are integers as well. -/
  | numeral (name : String) (n : Int)
  | version (v : Version)
  /-- An argument of a directive. -/
  | argument (name : String) (value : Value)

/-- A member of an enumeration: its name, and the value that it stands for. -/
inductive Member where
  | mk (name : String) (value : Value)
end

instance : Inhabited Value := ⟨.null⟩

/-- The name of a member. -/
def Member.name : Member → String
  | mk name _ => name

/-- The value that a member stands for. -/
def Member.value : Member → Value
  | mk _ value => value

/-- A member of which only the name is given stands for one, as the first member of an enumeration that
is numbered. -/
instance : Coe String Member := ⟨fun name => .mk name (.int 1)⟩

instance : Coe Member String := ⟨Member.name⟩

namespace Value

/-! ## Numbers -/

/-- The amount of a number: an integer, or a floating-point value. -/
inductive Amount where
  | whole (n : Int)
  | floating (x : Binary64)

/-- Equality of amounts, exact across the two kinds. -/
def Amount.same : Amount → Amount → Bool
  | .whole a, .whole b => a == b
  | .floating x, .floating y => x.same y
  | .whole a, .floating x | .floating x, .whole a => x.toInt? == some a

/-- The amount of a number of any kind; the two truth values count as one and zero. -/
def number? : Value → Option Amount
  | .bool b => some (.whole (if b then 1 else 0))
  | .int n | .numeral _ n => some (.whole n)
  | .float x => some (.floating x)
  | _ => none

/-! ## Equality -/

mutual
/-- Equality of values: numbers by their amount, collections of one kind item by item, dictionaries
regardless of the order of their entries, versions by their components. In an enumeration, a name belongs
to one member. -/
def same : Value → Value → Bool
  | .null, .null => true
  | .text s, .text t => s == t
  | .bytes a, .bytes b => a == b
  | .list xs, .list ys => sameItems xs ys
  | .tuple xs, .tuple ys => sameItems xs ys
  | .dict es, .dict fs => es.length == fs.length && sameEntries es fs
  | .symbol a, .symbol b => a.name == b.name
  | .version v, .version w => v.components == w.components
  | .argument a x, .argument b y => a == b && same x y
  | .bool b, w => sameNumber (.whole (if b then 1 else 0)) w
  | .int n, w => sameNumber (.whole n) w
  | .numeral _ n, w => sameNumber (.whole n) w
  | .float x, w => sameNumber (.floating x) w
  | _, _ => false

/-- Whether `w` is a number of this amount. -/
def sameNumber (a : Amount) (w : Value) : Bool :=
  match w.number? with
  | some b => a.same b
  | none => false

/-- Equality item by item. -/
def sameItems : List Value → List Value → Bool
  | [], [] => true
  | x :: xs, y :: ys => same x y && sameItems xs ys
  | _, _ => false

/-- Whether every entry has an equal one in the other list. -/
def sameEntries : List (Value × Value) → List (Value × Value) → Bool
  | [], _ => true
  | (k, v) :: es, fs => (fs.any fun f => same k f.1 && same v f.2) && sameEntries es fs
end

/-! ## Truth -/

/-- What counts as true: everything but null, false, the zeros, and empty texts and collections. -/
def isTrue : Value → Bool
  | .null => false
  | .bool b => b
  | .int n | .numeral _ n => n != 0
  | .float x => !x.isZero
  | .text s => !s.isEmpty
  | .bytes bs => !bs.isEmpty
  | .list items | .tuple items => !items.isEmpty
  | .dict entries => !entries.isEmpty
  | .symbol _ | .version _ | .argument _ _ => true

/-! ## Dictionaries -/

/-- Entries after one more: a key that is there already keeps its place and its spelling and takes
the new value, a new key goes to the end. -/
def put (entries : List (Value × Value)) (key value : Value) : List (Value × Value) :=
  if entries.any (fun e => e.1.same key) then
    entries.map fun e => if e.1.same key then (e.1, value) else e
  else entries ++ [(key, value)]

/-- The dictionary that arises when the entries are put in one after the other. -/
def dictOf (entries : List (Value × Value)) : Value :=
  .dict (entries.foldl (fun es e => put es e.1 e.2) [])

/-- The value under a text key. -/
def lookup? (entries : List (Value × Value)) (key : String) : Option Value :=
  (entries.find? fun e => e.1.same (.text key)).map (·.2)

/-! ## Items -/

/-- What a value yields item by item: the items of a list or tuple, the keys of a dictionary, the
characters of a text, the numbers of bytes, and of an argument its two parts under their names. -/
def items? : Value → Option (List Value)
  | .list items | .tuple items => some items
  | .dict entries => some (entries.map (·.1))
  | .text s => some (s.toList.map fun c => .text (String.singleton c))
  | .bytes bs => some (bs.map fun b => .int b.toNat)
  | .argument name value =>
    some [.tuple [.text "name", .text name], .tuple [.text "value", value]]
  | _ => none

/-- The kind of a value, as it is called in messages. -/
def kind : Value → String
  | .null => "NoneType"
  | .bool _ => "bool"
  | .int _ => "int"
  | .float _ => "float"
  | .text _ => "str"
  | .bytes _ => "bytes"
  | .list _ => "list"
  | .tuple _ => "tuple"
  | .dict _ => "dict"
  | .symbol _ | .numeral _ _ => "E"
  | .version _ => "VersionSpec"
  | .argument _ _ => "DirectiveArgument"

end Value

end Subgraph
