import Subgraph.Binary64.Shortest
import Subgraph.Text.Digit
import Subgraph.Text.Quoted
import Subgraph.Value.Basic

/-!
# Values as text

A value is shown in messages in its written form: texts quoted, collections in brackets of their
kind, versions and arguments as records. As the key of a dictionary it is shown plainly: a text as it
is. A glimpse is the written form cut down to a bounded size.

Contents

* `Value.render` — the written form;
* `Value.plain` — the plain form;
* `Value.glimpse` — the written form with long texts, long collections and deep nesting cut;
* `Value.withinDigitLimit`, `Value.plainWithinDigitLimit` — whether every integer inside is short
  enough to be written in the one form and in the other;
* `Value.frames` — how many calls are open inside one another while a value is written.
-/

namespace Subgraph.Value

open Text

/-! ## The written form -/

/-- Items between brackets. -/
def bracketed (left right : String) (items : List String) : String :=
  left ++ ", ".intercalate items ++ right

/-- Items of a tuple: a single one is followed by a comma. -/
def tupled : List String → String
  | [item] => "(" ++ item ++ ",)"
  | items => bracketed "(" ")" items

/-- Items of a dictionary. -/
def braced (items : List String) : String := bracketed "\x7b" "\x7d" items

mutual
/-- The written form of a value. -/
def render : Value → String
  | .null => "None"
  | .bool b => if b then "True" else "False"
  | .int n => toString n
  | .float x => x.text
  | .text s => quoted s
  | .bytes bs => quotedBytes bs
  | .list items => bracketed "[" "]" (renderItems items)
  | .tuple items => tupled (renderItems items)
  | .dict entries => braced (renderEntries entries)
  | .symbol ⟨name, value⟩ => "<E." ++ name ++ ": " ++ render value ++ ">"
  | .numeral name n => "<E." ++ name ++ ": " ++ toString n ++ ">"
  | .version v =>
    "VersionSpec(components=" ++ tupled (v.components.map toString) ++ ", literal=" ++
      quoted v.literal ++ ")"
  | .argument name value =>
    "DirectiveArgument(name=" ++ quoted name ++ ", value=" ++ render value ++ ")"

/-- The written forms of items. -/
def renderItems : List Value → List String
  | [] => []
  | x :: xs => render x :: renderItems xs

/-- The written forms of entries. -/
def renderEntries : List (Value × Value) → List String
  | [] => []
  | (k, v) :: es => (render k ++ ": " ++ render v) :: renderEntries es
end

/-- The plain form of a value, in which a text and a version stand as they are. -/
def plain : Value → String
  | .text s => s
  | .symbol member => "E." ++ member.name
  | .numeral _ n => toString n
  | .version v => v.text
  | .argument name value => "name=" ++ quoted name ++ " value=" ++ value.render
  | v => v.render

/-! ## Glimpses -/

/-- A text of at most 240 characters as it is, a longer one without its middle. -/
def cutText (s : String) : String :=
  let cs := s.toList
  if cs.length ≤ 240 then s
  else String.ofList (cs.take 118) ++ "..." ++ String.ofList (cs.drop (cs.length - 119))

/-- At most ten items as they are, of more the first five and the last four. -/
def cutItems (items : List String) : List String :=
  if items.length ≤ 10 then items
  else items.take 5 ++ ["..."] ++ items.drop (items.length - 4)

mutual
/-- The written form of a value with `depth` levels of collections opened. -/
def glimpseAt (depth : Nat) : Value → String
  | .list [] => "[]"
  | .tuple [] => "()"
  | .dict [] => "\x7b\x7d"
  | .list items =>
    match depth with
    | 0 => "[...]"
    | depth + 1 => bracketed "[" "]" (cutItems (glimpseItems depth items))
  | .tuple items =>
    match depth with
    | 0 => "(...)"
    | depth + 1 => tupled (cutItems (glimpseItems depth items))
  | .dict entries =>
    match depth with
    | 0 => "\x7b...\x7d"
    | depth + 1 => braced (cutItems (glimpseEntries depth entries))
  | .int n => cutText (toString n)
  | .text s => cutText (quoted s)
  | .bytes bs => cutText (quotedBytes bs)
  | v => v.render

/-- Glimpses of items. -/
def glimpseItems (depth : Nat) : List Value → List String
  | [] => []
  | x :: xs => glimpseAt depth x :: glimpseItems depth xs

/-- Glimpses of entries. -/
def glimpseEntries (depth : Nat) : List (Value × Value) → List String
  | [] => []
  | (k, v) :: es => (glimpseAt depth k ++ ": " ++ glimpseAt depth v) :: glimpseEntries depth es
end

/-- The written form of a value cut to a bounded size: two levels of collections are opened. -/
def glimpse (v : Value) : String := glimpseAt 2 v

/-! ## Long integers -/

mutual
/-- Whether every integer inside a value has a decimal text within the limit. -/
def withinDigitLimit : Value → Bool
  | .int n | .numeral _ n => !exceedsDigitLimit n
  | .list items | .tuple items => itemsWithinDigitLimit items
  | .dict entries => entriesWithinDigitLimit entries
  | .version v => v.components.all fun n => !exceedsDigitLimit n
  | .argument _ value | .symbol ⟨_, value⟩ => withinDigitLimit value
  | _ => true

/-- Whether every integer inside the items has a text. -/
def itemsWithinDigitLimit : List Value → Bool
  | [] => true
  | x :: xs => withinDigitLimit x && itemsWithinDigitLimit xs

/-- Whether every integer inside the entries has a text. -/
def entriesWithinDigitLimit : List (Value × Value) → Bool
  | [] => true
  | (k, v) :: es => withinDigitLimit k && withinDigitLimit v && entriesWithinDigitLimit es
end

/-- Whether the integers that the plain form of a value shows have a text within the limit. -/
def plainWithinDigitLimit : Value → Bool
  | .version v => v.literal ≠ "" || withinDigitLimit (.version v)
  | .symbol _ => true
  | v => v.withinDigitLimit

/-! ## Deep values -/

mutual
/-- How many calls are open inside one another while a value is written: one for every collection around
another value, and more for what has a written form of its own. -/
def frames : Value → Nat
  | .list items | .tuple items => itemsFrames items + 1
  | .dict entries => entriesFrames entries + 1
  | .symbol ⟨_, value⟩ => frames value + 3
  | .numeral _ _ => 3
  | .argument _ value => frames value + 5
  | .version _ => 5
  | _ => 0

/-- How many are open while items are written. -/
def itemsFrames : List Value → Nat
  | [] => 0
  | x :: xs => max (frames x) (itemsFrames xs)

/-- How many are open while entries are written. -/
def entriesFrames : List (Value × Value) → Nat
  | [] => 0
  | (k, v) :: es => max (max (frames k) (frames v)) (entriesFrames es)
end

/-- How many calls are open while the plain form of a value is written, in which a member of an
enumeration stands by its name. -/
def plainFrames : Value → Nat
  | .symbol _ => 3
  | v => v.frames

end Subgraph.Value
