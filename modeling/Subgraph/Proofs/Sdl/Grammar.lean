import Subgraph.Proofs.Sdl.Lexeme
import Subgraph.Proofs.Sdl.Rendering

/-!
# `Sdl.Literal` — the text of a literal is a value of the grammar

The grammar of documents is given in two layers: which tokens a text is read as (`Lexes`), where a name or
a number goes on for as long as it can, and which tokens are a value (`IsValue`). A text is a literal if
the tokens it is read as are one value and nothing else (`IsLiteral`).

What is written for a value is put together from pieces, and each piece is read in the same way whatever
stands behind it, if that starts with a stop (`Reads`). So the pieces of a list are read one after the other
(`Reads.listed`), and by induction along the parts of a value its text is one value of the grammar and
stands on one line (`valueChars_documentText`), if the names in it are names.

`textWithin_outcome` is the result: which values are written, which one a failure names, and what the
text is.
-/

namespace Subgraph

open Text

namespace Sdl

/-! ## Tokens -/

/-- The characters that separate tokens and mean nothing: blanks, line ends, commas, and the mark of the
byte order. -/
def isIgnored (c : Char) : Bool :=
  c == ' ' || c == '\t' || c == '\n' || c == '\r' || c == ',' || c == '\uFEFF'

/-- The marks of one character in values. -/
def isMark (c : Char) : Bool := c == '[' || c == ']' || c == '\x7b' || c == '\x7d' || c == ':'

/-- A token of a value. -/
inductive Token where
  | mark (c : Char)
  | name (n : String)
  | number
  | string

/-- The tokens that a text is read as. A name is not followed by what would go on it, nor a number by
that or a point, nor a text without characters by a third quote. -/
inductive Lexes : List Char → List Token → Prop
  | done : Lexes [] []
  | ignored {c : Char} {r : List Char} {us : List Token} (hc : isIgnored c = true) (h : Lexes r us) :
      Lexes (c :: r) us
  | mark {c : Char} {r : List Char} {us : List Token} (hc : isMark c = true) (h : Lexes r us) :
      Lexes (c :: r) (.mark c :: us)
  | name {n : String} {r : List Char} {us : List Token} (hn : IsName n)
      (hend : ∀ c ∈ r.head?, isNameContinue c = false) (h : Lexes r us) :
      Lexes (n.toList ++ r) (.name n :: us)
  | number {cs r : List Char} {us : List Token} (hcs : IsInteger cs ∨ IsFloat cs)
      (hend : ∀ c ∈ r.head?, isNameContinue c = false ∧ c ≠ '.') (h : Lexes r us) :
      Lexes (cs ++ r) (.number :: us)
  | string {pieces : List (List Char)} {r : List Char} {us : List Token}
      (hpieces : ∀ p ∈ pieces, IsStringCharacter p) (hend : pieces = [] → ∀ c ∈ r.head?, c ≠ '"')
      (h : Lexes r us) : Lexes ('"' :: (pieces.flatten ++ '"' :: r)) (.string :: us)

/-! ## Values -/

/-- The tokens of one value. A name alone is null, a truth value, or a member of an enumeration. -/
inductive IsValue : List Token → Prop
  | name (n : String) : IsValue [.name n]
  | number : IsValue [.number]
  | string : IsValue [.string]
  | list {items : List (List Token)} (h : ∀ ts ∈ items, IsValue ts) :
      IsValue (.mark '[' :: (items.flatten ++ [.mark ']']))
  | object {fields : List (String × List Token)} (h : ∀ f ∈ fields, IsValue f.2) :
      IsValue (.mark '{' ::
        (fields.flatMap (fun f => .name f.1 :: .mark ':' :: f.2) ++ [.mark '}']))

/-- The text is one value of the grammar. -/
def IsLiteral (s : String) : Prop := ∃ ts, Lexes s.toList ts ∧ IsValue ts

/-! ## Reading pieces -/

/-- The characters are read as the tokens, whatever stands behind them. -/
def Reads (cs : List Char) (ts : List Token) : Prop :=
  ∀ (r : List Char) (us : List Token), Stops r → Lexes r us → Lexes (cs ++ r) (ts ++ us)

namespace Reads

theorem name {n : String} (hn : IsName n) : Reads n.toList [.name n] := by
  intro r us hr h
  exact .name hn (fun c hc => not_isNameContinue_of_isStop (hr c hc)) h

theorem number {cs : List Char} (hcs : IsInteger cs ∨ IsFloat cs) : Reads cs [.number] := by
  intro r us hr h
  refine .number hcs (fun c hc => ⟨not_isNameContinue_of_isStop (hr c hc), ?_⟩) h
  rintro rfl
  exact absurd (hr '.' hc) (by decide)

theorem string (s : String) : Reads (stringLiteral s).toList [.string] := by
  intro r us hr h
  have hpieces : ∀ p ∈ s.toList.map escapeChar, IsStringCharacter p :=
    List.forall_mem_map.mpr fun c _ => isStringCharacter_escapeChar c
  rw [stringLiteral_toList, List.flatMap_def, List.cons_append, List.append_assoc]
  refine .string hpieces (fun _ c hc => ?_) h
  rintro rfl
  exact absurd (hr '"' hc) (by decide)

section Sequences

variable {α : Type} {write : α → List Char} {tokens : α → List Token} {as : List α}

/-- **Things are read one after the other** where a comma stands between each two. -/
theorem listed (h : ∀ a ∈ as, Reads (write a) (tokens a)) :
    Reads (listed (as.map write)) (as.flatMap tokens) := by
  intro r us hr hlexes
  cases as with
  | nil => exact hlexes
  | cons a as =>
    rw [List.forall_mem_cons] at h
    -- behind each thing a comma stands, or what ends the sequence
    have hrest : Stops ((as.map write).flatMap (fun u => ',' :: ([' '] ++ u)) ++ r) ∧
        Lexes ((as.map write).flatMap (fun u => ',' :: ([' '] ++ u)) ++ r)
          (as.flatMap tokens ++ us) := by
      obtain ⟨-, has⟩ := h
      induction as with
      | nil => exact ⟨hr, hlexes⟩
      | cons b as ih =>
        rw [List.forall_mem_cons] at has
        obtain ⟨hstops, hlexes⟩ := ih has.2
        have hb := has.1 _ _ hstops hlexes
        simp only [List.map_cons, List.flatMap_cons, List.append_assoc, List.cons_append,
          List.nil_append] at hb ⊢
        exact ⟨.cons rfl _, .ignored rfl (.ignored rfl hb)⟩
    rw [List.map_cons, listed_cons, List.flatMap_cons, List.append_assoc, List.append_assoc]
    exact h.1 _ _ hrest.1 hrest.2

/-- Things between two marks. -/
theorem between {opening close : Char} (hopening : isMark opening = true) (hclose : isMark close = true)
    (hstop : isStop close = true) (h : ∀ a ∈ as, Reads (write a) (tokens a)) :
    Reads (opening :: (Sdl.listed (as.map write) ++ [close]))
      (.mark opening :: (as.flatMap tokens ++ [.mark close])) := by
  intro r us hr hlexes
  simp only [List.cons_append, List.append_assoc, List.nil_append]
  exact .mark hopening (listed h _ _ (.cons hstop _) (.mark hclose hlexes))

end Sequences

/-- A name, a colon, and what stands under the name. -/
theorem field {n : String} (hn : IsName n) {cs : List Char} {ts : List Token} (h : Reads cs ts) :
    Reads (n.toList ++ ':' :: ' ' :: cs) (.name n :: .mark ':' :: ts) := by
  intro r us hr hlexes
  rw [List.append_assoc]
  exact .name hn (forall_mem_head?_cons.mpr rfl) (.mark rfl (.ignored rfl (h r us hr hlexes)))

end Reads

/-! ## Texts of values -/

/-- The characters are read as one value, whatever stands behind them, and stand on one line. -/
structure ValueChars (cs : List Char) : Prop where
  oneLine : OneLine cs
  reads : ∃ ts, IsValue ts ∧ Reads cs ts

/-- A text of texts with a comma and a space between each two. -/
theorem listed_toList (ts : List String) :
    (", ".intercalate ts).toList = listed (ts.map String.toList) := by
  rw [String.toList_intercalate]
  rfl

theorem OneLine.listed {items : List (List Char)} (h : ∀ cs ∈ items, OneLine cs) :
    OneLine (listed items) := by
  cases items with
  | nil => exact .nil
  | cons cs items =>
    rw [List.forall_mem_cons] at h
    rw [listed_cons]
    refine h.1.append (List.forall_mem_flatMap.mpr fun u hu => ?_)
    exact OneLine.cons rfl (.cons rfl (h.2 u hu))

namespace ValueChars

/-- A value that nothing stands behind is a literal. -/
theorem isLiteral {s : String} (h : ValueChars s.toList) : IsLiteral s := by
  obtain ⟨ts, hts, hreads⟩ := h.reads
  have hlexes := hreads [] [] .nil .done
  rw [List.append_nil, List.append_nil] at hlexes
  exact ⟨ts, hlexes, hts⟩

theorem name {n : String} (hn : IsName n) : ValueChars n.toList :=
  ⟨oneLine_of_isName hn, _, .name n, Reads.name hn⟩

theorem number {cs : List Char} (hcs : IsInteger cs ∨ IsFloat cs)
    (hchars : ∀ c ∈ cs, isNumberChar c = true) : ValueChars cs :=
  ⟨fun c hc => not_isControl_of_isAtomChar (isAtomChar_of_isNumberChar (hchars c hc)), _, .number,
    Reads.number hcs⟩

theorem string (s : String) : ValueChars (stringLiteral s).toList := by
  refine ⟨?_, _, .string, Reads.string s⟩
  rw [stringLiteral_toList]
  refine .append (.cons rfl ?_) (.cons rfl .nil)
  exact List.forall_mem_flatMap.mpr fun c _ => oneLine_escapeChar c

/-- Values between brackets are a value. -/
theorem list {items : List (List Char)} (h : ∀ cs ∈ items, ValueChars cs) :
    ValueChars ('[' :: (listed items ++ [']'])) := by
  have hline : OneLine (listed items) := .listed fun cs hcs => (h cs hcs).oneLine
  refine ⟨.cons rfl (hline.append (.cons rfl .nil)), ?_⟩
  choose! tokens hvalue hreads using fun cs hcs => (h cs hcs).reads
  have hitems : ∀ ts ∈ items.map tokens, IsValue ts := List.forall_mem_map.mpr hvalue
  refine ⟨_, .list hitems, ?_⟩
  rw [← List.flatMap_def]
  have hbetween : Reads ('[' :: (listed (items.map id) ++ [']']))
      (.mark '[' :: (items.flatMap tokens ++ [.mark ']'])) := .between rfl rfl rfl hreads
  rwa [List.map_id] at hbetween

/-- Values under names, between braces, are a value. -/
theorem object {fields : List (String × List Char)} (hn : ∀ f ∈ fields, IsName f.1)
    (h : ∀ f ∈ fields, ValueChars f.2) :
    ValueChars ('{' :: (listed (fields.map fun f => f.1.toList ++ ':' :: ' ' :: f.2) ++ ['}'])) := by
  have hline : OneLine (listed (fields.map fun f => f.1.toList ++ ':' :: ' ' :: f.2)) := by
    refine .listed (List.forall_mem_map.mpr fun f hf => ?_)
    exact (oneLine_of_isName (hn f hf)).append (.cons rfl (.cons rfl (h f hf).oneLine))
  refine ⟨.cons rfl (hline.append (.cons rfl .nil)), ?_⟩
  choose! tokens hvalue hreads using fun f hf => (h f hf).reads
  have hfields : ∀ g ∈ fields.map (fun f => (f.1, tokens f)), IsValue g.2 :=
    List.forall_mem_map.mpr hvalue
  refine ⟨_, .object hfields, ?_⟩
  rw [List.flatMap_map]
  exact Reads.between rfl rfl rfl fun f hf => .field (hn f hf) (hreads f hf)

end ValueChars

end Sdl

/-! ## Values in a document -/

namespace Value

open Sdl

/-- The names that the text of a value has by the value itself: that of a member of an enumeration, and
the keys of a dictionary in their plain form. -/
def names : Value → List String
  | .symbol ⟨name, _⟩ | .numeral name _ => [name]
  | .dict entries => entries.map (·.1.plain)
  | _ => []

/-- The characters of entries: the key, a colon, and the value. -/
theorem map_entryTexts (entries : List (Value × Value)) :
    (entryTexts entries).map String.toList =
      entries.map fun e => e.1.plain.toList ++ ':' :: ' ' :: e.2.documentText.toList := by
  rw [entryTexts_eq, List.map_map]
  refine List.map_congr_left fun e _ => ?_
  rw [Function.comp_apply, String.toList_append, String.toList_append, List.append_assoc]
  rfl

/-- **The text of a value is a value of the grammar**, if what stands in it as names are names. -/
theorem valueChars_documentText {v : Value} (hkind : ∀ x ∈ v.inside, x.hasLiteral = true)
    (hnames : ∀ x ∈ v.inside, ∀ n ∈ x.names, IsName n) : ValueChars v.documentText.toList := by
  induction v using parts_induction with
  | step v ih =>
    obtain ⟨hself, hkind⟩ := forall_inside_iff.mp hkind
    obtain ⟨hown, hnames⟩ := forall_inside_iff.mp hnames
    have hparts : ∀ x ∈ v.parts, ValueChars x.documentText.toList :=
      fun x hx => ih x hx (hkind x hx) (hnames x hx)
    cases v with
    | null => exact .name (n := "null") (by decide)
    | bool b =>
      cases b with
      | false => exact .name (n := "false") (by decide)
      | true => exact .name (n := "true") (by decide)
    | symbol member =>
      obtain ⟨name, value⟩ := member
      exact .name (hown name (by simp [names]))
    | numeral name n => exact .name (hown name (by simp [names]))
    | int n => exact .number (.inl (isInteger_toString n)) fun c hc => isNumberChar_int hc
    | float x => exact .number (.inr (isFloat_text hself)) fun c hc => isNumberChar_float hself hc
    | text s => exact .string s
    | list items | tuple items =>
      rw [documentText, itemTexts_eq, String.toList_append, String.toList_append, listed_toList,
        List.map_map, List.append_assoc]
      exact .list (List.forall_mem_map.mpr hparts)
    | dict entries =>
      have hkeys : ∀ f ∈ entries.map (fun e => (e.1.plain, e.2.documentText.toList)), IsName f.1 :=
        List.forall_mem_map.mpr fun e he => hown _ (List.mem_map_of_mem he)
      have hvalues : ∀ f ∈ entries.map (fun e => (e.1.plain, e.2.documentText.toList)),
          ValueChars f.2 :=
        List.forall_mem_map.mpr fun e he => hparts e.2 (List.mem_map_of_mem he)
      have hchars := ValueChars.object hkeys hvalues
      rw [List.map_map] at hchars
      rw [documentText, String.toList_append, String.toList_append, listed_toList, map_entryTexts,
        List.append_assoc]
      exact hchars
    | bytes | version | argument => exact absurd hself (by simp [hasLiteral])

end Value

namespace Sdl

open Literal (textWithin)

/-- A value of every kind, to be written in a document. -/
def mixedValue : Value :=
  .dict [(.text "on", .tuple [.bool true, .numeral "RED" 1, .null, .list []]),
    (.text "off", .dict [(.text "a_1", .text "line\n\"end\""), (.text "b", .int (-12))])]

/-- The same in a list in which two values have no literal: one inside a tuple, and one behind it. -/
def spoiltValue : Value :=
  .list [mixedValue, .tuple [.bool false, .float .nan], .bytes [1]]

/-- Lists inside one another, the last of them empty. -/
def nestedLists : Nat → Value
  | 0 => .list []
  | n + 1 => .list [nestedLists n]

/-- Arguments inside one another, each in a list. -/
def nestedArguments : Nat → Value
  | 0 => .int 1
  | n + 1 => .argument "a" (.list [nestedArguments n])

theorem nestedLists_facts (n : Nat) :
    (nestedLists n).withinDigitLimit = true ∧ (∀ x ∈ (nestedLists n).inside, x.hasLiteral = true) ∧
      (nestedLists n).literalFrames = 2 * n + 2 := by
  induction n with
  | zero => exact ⟨rfl, by decide, rfl⟩
  | succ n ih =>
    refine ⟨?_, ?_, ?_⟩
    · rw [nestedLists, Value.withinDigitLimit, Value.itemsWithinDigitLimit, ih.1]
      rfl
    · rw [nestedLists, Value.forall_inside_iff]
      exact ⟨rfl, fun x hx => List.mem_singleton.mp hx ▸ ih.2.1⟩
    · rw [nestedLists, Value.literalFrames, Value.literalItemsFrames, ih.2.2, Value.literalItemsFrames]
      omega

theorem nestedArguments_facts (n : Nat) :
    (nestedArguments n).withinDigitLimit = true ∧ (nestedArguments n).frames = 6 * n := by
  induction n with
  | zero => exact ⟨by decide +kernel, rfl⟩
  | succ n ih =>
    constructor
    · rw [nestedArguments, Value.withinDigitLimit, Value.withinDigitLimit, Value.itemsWithinDigitLimit,
        ih.1]
      rfl
    · rw [nestedArguments, Value.frames, Value.frames, Value.itemsFrames, ih.2, Value.itemsFrames]
      omega

end Sdl

end Subgraph
