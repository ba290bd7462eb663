import Subgraph.Proofs.Binary64.Text
import Subgraph.Proofs.Sdl.Quoting
import Subgraph.Sdl.Literal
import Subgraph.Text.Name

/-!
# `Sdl.Literal` — literals are told apart by their texts

What is written for a literal nests brackets, separators and quotes to any depth. Still no two literals
are written alike, and it is clear where each ends. `ToldApart` says both at once: if what is written
for `a` and then something is the same text as what is written for `b` and then something, then `a = b`
and the same follows. What may follow starts with a stop: a separator, a closing bracket, or a space.

- Words and numbers are runs of characters that are no stops, and differ as texts (`Atom.unique`).
- Texts end at their closing quote (`stringLiteral_delimited`).
- A sequence of things that are told apart is told apart: every separator is met where one thing ends
  and before the next starts, and the closing bracket where none follows (`each_toldApart`,
  `listed_toldApart`).
- So the literals of the values that are told apart are told apart, by induction on them
  (`Formed.toldApart`).
-/

namespace Subgraph.Sdl

open Text

/-! ## What may follow -/

/-- The separators and closing brackets, none of which starts a literal, a field or an argument. -/
def isStop (c : Char) : Bool := c == ',' || c == ' ' || c == ']' || c == '\x7d' || c == ')'

/-- Nothing follows, or a stop. -/
def Stops (r : List Char) : Prop := ∀ c ∈ r.head?, isStop c = true

/-- The text starts, and not with a stop. -/
def Starts (cs : List Char) : Prop := ∃ c r, cs = c :: r ∧ isStop c = false

/-- Among the things of a kind, `a` is found again from what is written for it, whatever follows. -/
def ToldApart {α : Type} (P : α → Prop) (write : α → List Char) (a : α) : Prop :=
  ∀ b, P b → ∀ r r', Stops r → Stops r' → write a ++ r = write b ++ r' → a = b ∧ r = r'

theorem Stops.nil : Stops [] := by
  intro c hc
  exact absurd hc (by simp)

theorem Stops.cons {c : Char} (h : isStop c = true) (r : List Char) : Stops (c :: r) :=
  forall_mem_head?_cons.mpr h

/-- A text that starts is not one that stops. -/
theorem Starts.ne {cs r r' : List Char} (h : Starts cs) (hr : Stops r) : cs ++ r' ≠ r := by
  intro heq
  obtain ⟨c, rest, rfl, hc⟩ := h
  have hstop : isStop c = true := hr c (by rw [← heq]; rfl)
  rw [hc] at hstop
  exact absurd hstop (by decide)

/-! ## Sequences -/

section Sequences

variable {α : Type} {P : α → Prop} {write : α → List Char}

/-- Things with a separator before each, up to something that is none. The separator starts with `s`. -/
theorem each_toldApart {s : Char} {sep : List Char} (hs : isStop s = true) {as bs : List α}
    (has : ∀ a ∈ as, ToldApart P write a) (hbs : ∀ b ∈ bs, P b) {r r' : List Char}
    (hr : ∀ c ∈ r.head?, isStop c = true ∧ c ≠ s) (hr' : ∀ c ∈ r'.head?, isStop c = true ∧ c ≠ s)
    (h : as.flatMap (fun a => s :: (sep ++ write a)) ++ r =
      bs.flatMap (fun b => s :: (sep ++ write b)) ++ r') : as = bs ∧ r = r' := by
  -- behind each thing the next separator stands, or what ends the sequence
  have hstops : ∀ (xs : List α) {r : List Char}, (∀ c ∈ r.head?, isStop c = true ∧ c ≠ s) →
      Stops (xs.flatMap (fun a => s :: (sep ++ write a)) ++ r) := by
    intro xs r hr
    cases xs with
    | nil => exact fun c hc => (hr c hc).1
    | cons x xs => exact Stops.cons hs _
  induction as generalizing bs with
  | nil =>
    cases bs with
    | nil => exact ⟨rfl, h⟩
    | cons b bs =>
      rw [List.flatMap_nil, List.nil_append] at h
      exact absurd rfl (hr s (by rw [h]; rfl)).2
  | cons a as ih =>
    cases bs with
    | nil =>
      rw [List.flatMap_nil, List.nil_append] at h
      exact absurd rfl (hr' s (by rw [← h]; rfl)).2
    | cons b bs =>
      rw [List.forall_mem_cons] at has hbs
      rw [List.flatMap_cons, List.flatMap_cons, List.append_assoc, List.append_assoc,
        List.cons_append, List.cons_append, List.append_assoc, List.append_assoc] at h
      have hwritten := List.append_cancel_left (List.cons.inj h).2
      obtain ⟨rfl, hrest⟩ := has.1 b hbs.1 _ _ (hstops as hr) (hstops bs hr') hwritten
      obtain ⟨rfl, hend⟩ := ih has.2 hbs.2 hrest
      exact ⟨rfl, hend⟩

/-- Texts with a comma and a space between each two. -/
def listed (ts : List (List Char)) : List Char := [',', ' '].intercalate ts

theorem listed_cons (t : List Char) (ts : List (List Char)) :
    listed (t :: ts) = t ++ ts.flatMap (fun u => ',' :: ([' '] ++ u)) := by
  induction ts generalizing t with
  | nil => simp [listed]
  | cons u ts ih =>
    have hcons : listed (t :: u :: ts) = t ++ [',', ' '] ++ listed (u :: ts) :=
      List.intercalate_cons_cons
    rw [hcons, ih u, List.flatMap_cons]
    simp

/-- **Things between brackets are told apart**, with a comma between each two. -/
theorem listed_toldApart {close : Char} (hclose : isStop close = true) (hcomma : close ≠ ',')
    (hstarts : ∀ a, P a → Starts (write a)) {as bs : List α} (hP : ∀ a ∈ as, P a)
    (has : ∀ a ∈ as, ToldApart P write a) (hbs : ∀ b ∈ bs, P b) {r r' : List Char}
    (h : listed (as.map write) ++ close :: r = listed (bs.map write) ++ close :: r') :
    as = bs ∧ r = r' := by
  have hend : ∀ r : List Char, ∀ c ∈ (close :: r).head?, isStop c = true ∧ c ≠ ',' := by
    intro r
    exact forall_mem_head?_cons.mpr ⟨hclose, hcomma⟩
  cases as with
  | nil =>
    cases bs with
    | nil => exact ⟨rfl, (List.cons.inj h).2⟩
    | cons b bs =>
      rw [List.map_cons, listed_cons, List.append_assoc] at h
      have hb : Starts (write b) := hstarts b (hbs b List.mem_cons_self)
      exact absurd h.symm (hb.ne (Stops.cons hclose r))
  | cons a as =>
    cases bs with
    | nil =>
      rw [List.map_cons, listed_cons, List.append_assoc] at h
      have ha : Starts (write a) := hstarts a (hP a List.mem_cons_self)
      exact absurd h (ha.ne (Stops.cons hclose r'))
    | cons b bs =>
      -- a comma before the first of both makes sequences of separated things of them
      have hboth : (a :: as).flatMap (fun a => ',' :: ([' '] ++ write a)) ++ close :: r =
          (b :: bs).flatMap (fun b => ',' :: ([' '] ++ write b)) ++ close :: r' := by
        simp only [List.map_cons, listed_cons, List.flatMap_map, List.append_assoc,
          List.cons_append, List.nil_append] at h
        simp only [List.flatMap_cons, List.append_assoc, List.cons_append, List.nil_append, h]
      obtain ⟨heq, hrest⟩ := each_toldApart (by decide) has hbs (hend r) (hend r') hboth
      exact ⟨heq, (List.cons.inj hrest).2⟩

end Sequences

/-! ## Names -/

/-- A name is a run of characters that neither a stop nor the colon behind it is one of. -/
theorem name_chars {s : String} (h : IsName s) : ∀ c ∈ s.toList, isNameContinue c = true := by
  obtain ⟨c, r, hcr, hc, hr⟩ := h
  have hstart : isNameContinue c = true := by
    rw [isNameStart, Bool.or_eq_true] at hc
    rw [isNameContinue, Char.isAlphanum, Bool.or_eq_true, Bool.or_eq_true]
    rcases hc with hc | hc
    · exact .inl (.inl hc)
    · exact .inr hc
  rw [hcr]
  exact List.forall_mem_cons.mpr ⟨hstart, hr⟩

/-- The stops are no characters of names. -/
theorem not_isNameContinue_of_isStop {c : Char} (h : isStop c = true) : isNameContinue c = false := by
  simp only [isStop, Bool.or_eq_true, beq_iff_eq] at h
  rcases h with (((rfl | rfl) | rfl) | rfl) | rfl <;> decide

/-- A name is found again before a character that goes on no name. -/
theorem name_unique {n n' : String} (hn : IsName n) (hn' : IsName n') {r r' : List Char}
    (hr : ∀ c ∈ r.head?, isNameContinue c = false) (hr' : ∀ c ∈ r'.head?, isNameContinue c = false)
    (h : n.toList ++ r = n'.toList ++ r') : n = n' ∧ r = r' := by
  obtain ⟨hname, hrest⟩ := run_unique (name_chars hn) (name_chars hn') hr hr' h
  exact ⟨String.toList_inj.mp hname, hrest⟩

theorem starts_of_isName {n : String} (hn : IsName n) (cs : List Char) :
    Starts (n.toList ++ cs) := by
  have hchars : ∀ c ∈ n.toList, isNameContinue c = true := name_chars hn
  obtain ⟨c, r, hcr, -⟩ := hn
  refine ⟨c, r ++ cs, by rw [hcr, List.cons_append], ?_⟩
  have hc : isNameContinue c = true := hchars c (by rw [hcr]; exact List.mem_cons_self)
  by_contra hstop
  rw [not_isNameContinue_of_isStop (by simpa using hstop)] at hc
  exact absurd hc (by decide)

/-! ## Fields -/

/-- A name, a colon, and a literal. -/
def fieldChars (f : String × Literal) : List Char := f.1.toList ++ ':' :: ' ' :: f.2.text.toList

/-- **A field is told apart if its literal is**: the name ends at the colon. -/
theorem field_toldApart {P : Literal → Prop} {f : String × Literal} (hn : IsName f.1)
    (hl : ToldApart P (fun l => l.text.toList) f.2) :
    ToldApart (fun f => IsName f.1 ∧ P f.2) fieldChars f := by
  intro g hg r r' hr hr' h
  have hcolon : ∀ r : List Char, ∀ c ∈ (':' :: r).head?, isNameContinue c = false := by
    intro r
    exact forall_mem_head?_cons.mpr rfl
  rw [fieldChars, fieldChars, List.append_assoc, List.append_assoc] at h
  obtain ⟨hname, hrest⟩ := name_unique hn hg.1 (hcolon _) (hcolon _) h
  obtain ⟨hliteral, hend⟩ := hl g.2 hg.2 r r' hr hr' (List.cons.inj (List.cons.inj hrest).2).2
  exact ⟨Prod.ext hname hliteral, hend⟩

/-- Fields between brackets are told apart if their literals are. -/
theorem fields_toldApart {P : Literal → Prop} {close : Char} (hclose : isStop close = true)
    (hcomma : close ≠ ',') {fs gs : List (String × Literal)}
    (hfs : ∀ f ∈ fs, IsName f.1 ∧ P f.2)
    (hl : ∀ f ∈ fs, ToldApart P (fun l => l.text.toList) f.2)
    (hgs : ∀ g ∈ gs, IsName g.1 ∧ P g.2) {r r' : List Char}
    (h : listed (fs.map fieldChars) ++ close :: r = listed (gs.map fieldChars) ++ close :: r') :
    fs = gs ∧ r = r' :=
  listed_toldApart hclose hcomma (fun _ hf => starts_of_isName hf.1 _) hfs
    (fun f hf => field_toldApart (hfs f hf).1 (hl f hf)) hgs h

/-! ## Words and numbers -/

/-- The literals that stand for null, truth values and numbers. -/
inductive Atom : Literal → Prop
  | null : Atom .null
  | bool (b : Bool) : Atom (.bool b)
  | int (n : Int) : Atom (.int (toString n))
  | float (x : Binary64) (h : x.isFinite = true) : Atom (.float x.text)

/-- The characters of words and numbers. -/
def isAtomChar (c : Char) : Bool := c.isAlphanum || c == '.' || c == '-' || c == '+'

/-- The characters of numbers. -/
def isNumberChar (c : Char) : Bool := isAsciiDigit c || c == '.' || c == 'e' || c == '-' || c == '+'

theorem isNumberChar_int {n : Int} {c : Char} (hc : c ∈ (toString n).toList) :
    isNumberChar c = true := by
  rcases mem_toString_int hc with h | rfl
  · simp [isNumberChar, h]
  · rfl

theorem isNumberChar_float {x : Binary64} (hx : x.isFinite = true) {c : Char}
    (hc : c ∈ x.text.toList) : isNumberChar c = true := by
  rcases Binary64.mem_text hx hc with h | rfl | rfl | rfl | rfl
  · simp [isNumberChar, h]
  all_goals rfl

theorem isAtomChar_of_isNumberChar {c : Char} (h : isNumberChar c = true) : isAtomChar c = true := by
  simp only [isNumberChar, Bool.or_eq_true, beq_iff_eq] at h
  rcases h with (((h | rfl) | rfl) | rfl) | rfl
  · have hdigit : c.isDigit = true := h
    simp [isAtomChar, Char.isAlphanum, hdigit]
  all_goals rfl

/-- The stops are no characters of words and numbers. -/
theorem not_isAtomChar_of_isStop {c : Char} (h : isStop c = true) : isAtomChar c = false := by
  simp only [isStop, Bool.or_eq_true, beq_iff_eq] at h
  rcases h with (((rfl | rfl) | rfl) | rfl) | rfl <;> decide

theorem null_toList : Literal.null.text.toList = ['n', 'u', 'l', 'l'] := rfl

theorem bool_toList (b : Bool) : (Literal.bool b).text.toList =
    if b then ['t', 'r', 'u', 'e'] else ['f', 'a', 'l', 's', 'e'] := by
  cases b <;> rfl

namespace Atom

variable {l l' : Literal}

/-- The text of a word or a number is a nonempty run. -/
theorem chars (h : Atom l) : l.text.toList ≠ [] ∧ ∀ c ∈ l.text.toList, isAtomChar c = true := by
  cases h with
  | null => exact ⟨by simp [null_toList], List.all_eq_true.mp rfl⟩
  | bool b => cases b <;> exact ⟨by simp [bool_toList], List.all_eq_true.mp rfl⟩
  | int n =>
    rw [Literal.text]
    exact ⟨toString_int_ne_nil n, fun c hc => isAtomChar_of_isNumberChar (isNumberChar_int hc)⟩
  | float x hx =>
    rw [Literal.text]
    exact ⟨Binary64.text_ne_nil hx,
      fun c hc => isAtomChar_of_isNumberChar (isNumberChar_float hx hc)⟩

/-- The literals that stand for numbers. -/
def isNumber : Literal → Bool
  | .int _ | .float _ => true
  | _ => false

/-- Words have a letter that no number has. -/
theorem isNumber_iff (h : Atom l) :
    isNumber l = true ↔ ∀ c ∈ l.text.toList, isNumberChar c = true := by
  cases h with
  | null =>
    have hn : 'n' ∈ Literal.null.text.toList := by simp [null_toList]
    exact iff_of_false (by simp [isNumber]) fun h => absurd (h 'n' hn) (by decide)
  | bool b =>
    have hletter : (if b then 't' else 'f') ∈ (Literal.bool b).text.toList := by
      cases b <;> simp [bool_toList]
    refine iff_of_false (by simp [isNumber]) fun h => absurd (h _ hletter) ?_
    cases b <;> decide
  | int n => exact iff_of_true rfl (fun c hc => isNumberChar_int hc)
  | float x hx => exact iff_of_true rfl (fun c hc => isNumberChar_float hx hc)

/-- **Words and numbers differ as texts**: integers from truth values and from floating-point numbers of
the same amount, and these among each other. -/
theorem text_injective (h : Atom l) (h' : Atom l') (heq : l.text = l'.text) : l = l' := by
  have hkind : isNumber l = isNumber l' := by
    rw [Bool.eq_iff_iff, h.isNumber_iff, h'.isNumber_iff, heq]
  cases h with
  | null =>
    cases h' with
    | null => rfl
    | bool b => cases b <;> exact absurd heq (by decide)
    | int n => exact absurd hkind (by simp [isNumber])
    | float x hx => exact absurd hkind (by simp [isNumber])
  | bool b =>
    cases h' with
    | null => cases b <;> exact absurd heq (by decide)
    | bool b' => cases b <;> cases b' <;> first | rfl | exact absurd heq (by decide)
    | int n => exact absurd hkind (by simp [isNumber])
    | float x hx => exact absurd hkind (by simp [isNumber])
  | int n =>
    cases h' with
    | null => exact absurd hkind (by simp [isNumber])
    | bool b => exact absurd hkind (by simp [isNumber])
    | int n' => rw [Literal.text, Literal.text] at heq; rw [heq]
    | float x hx =>
      rw [Literal.text, Literal.text] at heq
      exact absurd heq.symm (Binary64.text_ne_toString hx n)
  | float x hx =>
    cases h' with
    | null => exact absurd hkind (by simp [isNumber])
    | bool b => exact absurd hkind (by simp [isNumber])
    | int n =>
      rw [Literal.text, Literal.text] at heq
      exact absurd heq (Binary64.text_ne_toString hx n)
    | float x' hx' => rw [Literal.text, Literal.text] at heq; rw [heq]

/-- What is written for an atom ends at a stop. -/
theorem unique (h : Atom l) (h' : Atom l') {r r' : List Char} (hr : Stops r) (hr' : Stops r')
    (heq : l.text.toList ++ r = l'.text.toList ++ r') : l = l' ∧ r = r' := by
  obtain ⟨htext, hrest⟩ := run_unique h.chars.2 h'.chars.2
    (fun c hc => not_isAtomChar_of_isStop (hr c hc))
    (fun c hc => not_isAtomChar_of_isStop (hr' c hc)) heq
  exact ⟨h.text_injective h' (String.toList_inj.mp htext), hrest⟩

theorem exists_head (h : Atom l) : ∃ c r, l.text.toList = c :: r ∧ isAtomChar c = true := by
  obtain ⟨hne, hchars⟩ := h.chars
  obtain ⟨c, r, hcr⟩ := List.exists_cons_of_ne_nil hne
  exact ⟨c, r, hcr, hchars c (by rw [hcr]; exact List.mem_cons_self)⟩

end Atom

/-! ## Literals -/

/-- The literals of the values that are told apart. -/
inductive Formed : Literal → Prop
  | atom {l : Literal} (h : Atom l) : Formed l
  | string (s : String) : Formed (.string s)
  | list {items : List Literal} (h : ∀ l ∈ items, Formed l) : Formed (.list items)
  | object {fields : List (String × Literal)} (hn : ∀ f ∈ fields, IsName f.1)
      (h : ∀ f ∈ fields, Formed f.2) : Formed (.object fields)

theorem itemTexts_eq (items : List Literal) : Literal.itemTexts items = items.map Literal.text := by
  induction items with
  | nil => rfl
  | cons l items ih => rw [Literal.itemTexts, ih, List.map_cons]

theorem fieldTexts_eq (fields : List (String × Literal)) :
    Literal.fieldTexts fields = fields.map fun f => f.1 ++ ": " ++ f.2.text := by
  induction fields with
  | nil => rfl
  | cons f fields ih => rw [Literal.fieldTexts, ih, List.map_cons]

/-- The texts of fields between brackets. -/
theorem listed_fieldChars (fields : List (String × Literal)) :
    (", ".intercalate (fields.map fun f => f.1 ++ ": " ++ f.2.text)).toList =
      listed (fields.map fieldChars) := by
  have hfield : ∀ f : String × Literal, (f.1 ++ ": " ++ f.2.text).toList = fieldChars f := by
    intro f
    rw [fieldChars, String.toList_append, String.toList_append, List.append_assoc]
    rfl
  rw [String.toList_intercalate, List.map_map]
  show listed _ = _
  congr 1
  exact List.map_congr_left fun f _ => hfield f

theorem list_toList (items : List Literal) (r : List Char) :
    (Literal.list items).text.toList ++ r =
      '[' :: (listed (items.map fun l => l.text.toList) ++ ']' :: r) := by
  rw [Literal.text, String.toList_append, String.toList_append, String.toList_intercalate,
    itemTexts_eq, List.map_map, List.append_assoc, List.append_assoc]
  rfl

theorem object_toList (fields : List (String × Literal)) (r : List Char) :
    (Literal.object fields).text.toList ++ r =
      '{' :: (listed (fields.map fieldChars) ++ '}' :: r) := by
  rw [Literal.text, fieldTexts_eq, String.toList_append, String.toList_append, listed_fieldChars,
    List.append_assoc, List.append_assoc]
  rfl

theorem string_toList (s : String) (r : List Char) :
    (Literal.string s).text.toList ++ r = '"' :: (s.toList.flatMap escapeChar ++ ['"'] ++ r) := by
  rw [Literal.text, stringLiteral_toList, List.cons_append]

/-- The character that opens a literal which is no word and no number. -/
def opening : Literal → Option Char
  | .string _ => some '"'
  | .list _ => some '['
  | .object _ => some '\x7b'
  | _ => none

theorem Atom.opening {l : Literal} (h : Atom l) : opening l = none := by
  cases h <;> rfl

namespace Formed

/-- No literal starts with a stop. -/
theorem starts {l : Literal} (h : Formed l) : Starts l.text.toList := by
  cases h with
  | atom h =>
    obtain ⟨c, r, hcr, hc⟩ := h.exists_head
    refine ⟨c, r, hcr, ?_⟩
    by_contra hstop
    rw [not_isAtomChar_of_isStop (by simpa using hstop)] at hc
    exact absurd hc (by decide)
  | string s => exact ⟨'"', _, by rw [Literal.text, stringLiteral_toList], by decide⟩
  | list h => exact ⟨'[', _, by rw [← List.append_nil (Literal.text _).toList, list_toList], by decide⟩
  | object hn h =>
    exact ⟨'{', _, by rw [← List.append_nil (Literal.text _).toList, object_toList], by decide⟩

/-- The first character of a text, unless words and numbers are made of it, is what opens the literal. -/
theorem opening_eq {l : Literal} (h : Formed l) (r : List Char) :
    (l.text.toList ++ r).head?.filter (fun c => !isAtomChar c) = opening l := by
  cases h with
  | atom h =>
    obtain ⟨c, rest, hcr, hc⟩ := h.exists_head
    rw [hcr, h.opening, List.cons_append, List.head?_cons]
    simp [hc]
  | string s =>
    rw [string_toList]
    rfl
  | list h =>
    rw [list_toList]
    rfl
  | object hn h =>
    rw [object_toList]
    rfl

/-- Literals with one text in front of what follows them are opened alike. -/
theorem opening_congr {l l' : Literal} (hl : Formed l) (hl' : Formed l') {r r' : List Char}
    (h : l.text.toList ++ r = l'.text.toList ++ r') : opening l = opening l' := by
  rw [← hl.opening_eq r, h, hl'.opening_eq r']

/-- **Literals are told apart by their texts**, whatever they are made of and whatever follows. -/
theorem toldApart {l : Literal} (hl : Formed l) : ToldApart Formed (fun l => l.text.toList) l := by
  -- by induction on the literal; the other one is opened alike, and so is of the same kind
  induction hl with
  | atom ha =>
    intro l' hl' r r' hr hr' h
    have hopen := opening_congr (.atom ha) hl' h
    rw [ha.opening] at hopen
    cases hl' with
    | atom ha' => exact ha.unique ha' hr hr' h
    | string t => exact absurd hopen (by simp [opening])
    | list h' => exact absurd hopen (by simp [opening])
    | object hn' h' => exact absurd hopen (by simp [opening])
  | string s =>
    intro l' hl' r r' hr hr' h
    have hopen := opening_congr (.string s) hl' h
    cases hl' with
    | atom ha' => exact absurd (hopen.trans ha'.opening) (by simp [opening])
    | string t =>
      simp only [Literal.text] at h
      obtain ⟨rfl, hrest⟩ := stringLiteral_delimited h
      exact ⟨rfl, hrest⟩
    | list h' => exact absurd hopen (by simp [opening])
    | object hn' h' => exact absurd hopen (by simp [opening])
  | @list items hitems ih =>
    intro l' hl' r r' hr hr' h
    have hopen := opening_congr (.list hitems) hl' h
    cases hl' with
    | atom ha' => exact absurd (hopen.trans ha'.opening) (by simp [opening])
    | string t => exact absurd hopen (by simp [opening])
    | @list items' hitems' =>
      dsimp only at h
      rw [list_toList, list_toList] at h
      obtain ⟨rfl, hrest⟩ := listed_toldApart (by decide) (by decide) (fun l hl => starts hl) hitems
        ih hitems' (List.cons.inj h).2
      exact ⟨rfl, hrest⟩
    | object hn' h' => exact absurd hopen (by simp [opening])
  | @object fields hn hfields ih =>
    intro l' hl' r r' hr hr' h
    have hopen := opening_congr (.object hn hfields) hl' h
    cases hl' with
    | atom ha' => exact absurd (hopen.trans ha'.opening) (by simp [opening])
    | string t => exact absurd hopen (by simp [opening])
    | list h' => exact absurd hopen (by simp [opening])
    | @object fields' hn' hfields' =>
      dsimp only at h
      rw [object_toList, object_toList] at h
      obtain ⟨rfl, hrest⟩ := fields_toldApart (by decide) (by decide)
        (fun f hf => ⟨hn f hf, hfields f hf⟩) ih (fun f hf => ⟨hn' f hf, hfields' f hf⟩)
        (List.cons.inj h).2
      exact ⟨rfl, hrest⟩

end Formed

end Subgraph.Sdl
