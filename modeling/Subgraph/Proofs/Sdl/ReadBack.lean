import Subgraph.Proofs.Sdl.Applied
import Subgraph.Proofs.Sdl.Reading
import Subgraph.Proofs.Value.Inside

/-!
# `Sdl.Applied` — applied directives read back

The text behind an element determines the directives that it shows, if their names, those of their
arguments and the keys of their dictionaries are names and their values are `Readable`. Writing takes two
steps, and neither loses anything.

- A value becomes a literal. Values of one literal are equal (`Readable.ofValue_injective`): integers and
  floating-point numbers have literals of two kinds, and either is found again from its digits.
- Directives with their literals are written (`appliedChars`), and told apart by what is written
  (`applied_toldApart`): a name ends where no character of a name stands, arguments at the parenthesis.

Neither step fails but on an integer that is too long to be written, or on a value that is nested too deeply
to be gone through (`Readable.exists_ofValue_iff`, `exists_directiveTexts_iff`).

## Contents
- `Value.Readable`, `Directive.Readable` — what reads back.
- `Literal.StandsFor` — what the literal of a value says of it.
- `Directive.literals?` — a directive with the literals of its arguments.
- `applied_text_reads_back` — the result, for any catalogs and versions.
-/

namespace Subgraph

open Text

/-! ## What reads back -/

/-- The values whose literals tell them apart: null, truth values, integers, finite floating-point values,
texts, and lists and dictionaries of these, under keys that are names. -/
inductive Value.Readable : Value → Prop
  | null : Readable .null
  | bool (b : Bool) : Readable (.bool b)
  | int (n : Int) : Readable (.int n)
  | float (x : Binary64) (h : x.isFinite = true) : Readable (.float x)
  | text (s : String) : Readable (.text s)
  | list {items : List Value} (h : ∀ v ∈ items, Readable v) : Readable (.list items)
  | dict {entries : List (Value × Value)} (hk : ∀ e ∈ entries, ∃ k, e.1 = .text k ∧ IsName k)
      (h : ∀ e ∈ entries, Readable e.2) : Readable (.dict entries)

/-- The directives that read back. -/
structure Directive.Readable (d : Directive) : Prop where
  name : IsName d.name
  arguments : ∀ a ∈ d.arguments, IsName a.name ∧ a.value.Readable

/-! ## Literals of values -/

namespace Literal

variable {room : Nat} {items : List Value} {entries : List (Value × Value)} {l : Literal}

/-- The field of an entry. -/
def ofEntry (room : Nat) (e : Value × Value) : Except Failure (String × Literal) := do
  let name ← keyText room e.1
  let l ← ofValue room e.2
  return (name, l)

theorem ofItems_eq (room : Nat) (items : List Value) :
    ofItems room items = items.mapM (ofValue room) := by
  induction items with
  | nil => rfl
  | cons v items ih =>
    rw [ofItems, List.mapM_cons, ih]
    cases ofValue room v with
    | error f => rfl
    | ok l =>
      cases items.mapM (ofValue room) with
      | error f => rfl
      | ok ls => rfl

theorem ofEntries_eq (room : Nat) (entries : List (Value × Value)) :
    ofEntries room entries = entries.mapM (ofEntry room) := by
  induction entries with
  | nil => rfl
  | cons e entries ih =>
    obtain ⟨k, v⟩ := e
    rw [ofEntries, List.mapM_cons, ih, ofEntry]
    cases keyText room k with
    | error f => rfl
    | ok name =>
      cases ofValue room v with
      | error f => rfl
      | ok l =>
        cases entries.mapM (ofEntry room) with
        | error f => rfl
        | ok fs => rfl

/-- The literal of a list is that of its items, for which two calls less are left. -/
theorem ofValue_list (room : Nat) (items : List Value) :
    ofValue (room + 2) (.list items) = (items.mapM (ofValue room)).map .list := by
  rw [ofValue, if_neg (by omega), Nat.add_sub_cancel, ofItems_eq]
  cases items.mapM (ofValue room) <;> rfl

theorem ofValue_dict (room : Nat) (entries : List (Value × Value)) :
    ofValue (room + 2) (.dict entries) = (entries.mapM (ofEntry room)).map .object := by
  rw [ofValue, if_neg (by omega), Nat.add_sub_cancel, ofEntries_eq]
  cases entries.mapM (ofEntry room) <;> rfl

/-- A list that has a literal is opened, and so has one for each of its items. -/
theorem ofValue_list_ok (h : ofValue room (.list items) = .ok l) :
    ∃ below ls, room = below + 2 ∧ items.mapM (ofValue below) = .ok ls ∧ l = .list ls := by
  by_cases hroom : room < 2
  · rw [ofValue, if_pos hroom] at h
    exact absurd h (by simp)
  · obtain ⟨below, rfl⟩ : ∃ below, room = below + 2 := ⟨room - 2, by omega⟩
    rw [ofValue_list] at h
    obtain ⟨ls, hls, rfl⟩ := map_eq_ok.mp h
    exact ⟨below, ls, rfl, hls, rfl⟩

theorem ofValue_dict_ok (h : ofValue room (.dict entries) = .ok l) :
    ∃ below fs, room = below + 2 ∧ entries.mapM (ofEntry below) = .ok fs ∧ l = .object fs := by
  by_cases hroom : room < 2
  · rw [ofValue, if_pos hroom] at h
    exact absurd h (by simp)
  · obtain ⟨below, rfl⟩ : ∃ below, room = below + 2 := ⟨room - 2, by omega⟩
    rw [ofValue_dict] at h
    obtain ⟨fs, hfs, rfl⟩ := map_eq_ok.mp h
    exact ⟨below, fs, rfl, hfs, rfl⟩

theorem ofValue_int {n : Int} (h : ofValue room (.int n) = .ok l) : l = .int (toString n) := by
  rw [ofValue] at h
  split at h
  · exact absurd h (by simp)
  · exact (Except.ok.inj h).symm

theorem ofValue_float {x : Binary64} (h : ofValue room (.float x) = .ok l) : l = .float x.text := by
  rw [ofValue] at h
  split at h
  · exact (Except.ok.inj h).symm
  · exact absurd h (by simp)

/-- A text as a key is written as it is. -/
theorem keyText_text (room : Nat) (k : String) : keyText room (.text k) = .ok k :=
  if_neg (Nat.not_lt_zero room)

/-- The field of an entry under a text has the text as its name. -/
theorem ofEntry_text {k : String} {v : Value} {f : String × Literal}
    (h : ofEntry room (.text k, v) = .ok f) : f.1 = k ∧ ofValue room v = .ok f.2 := by
  rw [ofEntry, keyText_text, ok_bind] at h
  obtain ⟨l, hl, hf⟩ := bind_eq_ok.mp h
  obtain rfl : (k, l) = f := Except.ok.inj hf
  exact ⟨rfl, hl⟩

/-- What a literal says of the value that it stands for. -/
def StandsFor (room : Nat) : Literal → Value → Prop
  | .null, v => v = .null
  | .bool b, v => v = .bool b
  | .int digits, v => ∃ n, v = .int n ∧ digits = toString n
  | .float digits, v => ∃ x, v = .float x ∧ x.isFinite = true ∧ digits = x.text
  | .string s, v => v = .text s
  | .enum _, _ => False
  | .list ls, v => ∃ items, v = .list items ∧ (∀ x ∈ items, x.Readable) ∧
      ∀ below, room = below + 2 → items.mapM (ofValue below) = .ok ls
  | .object fs, v => ∃ entries, v = .dict entries ∧
      (∀ e ∈ entries, ∃ k, e.1 = .text k ∧ IsName k) ∧ (∀ e ∈ entries, e.2.Readable) ∧
        ∀ below, room = below + 2 → entries.mapM (ofEntry below) = .ok fs

end Literal

namespace Value

theorem itemsWithinDigitLimit_eq (items : List Value) :
    itemsWithinDigitLimit items = items.all withinDigitLimit := by
  induction items with
  | nil => rfl
  | cons v items ih => rw [itemsWithinDigitLimit, ih, List.all_cons]

theorem entriesWithinDigitLimit_eq (entries : List (Value × Value)) :
    entriesWithinDigitLimit entries =
      entries.all fun e => e.1.withinDigitLimit && e.2.withinDigitLimit := by
  induction entries with
  | nil => rfl
  | cons e entries ih => rw [entriesWithinDigitLimit, ih, List.all_cons]

end Value

namespace Value.Readable

open Literal

variable {room : Nat} {v w : Value} {l : Literal}

theorem standsFor (hv : v.Readable) (h : ofValue room v = .ok l) : l.StandsFor room v := by
  cases hv with
  | null =>
    obtain rfl : Literal.null = l := Except.ok.inj h
    exact rfl
  | bool b =>
    obtain rfl : Literal.bool b = l := Except.ok.inj h
    exact rfl
  | int n =>
    rw [ofValue_int h]
    exact ⟨n, rfl, rfl⟩
  | float x hx =>
    rw [ofValue_float h]
    exact ⟨x, rfl, hx, rfl⟩
  | text s =>
    obtain rfl : Literal.string s = l := Except.ok.inj h
    exact rfl
  | list hitems =>
    obtain ⟨below, ls, rfl, hls, rfl⟩ := ofValue_list_ok h
    refine ⟨_, rfl, hitems, fun below' hbelow => ?_⟩
    rwa [show below' = below by omega]
  | dict hk hentries =>
    obtain ⟨below, fs, rfl, hfs, rfl⟩ := ofValue_dict_ok h
    refine ⟨_, rfl, hk, hentries, fun below' hbelow => ?_⟩
    rwa [show below' = below by omega]

/-- The literals of readable values are those that texts tell apart. -/
theorem formed (hv : v.Readable) (h : ofValue room v = .ok l) : Sdl.Formed l := by
  induction hv generalizing room l with
  | null =>
    obtain rfl : Literal.null = l := Except.ok.inj h
    exact .atom .null
  | bool b =>
    obtain rfl : Literal.bool b = l := Except.ok.inj h
    exact .atom (.bool b)
  | int n =>
    rw [ofValue_int h]
    exact .atom (.int n)
  | float x hx =>
    rw [ofValue_float h]
    exact .atom (.float x hx)
  | text s =>
    obtain rfl : Literal.string s = l := Except.ok.inj h
    exact .string s
  | list hitems ih =>
    obtain ⟨below, ls, -, hls, rfl⟩ := ofValue_list_ok h
    apply Sdl.Formed.list
    intro l hl
    obtain ⟨x, hx, hxl⟩ := exists_of_mem_mapM hls hl
    exact ih x hx hxl
  | dict hk hentries ih =>
    obtain ⟨below, fs, -, hfs, rfl⟩ := ofValue_dict_ok h
    have hfield : ∀ f ∈ fs, IsName f.1 ∧ Sdl.Formed f.2 := by
      intro f hf
      obtain ⟨⟨key, x⟩, he, hef⟩ := exists_of_mem_mapM hfs hf
      obtain ⟨k, rfl, hname⟩ := hk _ he
      obtain ⟨hfk, hfx⟩ := ofEntry_text hef
      exact ⟨hfk ▸ hname, ih _ he hfx⟩
    exact .object (fun f hf => (hfield f hf).1) (fun f hf => (hfield f hf).2)

/-- **Values of one literal are equal.** -/
theorem ofValue_injective (hv : v.Readable) (hw : w.Readable) (h : ofValue room v = .ok l)
    (h' : ofValue room w = .ok l) : v = w := by
  induction hv generalizing room w l with
  | null =>
    obtain rfl : Literal.null = l := Except.ok.inj h
    exact (hw.standsFor h').symm
  | bool b =>
    obtain rfl : Literal.bool b = l := Except.ok.inj h
    exact (hw.standsFor h').symm
  | int n =>
    obtain rfl := ofValue_int h
    obtain ⟨n', rfl, hdigits⟩ := hw.standsFor h'
    rw [eq_of_toString_int hdigits]
  | float x hx =>
    obtain rfl := ofValue_float h
    obtain ⟨x', rfl, hx', hdigits⟩ := hw.standsFor h'
    rw [Binary64.text_injective hx hx' hdigits]
  | text s =>
    obtain rfl : Literal.string s = l := Except.ok.inj h
    exact (hw.standsFor h').symm
  | list hitems ih =>
    obtain ⟨below, ls, rfl, hls, rfl⟩ := ofValue_list_ok h
    obtain ⟨items', rfl, hitems', hls'⟩ := hw.standsFor h'
    rw [mapM_injective (fun x hx x' hx' l hl hl' => ih x hx (hitems' x' hx') hl hl') hls
      (hls' below rfl)]
  | @dict entries hk hentries ih =>
    obtain ⟨below, fs, rfl, hfs, rfl⟩ := ofValue_dict_ok h
    obtain ⟨entries', rfl, hk', hentries', hfs'⟩ := hw.standsFor h'
    -- an entry is found again from its field: the key is the name
    have hentry : ∀ e ∈ entries, ∀ e' ∈ entries', ∀ f, ofEntry below e = .ok f →
        ofEntry below e' = .ok f → e = e' := by
      rintro ⟨key, x⟩ he ⟨key', x'⟩ he' f hf hf'
      obtain ⟨k, rfl, -⟩ := hk _ he
      obtain ⟨k', rfl, -⟩ := hk' _ he'
      obtain ⟨hfk, hfx⟩ := ofEntry_text hf
      obtain ⟨hfk', hfx'⟩ := ofEntry_text hf'
      have hkey : k = k' := hfk.symm.trans hfk'
      have hvalue : x = x' := ih _ he (hentries' _ he') hfx hfx'
      rw [hkey, hvalue]
    rw [mapM_injective hentry hfs (hfs' below rfl)]

/-- **A value has a literal iff its integers are short enough to be written and there is room for it.** -/
theorem exists_ofValue_iff (hv : v.Readable) :
    (∃ l, ofValue room v = .ok l) ↔ v.withinDigitLimit = true ∧ v.literalFrames ≤ room := by
  induction hv generalizing room with
  | null => exact iff_of_true ⟨_, rfl⟩ ⟨rfl, Nat.zero_le room⟩
  | bool b => exact iff_of_true ⟨_, rfl⟩ ⟨rfl, Nat.zero_le room⟩
  | int n =>
    have hframes : (Value.int n).literalFrames = 0 := rfl
    rw [ofValue, withinDigitLimit, hframes]
    cases exceedsDigitLimit n <;> simp
  | float x hx =>
    refine iff_of_true ⟨.float x.text, ?_⟩ ⟨rfl, Nat.zero_le room⟩
    rw [ofValue, if_pos hx]
  | text s => exact iff_of_true ⟨_, rfl⟩ ⟨rfl, Nat.zero_le room⟩
  | @list items hitems ih =>
    rw [withinDigitLimit, itemsWithinDigitLimit_eq, List.all_eq_true, literalFrames]
    by_cases hroom : room < 2
    · refine iff_of_false ?_ (by omega)
      rintro ⟨l, hl⟩
      obtain ⟨below, ls, rfl, -⟩ := ofValue_list_ok hl
      omega
    · obtain ⟨below, rfl⟩ : ∃ below, room = below + 2 := ⟨room - 2, by omega⟩
      rw [ofValue_list, exists_map_eq_ok, exists_mapM_eq_ok, Nat.add_le_add_iff_right,
        literalItemsFrames_le_iff, ← forall₂_and]
      exact forall₂_congr fun x hx => ih x hx
  | @dict entries hk hentries ih =>
    rw [withinDigitLimit, entriesWithinDigitLimit_eq, List.all_eq_true, literalFrames]
    by_cases hroom : room < 2
    · refine iff_of_false ?_ (by omega)
      rintro ⟨l, hl⟩
      obtain ⟨below, fs, rfl, -⟩ := ofValue_dict_ok hl
      omega
    · obtain ⟨below, rfl⟩ : ∃ below, room = below + 2 := ⟨room - 2, by omega⟩
      rw [ofValue_dict, exists_map_eq_ok, exists_mapM_eq_ok, Nat.add_le_add_iff_right,
        literalEntriesFrames_le_iff, ← forall₂_and]
      refine forall₂_congr fun e he => ?_
      have ih : (∃ l, ofValue below e.2 = .ok l) ↔
          e.2.withinDigitLimit = true ∧ e.2.literalFrames ≤ below := ih e he
      obtain ⟨key, x⟩ := e
      obtain ⟨k, rfl, -⟩ := hk _ he
      -- the key is a text, which is written as it is and has no integers
      have hfield : ofEntry below (.text k, x) = (ofValue below x).map fun l => (k, l) := by
        rw [ofEntry, keyText_text, ok_bind]
        cases ofValue below x <;> rfl
      rw [hfield, exists_map_eq_ok, ih]
      simp [withinDigitLimit, plainFrames, frames]

/-- **Values of one text are equal**, and so is what follows them. -/
theorem literalText_unique (hv : v.Readable) (hw : w.Readable) {s t : String}
    (h : literalText v = .ok s) (h' : literalText w = .ok t) {r r' : List Char} (hr : Sdl.Stops r)
    (hr' : Sdl.Stops r') (heq : s.toList ++ r = t.toList ++ r') : v = w ∧ r = r' := by
  obtain ⟨l, hl, rfl⟩ := map_eq_ok.mp h
  obtain ⟨l', hl', rfl⟩ := map_eq_ok.mp h'
  obtain ⟨rfl, hrest⟩ := (hv.formed hl).toldApart l' (hw.formed hl') r r' hr hr' heq
  exact ⟨hv.ofValue_injective hw hl hl', hrest⟩

end Value.Readable

/-! ## Directives with their literals -/

/-- An argument with its literal. -/
def Argument.field? (a : Argument) : Except Failure (String × Literal) :=
  (Literal.ofValue stackRoom a.value).map fun l => (a.name, l)

/-- A directive with the literals of its arguments. -/
def Directive.literals? (d : Directive) : Except Failure (String × List (String × Literal)) :=
  (d.arguments.mapM Argument.field?).map fun fs => (d.name, fs)

namespace Sdl

/-- Arguments in parentheses, if there are any. -/
def argumentChars : List (String × Literal) → List Char
  | [] => []
  | fs => '(' :: (listed (fs.map fieldChars) ++ [')'])

/-- A directive as it is written. -/
def appliedChars (d : String × List (String × Literal)) : List Char :=
  '@' :: (d.1.toList ++ argumentChars d.2)

end Sdl

theorem Argument.text?_eq (a : Argument) :
    a.text? = a.field?.map fun f => f.1 ++ ": " ++ f.2.text := by
  unfold Argument.text? Argument.field? literalText Literal.textWithin
  cases Literal.ofValue stackRoom a.value <;> rfl

/-- The text of a directive is written for it with its literals. -/
theorem Directive.text?_eq_ok {d : Directive} {t : String} (h : d.text? = .ok t) :
    ∃ p, d.literals? = .ok p ∧ t.toList = Sdl.appliedChars p := by
  have hfields : d.arguments.mapM Argument.text? =
      (d.arguments.mapM Argument.field?).map (List.map fun f => f.1 ++ ": " ++ f.2.text) := by
    rw [← mapM_map]
    exact mapM_congr fun a _ => a.text?_eq
  unfold Directive.text? at h
  split at h
  · next hnil =>
    obtain rfl : "@" ++ d.name = t := Except.ok.inj h
    refine ⟨(d.name, []), ?_, ?_⟩
    · rw [Directive.literals?, hnil]
      rfl
    · rw [String.toList_append, Sdl.appliedChars, Sdl.argumentChars, List.append_nil]
      rfl
  · next hne =>
    rw [hfields] at h
    obtain ⟨ts, hts, rfl⟩ := map_eq_ok.mp h
    obtain ⟨fs, hfs, rfl⟩ := map_eq_ok.mp hts
    refine ⟨(d.name, fs), ?_, ?_⟩
    · rw [Directive.literals?, hfs]
      rfl
    · -- there are arguments, so there are fields
      have hchars : Sdl.argumentChars fs = '(' :: (Sdl.listed (fs.map Sdl.fieldChars) ++ [')']) := by
        cases fs with
        | nil =>
          obtain ⟨a, as, has⟩ := List.exists_cons_of_ne_nil hne
          rw [has, List.mapM_cons] at hfs
          obtain ⟨f, -, hfs⟩ := bind_eq_ok.mp hfs
          obtain ⟨fs, -, hfs⟩ := bind_eq_ok.mp hfs
          injection hfs with hcons
          exact absurd hcons (by simp)
        | cons f fs => rfl
      rw [Sdl.appliedChars, hchars, String.toList_append, String.toList_append, String.toList_append,
        String.toList_append, Sdl.listed_fieldChars, List.append_assoc, List.append_assoc,
        List.append_assoc]
      rfl

/-- **Directives that are written alike are equal.** -/
theorem Directive.Readable.literals_injective {d e : Directive} (hd : d.Readable) (he : e.Readable)
    {p : String × List (String × Literal)} (h : d.literals? = .ok p) (h' : e.literals? = .ok p) :
    d = e := by
  obtain ⟨fs, hfs, rfl⟩ := map_eq_ok.mp h
  obtain ⟨fs', hfs', hp⟩ := map_eq_ok.mp h'
  obtain ⟨hname, rfl⟩ := Prod.mk.inj hp
  have hargument : ∀ a ∈ d.arguments, ∀ b ∈ e.arguments, ∀ f, a.field? = .ok f → b.field? = .ok f →
      a = b := by
    rintro ⟨n, v⟩ ha ⟨n', w⟩ hb f hf hf'
    obtain ⟨l, hl, rfl⟩ := map_eq_ok.mp hf
    obtain ⟨l', hl', hp⟩ := map_eq_ok.mp hf'
    obtain ⟨hn, rfl⟩ := Prod.mk.inj hp
    have hvalue : v = w := (hd.arguments _ ha).2.ofValue_injective (he.arguments _ hb).2 hl hl'
    have hname : n' = n := hn
    rw [hname, hvalue]
  have harguments : d.arguments = e.arguments := mapM_injective hargument hfs hfs'
  obtain ⟨n, as⟩ := d
  obtain ⟨n', bs⟩ := e
  obtain rfl : n' = n := hname
  obtain rfl : as = bs := harguments
  rfl

namespace Sdl

/-- The directives that texts tell apart. -/
def FormedApplied (d : String × List (String × Literal)) : Prop :=
  IsName d.1 ∧ ∀ f ∈ d.2, IsName f.1 ∧ Formed f.2

theorem formedApplied_of_readable {d : Directive} (hd : d.Readable)
    {p : String × List (String × Literal)} (h : d.literals? = .ok p) : FormedApplied p := by
  obtain ⟨fs, hfs, rfl⟩ := map_eq_ok.mp h
  refine ⟨hd.name, ?_⟩
  intro f hf
  obtain ⟨a, ha, haf⟩ := exists_of_mem_mapM hfs hf
  obtain ⟨l, hl, rfl⟩ := map_eq_ok.mp haf
  obtain ⟨hname, hvalue⟩ := hd.arguments a ha
  exact ⟨hname, hvalue.formed hl⟩

/-- Behind the name of a directive stands no character of a name. -/
theorem head?_argumentChars (fs : List (String × Literal)) {r : List Char} (hr : Stops r) :
    ∀ c ∈ (argumentChars fs ++ r).head?, isNameContinue c = false := by
  cases fs with
  | nil =>
    intro c hc
    exact not_isNameContinue_of_isStop (hr c hc)
  | cons f fs => exact forall_mem_head?_cons.mpr rfl

/-- **Directives are told apart by what is written for them**: names, and all arguments. -/
theorem applied_toldApart {d : String × List (String × Literal)} (hd : FormedApplied d) :
    ToldApart FormedApplied appliedChars d := by
  intro e he r r' hr hr' h
  rw [appliedChars, appliedChars, List.cons_append, List.cons_append, List.append_assoc,
    List.append_assoc] at h
  obtain ⟨hname, hrest⟩ := name_unique hd.1 he.1 (head?_argumentChars d.2 hr)
    (head?_argumentChars e.2 hr') (List.cons.inj h).2
  obtain ⟨n, fs⟩ := d
  obtain ⟨n', gs⟩ := e
  obtain rfl : n = n' := hname
  -- either both have arguments or neither has: a parenthesis is no stop
  cases fs with
  | nil =>
    cases gs with
    | nil => exact ⟨rfl, hrest⟩
    | cons g gs =>
      have hparen : isStop '(' = true := hr '(' (by rw [show r = _ from hrest]; rfl)
      exact absurd hparen (by decide)
  | cons f fs =>
    cases gs with
    | nil =>
      have hparen : isStop '(' = true := hr' '(' (by rw [show r' = _ from hrest.symm]; rfl)
      exact absurd hparen (by decide)
    | cons g gs =>
      simp only [argumentChars, List.cons_append, List.append_assoc, List.nil_append] at hrest
      obtain ⟨hfields, hend⟩ := fields_toldApart (by decide) (by decide) hd.2
        (fun f hf => (hd.2 f hf).2.toldApart) he.2 (List.cons.inj hrest).2
      exact ⟨Prod.ext rfl hfields, hend⟩

/-- The text behind an element is what is written for its directives, with a space before each. -/
theorem directiveTexts_eq_ok {ds : List Directive} {t : String} (h : directiveTexts ds = .ok t) :
    ∃ ps, ds.mapM Directive.literals? = .ok ps ∧
      t.toList = ps.flatMap fun p => ' ' :: ([] ++ appliedChars p) := by
  induction ds generalizing t with
  | nil =>
    obtain rfl : "" = t := Except.ok.inj h
    exact ⟨[], rfl, rfl⟩
  | cons d ds ih =>
    rw [directiveTexts] at h
    split at h
    · exact absurd h (by simp)
    · next s hs =>
      split at h
      · exact absurd h (by simp)
      · next rest hrest =>
        obtain rfl : " " ++ s ++ rest = t := Except.ok.inj h
        obtain ⟨p, hp, hchars⟩ := Directive.text?_eq_ok hs
        obtain ⟨ps, hps, hcharss⟩ := ih hrest
        refine ⟨p :: ps, ?_, ?_⟩
        · rw [List.mapM_cons, hp, hps]
          rfl
        · rw [String.toList_append, String.toList_append, hchars, hcharss, List.flatMap_cons]
          rfl

/-- **Directives of one text are equal.** -/
theorem directiveTexts_injective {ds es : List Directive} (hds : ∀ d ∈ ds, d.Readable)
    (hes : ∀ d ∈ es, d.Readable) {t : String} (h : directiveTexts ds = .ok t)
    (h' : directiveTexts es = .ok t) : ds = es := by
  obtain ⟨ps, hps, htext⟩ := directiveTexts_eq_ok h
  obtain ⟨qs, hqs, htext'⟩ := directiveTexts_eq_ok h'
  have hpformed : ∀ p ∈ ps, FormedApplied p := by
    intro p hp
    obtain ⟨d, hd, hdp⟩ := exists_of_mem_mapM hps hp
    exact formedApplied_of_readable (hds d hd) hdp
  have hqformed : ∀ q ∈ qs, FormedApplied q := by
    intro q hq
    obtain ⟨e, he, heq⟩ := exists_of_mem_mapM hqs hq
    exact formedApplied_of_readable (hes e he) heq
  have hboth : ps.flatMap (fun p => ' ' :: ([] ++ appliedChars p)) ++ [] =
      qs.flatMap (fun q => ' ' :: ([] ++ appliedChars q)) ++ [] := by
    rw [← htext, ← htext']
  obtain ⟨rfl, -⟩ := each_toldApart (by decide) (fun p hp => applied_toldApart (hpformed p hp)) hqformed
    (by simp) (by simp) hboth
  exact mapM_injective (fun d hd e he p hp hp' => (hds d hd).literals_injective (hes e he) hp hp') hps
    hqs

/-- Active directives are known, and the text behind an element is that of all of them. -/
theorem appliedText_of_active {c : Catalog} {v : Version} {ds : List Directive}
    (h : ∀ d ∈ ds, c.isActive v d = true) : appliedText c v ds = directiveTexts ds := by
  have hknown : ∀ d ∈ ds, c.contains d.name = true := by
    intro d hd
    obtain ⟨e, he, -⟩ := (Option.any_eq_true ..).mp (h d hd)
    exact Catalog.contains_of_find? he
  rw [appliedText_eq hknown, List.filter_eq_self.mpr h]

/-- **Directives have a text iff the integers in their values are short enough to be written** and there is
room for every value. -/
theorem exists_directiveTexts_iff {ds : List Directive} (h : ∀ d ∈ ds, d.Readable) :
    (∃ t, directiveTexts ds = .ok t) ↔
      ∀ d ∈ ds, ∀ a ∈ d.arguments,
        a.value.withinDigitLimit = true ∧ a.value.literalFrames ≤ stackRoom := by
  rw [directiveTexts_eq, exists_map_eq_ok, exists_mapM_eq_ok]
  refine forall₂_congr fun d hd => ?_
  have hargument : ∀ a ∈ d.arguments,
      (∃ t, a.text? = .ok t) ↔
        a.value.withinDigitLimit = true ∧ a.value.literalFrames ≤ stackRoom := by
    intro a ha
    rw [Argument.text?, exists_map_eq_ok, literalText, Literal.textWithin, exists_map_eq_ok]
    exact ((h d hd).arguments a ha).2.exists_ofValue_iff
  unfold Directive.text?
  split
  · next hnil => simp [hnil]
  · rw [exists_map_eq_ok, exists_mapM_eq_ok]
    exact forall₂_congr hargument

/-- **Applied directives read back.** Whatever the catalogs and the versions are, elements behind which
the same text stands show the same directives in the same order, with the same arguments in the same
order and the same values, kinds included; and there is such a text unless an integer in a value is too
long to be written or a value is nested too deeply to be gone through. Values of one literal are equal, and
a text between double quotes ends at its closing quote, whatever stands in it and behind it. -/
theorem applied_text_reads_back :
    (∀ (c c' : Catalog) (v v' : Version) (ds es : List Directive) (t : String),
      (∀ d ∈ ds, c.isActive v d = true) → (∀ e ∈ es, c'.isActive v' e = true) →
      (∀ d ∈ ds, d.Readable) → (∀ e ∈ es, e.Readable) →
      appliedText c v ds = .ok t → appliedText c' v' es = .ok t → ds = es) ∧
    (∀ (c : Catalog) (v : Version) (ds : List Directive),
      (∀ d ∈ ds, c.isActive v d = true) → (∀ d ∈ ds, d.Readable) →
      ((∃ t, appliedText c v ds = .ok t) ↔
        ∀ d ∈ ds, ∀ a ∈ d.arguments,
          a.value.withinDigitLimit = true ∧ a.value.literalFrames ≤ stackRoom)) ∧
    (∀ (x y : Value) (t : String), x.Readable → y.Readable →
      literalText x = .ok t → literalText y = .ok t → x = y) ∧
    (∀ (s t : String) (r r' : List Char),
      (stringLiteral s).toList ++ r = (stringLiteral t).toList ++ r' → s = t ∧ r = r') := by
  refine ⟨?_, ?_, ?_, ?_⟩
  · intro c c' v v' ds es t hds hes hread hread' h h'
    rw [appliedText_of_active hds] at h
    rw [appliedText_of_active hes] at h'
    exact directiveTexts_injective hread hread' h h'
  · intro c v ds hds hread
    rw [appliedText_of_active hds]
    exact exists_directiveTexts_iff hread
  · intro x y t hx hy h h'
    exact (hx.literalText_unique hy h h' Stops.nil Stops.nil rfl).1
  · intro s t r r' h
    exact stringLiteral_delimited h

/-- Two directives with a text that looks like the end of an argument and another directive, and with
the number one and its likes. -/
def nestedDirectives : List Directive :=
  [⟨"tag", [⟨"name", .text "a\") @b(c: \"d\\"⟩]⟩,
    ⟨"inaccessible",
      [⟨"x", .list [.int 1, .float (.finite false 4503599627370496 (-52) (by decide)), .bool true,
          .text "1", .null]⟩,
        ⟨"y", .dict [(.text "k", .text "\x7d\t")]⟩]⟩]

/-- The text behind an element that has them. -/
def nestedText : String :=
  " @tag(name: \"a\\\") @b(c: \\\"d\\\\\")" ++
    " @inaccessible(x: [1, 1.0, true, \"1\", null], y: \x7bk: \"\x7d\\t\"\x7d)"

/-- A catalog that knows both, and earlier than the standard one does. -/
def earlyCatalog : Catalog where
  definitions := [⟨"tag", ⟨[1], "1"⟩, [], false⟩, ⟨"inaccessible", ⟨[1, 5], "1.5"⟩, [], true⟩]
  distinct := by decide

theorem nestedDirectives_readable : ∀ d ∈ nestedDirectives, d.Readable := by
  intro d hd
  rcases List.mem_pair.mp hd with rfl | rfl
  · refine ⟨by decide, ?_⟩
    intro a ha
    obtain rfl := List.mem_singleton.mp ha
    exact ⟨by decide, .text _⟩
  · refine ⟨by decide, ?_⟩
    intro a ha
    rcases List.mem_pair.mp ha with rfl | rfl
    · refine ⟨by decide, .list ?_⟩
      simp only [List.forall_mem_cons]
      exact ⟨.int 1, .float _ rfl, .bool true, .text "1", .null, by simp⟩
    · refine ⟨by decide, .dict ?_ ?_⟩
      · intro e he
        obtain rfl := List.mem_singleton.mp he
        exact ⟨"k", rfl, by decide⟩
      · intro e he
        obtain rfl := List.mem_singleton.mp he
        exact .text _

/-- `applied_text_reads_back` at the text of these directives under two catalogs and versions, and at the
text of one of their values. -/
theorem applied_text_reads_back_nested :
    (∀ d ∈ nestedDirectives, Catalog.standard.isActive ⟨[2, 3], "2.3"⟩ d = true) ∧
      (∀ d ∈ nestedDirectives, earlyCatalog.isActive ⟨[2], "2"⟩ d = true) ∧
      (∀ d ∈ nestedDirectives, d.Readable) ∧
      appliedText .standard ⟨[2, 3], "2.3"⟩ nestedDirectives = .ok nestedText ∧
      appliedText earlyCatalog ⟨[2], "2"⟩ nestedDirectives = .ok nestedText ∧
      nestedDirectives = nestedDirectives ∧
      (∃ t, appliedText .standard ⟨[2, 3], "2.3"⟩ nestedDirectives = .ok t) ∧
      literalText (.list [.bool true, .text "]"]) = .ok "[true, \"]\"]" ∧
      Value.list [.bool true, .text "]"] = Value.list [.bool true, .text "]"] := by
  have hstandard : ∀ d ∈ nestedDirectives, Catalog.standard.isActive ⟨[2, 3], "2.3"⟩ d = true := by
    intro d hd
    rcases List.mem_pair.mp hd with rfl | rfl <;> rfl
  have hearly : ∀ d ∈ nestedDirectives, earlyCatalog.isActive ⟨[2], "2"⟩ d = true := by
    intro d hd
    rcases List.mem_pair.mp hd with rfl | rfl <;> rfl
  have htext : appliedText .standard ⟨[2, 3], "2.3"⟩ nestedDirectives = .ok nestedText :=
    eq_ok_of_toOption (by decide +kernel)
  have htext' : appliedText earlyCatalog ⟨[2], "2"⟩ nestedDirectives = .ok nestedText :=
    eq_ok_of_toOption (by decide +kernel)
  have hlist : (Value.list [.bool true, .text "]"]).Readable := by
    apply Value.Readable.list
    simp only [List.forall_mem_cons]
    exact ⟨.bool true, .text "]", by simp⟩
  have hliteral : literalText (.list [.bool true, .text "]"]) = .ok "[true, \"]\"]" := by rfl
  have hshort : ∀ d ∈ nestedDirectives, ∀ a ∈ d.arguments,
      a.value.withinDigitLimit = true ∧ a.value.literalFrames ≤ stackRoom := by
    decide +kernel
  obtain ⟨hdirectives, hexists, hvalues, -⟩ := applied_text_reads_back
  exact ⟨hstandard, hearly, nestedDirectives_readable, htext, htext',
    hdirectives _ _ _ _ _ _ _ hstandard hearly nestedDirectives_readable nestedDirectives_readable htext
      htext',
    (hexists _ _ _ hstandard nestedDirectives_readable).mpr hshort, hliteral,
    hvalues _ _ _ hlist hlist hliteral hliteral⟩

end Sdl

end Subgraph
