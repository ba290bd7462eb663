import Subgraph.Proofs.Config.Outcome
import Subgraph.Proofs.Version.Grammar

/-!
# `Config.Shape` — which values are configurations

What a configuration looks like is said here without reference to the readers: a value `Describes` a
configuration, its entries define directives (`Defines`), and so on down to the fields. Beside each such
relation stands what is wrong with a value that is in none, with the problem that it is reported as
(`VersionFault`, `LocationsFault`, `EntryFault`, `FirstFault`). A fault of a later field supposes that
the earlier ones are as they should be, so a value has at most one.

Every reader is exact for its pair of relations: it gives what the value describes and nothing else, and
fails with the fault and in no other way. A reader is a chain of the readers of its fields, so its two
statements are those of the fields put together (`bind_eq_ok`, `bind_eq_error`); lists are read item by
item, and `mapM_eq_ok_iff` and `mapM_eq_error_iff` are all that is needed of them.

## Contents
- **Versions.** `VersionSource`, `States`, `VersionFault`.
- **Required fields.** `RequiredFault`, `Named`, `Dated`.
- **Locations and repeatability.** `Places`, `LocationsFault`, `Marks`, `RepeatableFault`.
- **Entries.** `Defines`, `EntryFault`, `definitionOf_eq_ok_iff`, `definitionOf_eq_error_iff`.
- **Configurations.** `Describes`, `FirstFault`, `Short`, `configurations_read`.
-/

namespace Subgraph
namespace Config

variable {source : String} {place : Place} {key : String} {fields : Fields} {v : Yaml.Value}
  {f : Failure} {version : Version}

/-! ## Versions -/

/-- The values that a version is read from: a number that is no truth value, and a text. -/
inductive VersionSource : Yaml.Value → Value → Prop where
  | int (n : Int) : VersionSource (.int n) (.int n)
  | float (x : Binary64) : VersionSource (.float x) (.float x)
  | text (s : String) : VersionSource (.text s) (.text s)

/-- A value states a version. -/
def States (v : Yaml.Value) (version : Version) : Prop :=
  ∃ w, VersionSource v w ∧ Version.parse w = .ok version

/-- What is wrong with a value that states no version. -/
inductive VersionFault (place : Place) (key : String) (v : Yaml.Value) : Failure → Prop where
  | kind (h : ∀ w, ¬ VersionSource v w) :
    VersionFault place key v (.configuration (.versionKind place key))
  | invalid {w : Value} (h : VersionSource v w) (hw : Version.parse w = .error (.invalidVersion w)) :
    VersionFault place key v (.configuration (.versionText place key w))
  | overlong {m : Misuse} (h : Overlong v m) : VersionFault place key v (.misuse m)

theorem versionSource?_eq_some_iff {w : Value} : versionSource? v = some w ↔ VersionSource v w := by
  constructor
  · intro h
    cases v with
    | int n =>
      obtain rfl : .int n = w := Option.some.inj h
      exact .int n
    | float x =>
      obtain rfl : .float x = w := Option.some.inj h
      exact .float x
    | text s =>
      obtain rfl : .text s = w := Option.some.inj h
      exact .text s
    | _ => exact absurd h (by simp [versionSource?])
  · rintro (_ | _ | _) <;> rfl

theorem versionSource?_eq_none_iff : versionSource? v = none ↔ ∀ w, ¬ VersionSource v w := by
  simp only [← versionSource?_eq_some_iff, Option.eq_none_iff_forall_ne_some]

/-- **A version is read iff the value states it.** -/
theorem versionOf_eq_ok_iff : versionOf place key v = .ok version ↔ States v version := by
  unfold versionOf States
  simp only [← versionSource?_eq_some_iff]
  cases hw : versionSource? v with
  | none => simp [reject]
  | some w =>
    simp only [Option.some.injEq, exists_eq_left']
    cases hp : Version.parse w with
    | ok version => rfl
    | error f =>
      rcases Version.parse_eq_error hp with rfl | ⟨m, rfl⟩
      · simp [reject]
      · simp

/-- **Otherwise the failure is what is wrong with the value.** -/
theorem versionOf_eq_error_iff : versionOf place key v = .error f ↔ VersionFault place key v f := by
  constructor
  · intro h
    unfold versionOf at h
    cases hw : versionSource? v with
    | none =>
      rw [hw] at h
      obtain rfl := Except.error.inj h
      exact .kind (versionSource?_eq_none_iff.mp hw)
    | some w =>
      simp only [hw] at h
      cases hp : Version.parse w with
      | ok version => simp [hp] at h
      | error g =>
        -- a refusal of the value becomes a problem, and a misuse stays what it is
        simp only [hp] at h
        rcases Version.parse_eq_error hp with rfl | ⟨m, rfl⟩
        · obtain rfl := Except.error.inj h
          exact .invalid (versionSource?_eq_some_iff.mp hw) hp
        · obtain rfl := Except.error.inj h
          exact .overlong ⟨w, hw, Version.parse_eq_misuse_iff.mp hp⟩
  · intro h
    cases h with
    | kind hno => rw [versionOf, versionSource?_eq_none_iff.mpr hno]
    | invalid hw hp =>
      rw [versionOf, versionSource?_eq_some_iff.mpr hw]
      dsimp only
      rw [hp]
    | overlong hlong => exact versionOf_eq_misuse_iff.mpr hlong

/-! ## Required fields -/

/-- What is wrong with a field that must be there: it is left out, or its value has a fault. -/
inductive RequiredFault (place : Place) (key : String) (Fault : Yaml.Value → Failure → Prop)
    (fields : Fields) : Failure → Prop where
  | missing (h : field? fields key = none) :
    RequiredFault place key Fault fields (.configuration (.missingField place key))
  | present {v : Yaml.Value} {f : Failure} (h : field? fields key = some v) (hf : Fault v f) :
    RequiredFault place key Fault fields f

/-- A value is no text. -/
inductive TextFault (place : Place) (key : String) (v : Yaml.Value) : Failure → Prop where
  | kind (h : ∀ s, v ≠ .text s) : TextFault place key v (.configuration (.notText place key))

theorem requiredText_eq_error_iff :
    requiredText place key fields = .error f ↔
      RequiredFault place key (TextFault place key) fields f := by
  constructor
  · intro h
    unfold requiredText at h
    split at h
    · next hnone =>
      obtain rfl := Except.error.inj h
      exact .missing hnone
    · exact absurd h (by simp)
    · next w hne hw =>
      obtain rfl := Except.error.inj h
      exact .present hw (.kind hne)
  · rintro (hnone | ⟨hw, ⟨hne⟩⟩)
    · rw [requiredText, hnone]
    · unfold requiredText
      rw [hw]
      split
      · next hw => exact absurd hw (by simp)
      · next s hs => exact absurd (Option.some.inj hs) (hne s)
      · rfl

theorem requiredVersion_eq_ok_iff :
    requiredVersion place key fields = .ok version ↔
      ∃ v, field? fields key = some v ∧ States v version := by
  unfold requiredVersion
  cases hv : field? fields key with
  | none => simp [reject]
  | some v => simp [versionOf_eq_ok_iff]

theorem requiredVersion_eq_error_iff :
    requiredVersion place key fields = .error f ↔
      RequiredFault place key (VersionFault place key) fields f := by
  unfold requiredVersion
  constructor
  · intro h
    cases hv : field? fields key with
    | none =>
      rw [hv] at h
      obtain rfl := Except.error.inj h
      exact .missing hv
    | some v =>
      rw [hv] at h
      exact .present hv (versionOf_eq_error_iff.mp h)
  · rintro (hnone | ⟨hv, hf⟩)
    · rw [hnone]
    · rw [hv]
      exact versionOf_eq_error_iff.mpr hf

/-- A name as it is written, perhaps with the sign that directives are applied with in front. -/
inductive Bare : String → String → Prop where
  | signed (name : String) : Bare ("@" ++ name) name
  | plain {name : String} (h : name.toList.head? ≠ some '@') : Bare name name

/-- At most one sign is taken away. -/
theorem bareName_eq_iff {written name : String} : bareName written = name ↔ Bare written name := by
  constructor
  · rintro rfl
    unfold bareName
    split
    · next cs hcs =>
      have hwritten : written = "@" ++ String.ofList cs := by
        apply String.ext
        simp [hcs]
      rw [hwritten]
      exact .signed _
    · next hne =>
      refine .plain fun hhead => ?_
      obtain ⟨cs, hcs⟩ := List.head?_eq_some_iff.mp hhead
      exact hne cs hcs
  · rintro (_ | h)
    · simp [bareName]
    · unfold bareName
      split
      · next cs hcs => exact absurd (by simp [hcs]) h
      · rfl

/-- The name of the directive of an entry. -/
def Named (fields : Fields) (name : String) : Prop :=
  ∃ written, field? fields "name" = some (.text written) ∧ Bare written name

/-- The first version of the directive of an entry. -/
def Dated (fields : Fields) (version : Version) : Prop :=
  ∃ v, field? fields "min-version" = some v ∧ States v version

/-! ## Locations and repeatability -/

/-- The places that a list of texts names in any case, each of them once; none if there is no list. -/
inductive Places : Option Yaml.Value → List Location → Prop where
  | absent : Places none []
  | list {raws : List String} {ls : List Location}
    (h : List.Forall₂ (fun raw (l : Location) => Text.capitals raw = l.name) raws ls) :
    Places (some (.list (raws.map .text))) ls.eraseDups

/-- What is wrong with places: they are no list of texts, or there is a first text that names none. -/
inductive LocationsFault (place : Place) : Option Yaml.Value → Failure → Prop where
  | kind {v : Yaml.Value} (h : ∀ raws : List String, v ≠ .list (raws.map .text)) :
    LocationsFault place (some v) (.configuration (.locationsKind place))
  | unknown {raws : List String} {raw : String}
    (h : IsFirst (fun raw => ∀ l : Location, Text.capitals raw ≠ l.name) raws raw) :
    LocationsFault place (some (.list (raws.map .text))) (.configuration (.unknownLocation place raw))

/-- A place is found under its name and under no other. -/
theorem ofName?_eq_some_iff {s : String} {l : Location} : Location.ofName? s = some l ↔ s = l.name := by
  constructor
  · intro h
    exact (Location.name_of_ofName? h).symm
  · rintro rfl
    exact Location.ofName?_name l

theorem ofName?_eq_none_iff {s : String} : Location.ofName? s = none ↔ ∀ l : Location, s ≠ l.name := by
  simp only [Option.eq_none_iff_forall_ne_some, ne_eq, ofName?_eq_some_iff]

/-- Places are a set: that of what the texts name. -/
theorem Places.set {raws : List String} {ls : List Location}
    (h : Places (some (.list (raws.map .text))) ls) :
    ls.Nodup ∧ ∀ l, l ∈ ls ↔ ∃ raw ∈ raws, Text.capitals raw = l.name := by
  obtain ⟨items, hitems⟩ : ∃ items, items = raws.map Yaml.Value.text := ⟨_, rfl⟩
  rw [← hitems] at h
  cases h with
  | @list raws' ls h =>
    -- a list is that of the texts it is made of and of no others
    obtain rfl : raws' = raws := List.map_injective_iff.mpr (fun s t hst => by simpa using hst) hitems
    refine ⟨nodup_eraseDups ls, fun l => ?_⟩
    rw [List.mem_eraseDups]
    clear hitems
    induction h with
    | nil => simp
    | @cons raw l' raws ls hraw _ ih =>
      have hname : l = l' ↔ Text.capitals raw = l.name := by
        rw [← ofName?_eq_some_iff, ofName?_eq_some_iff.mpr hraw, Option.some.injEq, eq_comm]
      simp [ih, hname]

theorem texts?_eq_some_iff {items : List Yaml.Value} {raws : List String} :
    texts? items = some raws ↔ items = raws.map .text := by
  induction items generalizing raws with
  | nil =>
    cases raws <;> simp [texts?]
  | cons item items ih =>
    cases item with
    | text s =>
      cases raws with
      | nil => simp [texts?]
      | cons raw raws => simp [texts?, ih, and_comm]
    | _ => cases raws <;> simp [texts?]

/-- The place that a single text names. -/
def placeOf (place : Place) (raw : String) : Except Failure Location :=
  match Location.ofName? (Text.capitals raw) with
  | none => reject (.unknownLocation place raw)
  | some l => .ok l

theorem placeOf_eq_ok_iff {raw : String} {l : Location} :
    placeOf place raw = .ok l ↔ Text.capitals raw = l.name := by
  unfold placeOf
  rw [← ofName?_eq_some_iff]
  cases Location.ofName? (Text.capitals raw) with
  | none => simp [reject]
  | some l => simp

theorem placeOf_eq_error_iff {raw : String} :
    placeOf place raw = .error f ↔ (∀ l : Location, Text.capitals raw ≠ l.name) ∧
      f = .configuration (.unknownLocation place raw) := by
  unfold placeOf
  rw [← ofName?_eq_none_iff]
  cases Location.ofName? (Text.capitals raw) with
  | none => simp [reject, eq_comm]
  | some l => simp

/-- Texts are looked up one by one. -/
theorem placesOf_eq_mapM (raws : List String) : placesOf place raws = raws.mapM (placeOf place) := by
  induction raws with
  | nil => rfl
  | cons raw raws ih =>
    rw [placesOf, List.mapM_cons, ← ih, placeOf]
    cases Location.ofName? (Text.capitals raw) with
    | none => rfl
    | some l => cases placesOf place raws <;> rfl

theorem placesOf_eq_ok_iff {raws : List String} {ls : List Location} :
    placesOf place raws = .ok ls ↔
      List.Forall₂ (fun raw (l : Location) => Text.capitals raw = l.name) raws ls := by
  rw [placesOf_eq_mapM, mapM_eq_ok_iff]
  simp only [placeOf_eq_ok_iff]

theorem placesOf_eq_error_iff {raws : List String} :
    placesOf place raws = .error f ↔
      ∃ raw, IsFirst (fun raw => ∀ l : Location, Text.capitals raw ≠ l.name) raws raw ∧
        f = .configuration (.unknownLocation place raw) := by
  rw [placesOf_eq_mapM, mapM_eq_error_iff]
  simp only [placeOf_eq_error_iff, exists_and_left, exists_eq, and_true]
  constructor
  · rintro ⟨raw, hfirst, -, hf⟩
    exact ⟨raw, hfirst, hf⟩
  · rintro ⟨raw, hfirst, hf⟩
    exact ⟨raw, hfirst, hfirst.1, hf⟩

theorem locationsOf_eq_ok_iff {given : Option Yaml.Value} {ls : List Location} :
    locationsOf place given = .ok ls ↔ Places given ls := by
  constructor
  · intro h
    unfold locationsOf at h
    split at h
    · obtain rfl := Except.ok.inj h
      exact .absent
    · next items =>
      cases hraws : texts? items with
      | none => simp [hraws, reject] at h
      | some raws =>
        rw [hraws] at h
        obtain ⟨ls, hls, rfl⟩ := map_eq_ok.mp h
        rw [texts?_eq_some_iff.mp hraws]
        exact .list (placesOf_eq_ok_iff.mp hls)
    · exact absurd h (by simp [reject])
  · rintro (_ | hnames)
    · rfl
    · rw [locationsOf, texts?_eq_some_iff.mpr rfl]
      exact map_eq_ok.mpr ⟨_, placesOf_eq_ok_iff.mpr hnames, rfl⟩

theorem locationsOf_eq_error_iff {given : Option Yaml.Value} :
    locationsOf place given = .error f ↔ LocationsFault place given f := by
  constructor
  · intro h
    unfold locationsOf at h
    split at h
    · exact absurd h (by simp)
    · next items =>
      cases hraws : texts? items with
      | none =>
        rw [hraws] at h
        obtain rfl := Except.error.inj h
        refine .kind fun raws hitems => ?_
        rw [texts?_eq_some_iff.mpr (Yaml.Value.list.inj hitems)] at hraws
        exact absurd hraws (by simp)
      | some raws =>
        rw [hraws] at h
        obtain ⟨raw, hfirst, rfl⟩ := placesOf_eq_error_iff.mp (map_eq_error.mp h)
        rw [texts?_eq_some_iff.mp hraws]
        exact .unknown hfirst
    · next w hlist =>
      obtain rfl := Except.error.inj h
      exact .kind fun raws hw => hlist _ hw
  · intro h
    cases h with
    | kind hno =>
      unfold locationsOf
      split
      · next hgiven => exact absurd hgiven (by simp)
      · next items hgiven =>
        cases hraws : texts? items with
        | none => rfl
        | some raws =>
          rw [texts?_eq_some_iff.mp hraws] at hgiven
          exact absurd (Option.some.inj hgiven) (hno raws)
      · rfl
    | unknown hfirst =>
      rw [locationsOf, texts?_eq_some_iff.mpr rfl]
      exact map_eq_error.mpr (placesOf_eq_error_iff.mpr ⟨_, hfirst, rfl⟩)

/-- Whether a directive is repeatable: it is not where that is left out. -/
inductive Marks : Option Yaml.Value → Bool → Prop where
  | absent : Marks none false
  | bool (b : Bool) : Marks (some (.bool b)) b

/-- The mark for repeatable directives is no truth value. -/
inductive RepeatableFault (place : Place) : Option Yaml.Value → Failure → Prop where
  | kind {v : Yaml.Value} (h : ∀ b, v ≠ .bool b) :
    RepeatableFault place (some v) (.configuration (.repeatableKind place))

theorem repeatableOf_eq_ok_iff {given : Option Yaml.Value} {b : Bool} :
    repeatableOf place given = .ok b ↔ Marks given b := by
  constructor
  · intro h
    unfold repeatableOf at h
    split at h
    · obtain rfl := Except.ok.inj h
      exact .absent
    · obtain rfl := Except.ok.inj h
      exact .bool _
    · exact absurd h (by simp [reject])
  · rintro (_ | _) <;> rfl

theorem repeatableOf_eq_error_iff {given : Option Yaml.Value} :
    repeatableOf place given = .error f ↔ RepeatableFault place given f := by
  constructor
  · intro h
    unfold repeatableOf at h
    split at h
    · exact absurd h (by simp)
    · exact absurd h (by simp)
    · next w hbool =>
      obtain rfl := Except.error.inj h
      exact .kind hbool
  · rintro ⟨hno⟩
    unfold repeatableOf
    split
    · next hgiven => exact absurd hgiven (by simp)
    · next b hgiven => exact absurd (Option.some.inj hgiven) (hno b)
    · rfl

/-! ## Entries -/

/-- An entry defines a directive. -/
inductive Defines : Yaml.Value → Definition → Prop where
  | mapping {fields : Fields} {d : Definition} (hname : Named fields d.name)
    (hversion : Dated fields d.minVersion) (hlocations : Places (field? fields "locations") d.locations)
    (hrepeatable : Marks (field? fields "repeatable") d.repeatable) : Defines (.mapping fields) d

/-- What is wrong with the entry at an index: the first of its fields that has a fault. -/
inductive EntryFault (source : String) (index : Nat) : Yaml.Value → Failure → Prop where
  | kind {v : Yaml.Value} (h : ∀ fields, v ≠ .mapping fields) :
    EntryFault source index v (.configuration (.notMapping (.entry source index)))
  | name {fields : Fields} {f : Failure}
    (h : RequiredFault (.entry source index) "name" (TextFault (.entry source index) "name") fields f) :
    EntryFault source index (.mapping fields) f
  | version {fields : Fields} {name : String} {f : Failure} (hname : Named fields name)
    (h : RequiredFault (.named source index name) "min-version"
      (VersionFault (.named source index name) "min-version") fields f) :
    EntryFault source index (.mapping fields) f
  | locations {fields : Fields} {name : String} {f : Failure} (hname : Named fields name)
    (hversion : ∃ version, Dated fields version)
    (h : LocationsFault (.named source index name) (field? fields "locations") f) :
    EntryFault source index (.mapping fields) f
  | repeatable {fields : Fields} {name : String} {f : Failure} (hname : Named fields name)
    (hversion : ∃ version, Dated fields version)
    (hlocations : ∃ ls, Places (field? fields "locations") ls)
    (h : RepeatableFault (.named source index name) (field? fields "repeatable") f) :
    EntryFault source index (.mapping fields) f

variable {index : Nat} {d : Definition}

/-- **An entry is read as the directive that it defines.** -/
theorem definitionOf_eq_ok_iff : definitionOf source index v = .ok d ↔ Defines v d := by
  cases v with
  | mapping fields =>
    simp only [definitionOf, bind_eq_ok, requiredText_eq_ok_iff, requiredVersion_eq_ok_iff,
      locationsOf_eq_ok_iff, repeatableOf_eq_ok_iff, Except.ok.injEq]
    constructor
    · rintro ⟨written, hwritten, version, hversion, ls, hls, b, hb, rfl⟩
      exact .mapping ⟨written, hwritten, bareName_eq_iff.mp rfl⟩ hversion hls hb
    · rintro ⟨⟨written, hwritten, hname⟩, hversion, hls, hb⟩
      rw [← bareName_eq_iff] at hname
      exact ⟨written, hwritten, d.minVersion, hversion, d.locations, hls, d.repeatable, hb,
        by rw [hname]⟩
  | _ =>
    constructor
    · intro h
      exact absurd h (by simp [definitionOf, reject])
    · rintro ⟨⟩

/-- **Otherwise the failure is what is wrong with the entry.** -/
theorem definitionOf_eq_error_iff :
    definitionOf source index v = .error f ↔ EntryFault source index v f := by
  cases v with
  | mapping fields =>
    simp only [definitionOf, bind_eq_error, requiredText_eq_ok_iff, requiredText_eq_error_iff,
      requiredVersion_eq_ok_iff, requiredVersion_eq_error_iff, locationsOf_eq_ok_iff,
      locationsOf_eq_error_iff, repeatableOf_eq_ok_iff, repeatableOf_eq_error_iff, reduceCtorEq,
      and_false, exists_false, or_false]
    -- one reader has failed, and those of the fields before it have not
    constructor
    · rintro (hname | ⟨written, hwritten, hrest⟩)
      · exact .name hname
      · have hnamed : Named fields (bareName written) := ⟨written, hwritten, bareName_eq_iff.mp rfl⟩
        rcases hrest with hversion | ⟨version, hversion, hls | ⟨ls, hls, hb⟩⟩
        · exact .version hnamed hversion
        · exact .locations hnamed ⟨version, hversion⟩ hls
        · exact .repeatable hnamed ⟨version, hversion⟩ ⟨ls, hls⟩ hb
    · intro h
      cases h with
      | kind hno => exact absurd rfl (hno fields)
      | name hname => exact Or.inl hname
      | version hnamed hversion =>
        obtain ⟨written, hwritten, hname⟩ := hnamed
        obtain rfl := bareName_eq_iff.mpr hname
        exact Or.inr ⟨written, hwritten, Or.inl hversion⟩
      | locations hnamed hdated hls =>
        obtain ⟨written, hwritten, hname⟩ := hnamed
        obtain ⟨version, hversion⟩ := hdated
        obtain rfl := bareName_eq_iff.mpr hname
        exact Or.inr ⟨written, hwritten, Or.inr ⟨version, hversion, Or.inl hls⟩⟩
      | repeatable hnamed hdated hplaces hb =>
        obtain ⟨written, hwritten, hname⟩ := hnamed
        obtain ⟨version, hversion⟩ := hdated
        obtain ⟨ls, hls⟩ := hplaces
        obtain rfl := bareName_eq_iff.mpr hname
        exact Or.inr ⟨written, hwritten, Or.inr ⟨version, hversion, Or.inr ⟨ls, hls, hb⟩⟩⟩
  | _ =>
    constructor
    · intro h
      obtain rfl := Except.error.inj h
      exact .kind (by simp)
    · rintro ⟨-⟩
      rfl

/-- Entries are read one by one, each with its index. -/
theorem definitionsOf_eq_mapM (vs : List Yaml.Value) :
    definitionsOf source index vs =
      (vs.zipIdx index).mapM fun entry => definitionOf source entry.2 entry.1 := by
  induction vs generalizing index with
  | nil => rfl
  | cons v vs ih =>
    rw [definitionsOf, List.zipIdx_cons, List.mapM_cons, ih]
    rfl

/-! ## Configurations -/

/-- The version that a configuration fixes, if it fixes one. -/
inductive Fixes : Option Yaml.Value → Option Version → Prop where
  | absent : Fixes none none
  | version {v : Yaml.Value} {version : Version} (h : States v version) : Fixes (some v) (some version)

/-- The directives that a configuration adds: one for each entry, in their order. -/
inductive Adds : Option Yaml.Value → List Definition → Prop where
  | absent : Adds none []
  | list {entries : List Yaml.Value} {ds : List Definition}
    (h : List.Forall₂ Defines entries ds) : Adds (some (.list entries)) ds

/-- A value describes a configuration; nothing at all describes the one without any settings. -/
inductive Describes : Yaml.Value → Config → Prop where
  | nothing : Describes .null {}
  | mapping {fields : Fields} {c : Config}
    (hversion : Fixes (field? fields "federation-version") c.version)
    (hdirectives : Adds (field? fields "directives") c.directives) : Describes (.mapping fields) c

/-- What is wrong with a value that describes none: the version, or behind a version that is as it should
be the list of entries, or the first entry with a fault. -/
inductive FirstFault (source : String) : Yaml.Value → Failure → Prop where
  | kind {v : Yaml.Value} (hnull : v ≠ .null) (h : ∀ fields, v ≠ .mapping fields) :
    FirstFault source v (.configuration (.notMapping (.file source)))
  | version {fields : Fields} {v : Yaml.Value} {f : Failure}
    (hfield : field? fields "federation-version" = some v)
    (h : VersionFault (.file source) "federation-version" v f) :
    FirstFault source (.mapping fields) f
  | list {fields : Fields} {v : Yaml.Value}
    (hversion : ∃ version, Fixes (field? fields "federation-version") version)
    (hfield : field? fields "directives" = some v) (h : ∀ entries, v ≠ .list entries) :
    FirstFault source (.mapping fields) (.configuration (.directivesNotList (.file source)))
  | entry {fields : Fields} {entries : List Yaml.Value} {entry : Yaml.Value × Nat} {f : Failure}
    (hversion : ∃ version, Fixes (field? fields "federation-version") version)
    (hfield : field? fields "directives" = some (.list entries))
    (hfirst : IsFirst (fun entry => ∃ f, EntryFault source entry.2 entry.1 f) entries.zipIdx entry)
    (h : EntryFault source entry.2 entry.1 f) : FirstFault source (.mapping fields) f

theorem fixedVersion_eq_ok_iff {given : Option Yaml.Value} {fixed : Option Version} :
    fixedVersion source given = .ok fixed ↔ Fixes given fixed := by
  cases given with
  | none =>
    constructor
    · intro h
      obtain rfl := Except.ok.inj h
      exact .absent
    · rintro ⟨⟩
      rfl
  | some v =>
    rw [fixedVersion, map_eq_ok]
    simp only [versionOf_eq_ok_iff]
    constructor
    · rintro ⟨version, hversion, rfl⟩
      exact .version hversion
    · rintro (_ | hversion)
      exact ⟨_, hversion, rfl⟩

theorem fixedVersion_eq_error_iff {given : Option Yaml.Value} :
    fixedVersion source given = .error f ↔
      ∃ v, given = some v ∧ VersionFault (.file source) "federation-version" v f := by
  cases given with
  | none => simp [fixedVersion]
  | some v => simp [fixedVersion, map_eq_error, versionOf_eq_error_iff]

theorem addedDirectives_eq_ok_iff {given : Option Yaml.Value} {ds : List Definition} :
    addedDirectives source given = .ok ds ↔ Adds given ds := by
  have hentries : ∀ entries : List Yaml.Value, definitionsOf source 0 entries = .ok ds ↔
      List.Forall₂ Defines entries ds := by
    intro entries
    -- what an entry defines does not depend on its index
    have hindex : List.Forall₂ Defines (entries.zipIdx.map Prod.fst) ds ↔
        List.Forall₂ (fun entry d => Defines entry.1 d) entries.zipIdx ds := List.forall₂_map_left_iff
    rw [List.zipIdx_map_fst] at hindex
    rw [definitionsOf_eq_mapM, mapM_eq_ok_iff, hindex]
    simp only [definitionOf_eq_ok_iff]
  constructor
  · intro h
    unfold addedDirectives at h
    split at h
    · obtain rfl := Except.ok.inj h
      exact .absent
    · exact .list ((hentries _).mp h)
    · exact absurd h (by simp [reject])
  · rintro (_ | h)
    · rfl
    · exact (hentries _).mpr h

theorem addedDirectives_eq_error_iff {given : Option Yaml.Value} :
    addedDirectives source given = .error f ↔
      (∃ v, given = some v ∧ (∀ entries, v ≠ .list entries) ∧
        f = .configuration (.directivesNotList (.file source))) ∨
      ∃ entries, given = some (.list entries) ∧ ∃ entry,
        IsFirst (fun entry => ∃ f, EntryFault source entry.2 entry.1 f) entries.zipIdx entry ∧
          EntryFault source entry.2 entry.1 f := by
  have hentries : ∀ entries : List Yaml.Value, definitionsOf source 0 entries = .error f ↔
      ∃ entry, IsFirst (fun entry => ∃ f, EntryFault source entry.2 entry.1 f) entries.zipIdx entry ∧
        EntryFault source entry.2 entry.1 f := by
    intro entries
    rw [definitionsOf_eq_mapM, mapM_eq_error_iff]
    simp only [definitionOf_eq_error_iff]
  constructor
  · intro h
    unfold addedDirectives at h
    split at h
    · exact absurd h (by simp)
    · next entries => exact Or.inr ⟨entries, rfl, (hentries entries).mp h⟩
    · next v hlist =>
      obtain rfl := Except.error.inj h
      exact Or.inl ⟨v, rfl, fun entries hv => hlist entries hv, rfl⟩
  · rintro (⟨v, rfl, hlist, rfl⟩ | ⟨entries, rfl, h⟩)
    · unfold addedDirectives
      split
      · next hgiven => exact absurd hgiven (by simp)
      · next entries hgiven => exact absurd (Option.some.inj hgiven) (hlist entries)
      · rfl
    · exact (hentries entries).mpr h

variable {c : Config}

/-- **A value is read as the configuration that it describes.** -/
theorem ofValue_eq_ok_iff : ofValue source v = .ok c ↔ Describes v c := by
  cases v with
  | null =>
    constructor
    · intro h
      obtain rfl := Except.ok.inj h
      exact .nothing
    · rintro ⟨⟩
      rfl
  | mapping fields =>
    simp only [ofValue, bind_eq_ok, fixedVersion_eq_ok_iff, addedDirectives_eq_ok_iff, Except.ok.injEq]
    constructor
    · rintro ⟨version, hversion, ds, hds, rfl⟩
      exact .mapping hversion hds
    · rintro (_ | ⟨hversion, hds⟩)
      exact ⟨c.version, hversion, c.directives, hds, rfl⟩
  | _ =>
    constructor
    · intro h
      exact absurd h (by simp [ofValue, reject])
    · rintro ⟨⟩

/-- **Otherwise the failure is the first thing that is wrong with it.** -/
theorem ofValue_eq_error_iff : ofValue source v = .error f ↔ FirstFault source v f := by
  cases v with
  | null =>
    constructor
    · intro h
      exact absurd h (by simp [ofValue])
    · rintro ⟨hnull⟩
      exact absurd rfl hnull
  | mapping fields =>
    simp only [ofValue, bind_eq_error, fixedVersion_eq_ok_iff, fixedVersion_eq_error_iff,
      addedDirectives_eq_error_iff, reduceCtorEq, and_false, exists_false, or_false]
    constructor
    · rintro (⟨v, hfield, hv⟩ | ⟨version, hversion, ⟨v, hfield, hlist, rfl⟩ |
        ⟨entries, hfield, entry, hfirst, hentry⟩⟩)
      · exact .version hfield hv
      · exact .list ⟨version, hversion⟩ hfield hlist
      · exact .entry ⟨version, hversion⟩ hfield hfirst hentry
    · intro h
      cases h with
      | kind _ hno => exact absurd rfl (hno fields)
      | version hfield hv => exact Or.inl ⟨_, hfield, hv⟩
      | list hfixed hfield hlist =>
        obtain ⟨version, hversion⟩ := hfixed
        exact Or.inr ⟨version, hversion, Or.inl ⟨_, hfield, hlist, rfl⟩⟩
      | entry hfixed hfield hfirst hentry =>
        obtain ⟨version, hversion⟩ := hfixed
        exact Or.inr ⟨version, hversion, Or.inr ⟨_, hfield, _, hfirst, hentry⟩⟩
  | _ =>
    constructor
    · intro h
      obtain rfl := Except.error.inj h
      exact .kind (by simp) (by simp)
    · rintro ⟨-⟩
      rfl

/-! ## Short numbers -/

/-- A value in which no number and no run of digits has more digits than may be read or written. -/
inductive Short : Yaml.Value → Prop where
  | null : Short .null
  | bool (b : Bool) : Short (.bool b)
  | int {n : Int} (h : Text.exceedsDigitLimit n = false) : Short (.int n)
  | float (x : Binary64) : Short (.float x)
  | text {s : String} (h : Version.ShortRuns s.toList) : Short (.text s)
  | list {items : List Yaml.Value} (h : ∀ v ∈ items, Short v) : Short (.list items)
  | mapping {fields : Fields} (h : ∀ entry ∈ fields, Short entry.2) : Short (.mapping fields)
  | other : Short .other

/-- A field of a short value is short. -/
theorem Short.field (h : Short (.mapping fields)) (hfield : field? fields key = some v) : Short v := by
  cases h with
  | mapping h =>
    obtain ⟨before, after, rfl, -⟩ := List.lookup_eq_some_iff.mp hfield
    exact h (key, v) (by simp)

/-- A short value is not too long for a version. -/
theorem Short.not_overlong (h : Short v) (m : Misuse) : ¬ Overlong v m := by
  rintro ⟨w, hw, hlong⟩
  cases versionSource?_eq_some_iff.mp hw with
  | int n =>
    obtain ⟨hdigits, -⟩ := (Version.overlong_iff (by simp) (by simp)).mp hlong
    cases h with
    | int hn => exact absurd hdigits (by simp [Value.withinDigitLimit, hn])
  | float x =>
    obtain ⟨hdigits, -⟩ := (Version.overlong_iff (by simp) (by simp)).mp hlong
    exact absurd hdigits (by simp [Value.withinDigitLimit])
  | text s =>
    obtain ⟨run, hs, hrun, -⟩ := Version.overlong_text_iff.mp hlong
    cases h with
    | text hruns => exact Version.not_firstLong_of_shortRuns hs hruns.trim run hrun

/-- In a short value no version is reached that is too long. -/
theorem Short.not_reached (h : Short v) (m : Misuse) : ¬ Reached source v m := by
  intro hreached
  cases hreached with
  | fixed hfield hv => exact (h.field hfield).not_overlong m hv
  | @entry _ _ before after entry _ _ _ hfield _ hentry =>
    obtain ⟨fields', name, w, rfl, -, hw, hlong⟩ := hentry
    have hlist := h.field hfield
    cases hlist with
    | list hitems =>
      have hshort : Short (.mapping fields') := hitems _ (by simp)
      exact (hshort.field hw).not_overlong m hlong

/-- **A fault of a short value is a problem of the configuration.** -/
theorem Short.configuration_of_firstFault (h : Short v) (hf : FirstFault source v f) :
    ∃ p, f = .configuration p := by
  -- the other failures are misuses, and these come from versions that are too long
  have hread := ofValue_eq_error_iff.mpr hf
  rcases ofValue_refused source v f hread with ⟨p, -, hp⟩ | ⟨m, rfl⟩
  · exact ⟨p, hp⟩
  · exact absurd (ofValue_eq_misuse_iff.mp hread) (h.not_reached m)

/-! ## The outcome -/

/-- **The values that are configurations.** A value that a document holds is read iff it describes a
configuration, as the one that it describes, and is otherwise refused for the first thing that is wrong
with it; that is a problem of the configuration unless a number is too long. The places of a directive are
the set of those that the texts of its entry name. -/
theorem configurations_read :
    (∀ (source : String) (v : Yaml.Value),
      (∀ text, Yaml.load depth text = .ok v → ofText source text = ofValue source v) ∧
      (∀ c, ofValue source v = .ok c ↔ Describes v c) ∧
      (∀ f, ofValue source v = .error f ↔ FirstFault source v f) ∧
      (Short v → ∀ f, FirstFault source v f → ∃ p, f = .configuration p)) ∧
    ∀ (raws : List String) (ls : List Location), Places (some (.list (raws.map .text))) ls →
      ls.Nodup ∧ ∀ l, l ∈ ls ↔ ∃ raw ∈ raws, Text.capitals raw = l.name := by
  constructor
  · intro source v
    refine ⟨?_, ?_, ?_, ?_⟩
    · intro text hload
      rw [ofText, hload]
    · intro c
      exact ofValue_eq_ok_iff
    · intro f
      exact ofValue_eq_error_iff
    · intro hshort f hf
      exact hshort.configuration_of_firstFault hf
  · intro raws ls h
    exact h.set

/-- A list with one entry, that has a signed name and names one place twice. -/
def signedEntry : Yaml.Value :=
  .mapping [("directives", .list [.mapping
    [("locations", .list [.text "object", .text "OBJECT"]), ("min-version", .text "2.0"),
      ("name", .text "@a")]])]

/-- The entry is read, and a document that is a mere word is refused with a problem. -/
theorem configurations_read_signed :
    ofValue "f" signedEntry = .ok ⟨none, [⟨"a", ⟨[2], "2.0"⟩, [.object], false⟩]⟩ ∧
    (∀ l, l ∈ [Location.object] ↔ ∃ raw ∈ ["object", "OBJECT"], Text.capitals raw = l.name) ∧
    ∃ p, ofText "f" "a" = .error (.configuration p) := by
  have hplaces : Places (some (.list [.text "object", .text "OBJECT"])) [.object] :=
    @Places.list ["object", "OBJECT"] [.object, .object] (.cons (by decide) (.cons (by decide) .nil))
  refine ⟨?_, (configurations_read.2 ["object", "OBJECT"] [.object] hplaces).2, ?_⟩
  · apply ((configurations_read.1 "f" signedEntry).2.1 _).mpr
    refine .mapping .absent (.list (.cons ?_ .nil))
    have hdated : States (.text "2.0") ⟨[2], "2.0"⟩ := ⟨.text "2.0", .text "2.0", rfl⟩
    exact .mapping ⟨"@a", rfl, .signed "a"⟩ ⟨.text "2.0", rfl, hdated⟩ hplaces .absent
  · obtain ⟨htext, -, hfault, hproblem⟩ := configurations_read.1 "f" (.text "a")
    have hload : Yaml.load depth "a" = .ok (.text "a") := by
      have htexts : ((Yaml.load depth "a").toOption.bind fun v => texts? [v]) = some ["a"] := by
        decide +kernel
      obtain ⟨v, hv, hword⟩ := Option.bind_eq_some_iff.mp htexts
      obtain rfl : v = .text "a" := by simpa using texts?_eq_some_iff.mp hword
      exact eq_ok_of_toOption hv
    have hfirst : FirstFault "f" (.text "a") (.configuration (.notMapping (.file "f"))) :=
      .kind (by simp) (by simp)
    have hshort : Short (.text "a") := .text (Version.shortRuns_of_length (by decide))
    obtain ⟨p, hp⟩ := hproblem hshort _ hfirst
    refine ⟨p, ?_⟩
    rw [htext "a" hload, ← hp]
    exact (hfault _).mpr hfirst

end Config
end Subgraph
