import Subgraph.Config.Reader
import Subgraph.Proofs.Version.Reading
import Subgraph.Proofs.Yaml.Making

/-!
# `Config.Reader` — a configuration is read, refused, or lets a failure through

Every check of a field refuses what it does not take with a problem at a place of the source, whatever
stands there. Four sorts of failures are no such problems, and `Escapes` says exactly when they come up
(`ofText_outcome`): a number in the spelling of the text that has no meaning, like an escape of no
character; nodes inside one another deeper than the call stack has room for; a node that YAML resolves by
its shape or its tag and that has no such value, like a day that is not in the calendar, if it is the
first that is reached; and a version with a number that is too long, in the first field that is reached
with one (`Reached`). Nothing is said of a text with the number of half a character (`LeftOpen`).

## Contents
- **Problems.** `Problem.source?`, `Reported`, and the fields that fail in this way only.
- **Versions.** `Overlong`, `versionOf_eq_misuse_iff`.
- **Entries.** `OverlongEntry`, `definitionOf_eq_misuse_iff`, `definitionsOf_eq_misuse_iff`.
- **Configurations.** `Reached`, `ofValue_eq_misuse_iff`, `LeftOpen`, `Escapes`, `ofText_outcome`.
-/

namespace Subgraph
namespace Config

/-! ## Problems -/

/-- The source that a place belongs to. -/
def Place.source : Place → String
  | .file source | .entry source _ | .named source _ _ => source

/-- The source that a problem of a text belongs to. -/
def Problem.source? : Problem → Option String
  | .invalidYaml source => some source
  | .notMapping place | .directivesNotList place | .versionKind place _ | .versionText place _ _
  | .missingField place _ | .notText place _ | .locationsKind place | .unknownLocation place _
  | .repeatableKind place => some place.source
  | .missingFile _ | .unreadableFile _ | .alreadyRegistered _ => none

variable {source : String} {place : Place} {key : String} {fields : Fields} {v : Yaml.Value}
  {f : Failure} {m : Misuse} {α : Type}

/-- A failure is a problem of the source. -/
def Reported (source : String) (f : Failure) : Prop :=
  ∃ p, p.source? = some source ∧ f = .configuration p

theorem reject_reported {p : Problem} (h : p.source? = some source) :
    FailsOnly (Reported source) (reject p : Except Failure α) :=
  .error ⟨p, h, rfl⟩

/-- What fails with problems only does not fail with a misuse. -/
theorem ne_misuse_of_reported {x : Except Failure α} (h : FailsOnly (Reported source) x) (m : Misuse) :
    x ≠ .error (.misuse m) := by
  intro hx
  obtain ⟨p, -, hp⟩ := h _ hx
  exact absurd hp (by simp)

section Fields

variable (hplace : place.source = source)

include hplace

theorem requiredText_reported : FailsOnly (Reported source) (requiredText place key fields) := by
  unfold requiredText
  split
  · exact reject_reported (congrArg some hplace)
  · exact .ok _
  · exact reject_reported (congrArg some hplace)

theorem placesOf_reported (raws : List String) :
    FailsOnly (Reported source) (placesOf place raws) := by
  induction raws with
  | nil => exact .ok _
  | cons raw raws ih =>
    rw [placesOf]
    split
    · exact reject_reported (congrArg some hplace)
    · exact ih.map _

theorem locationsOf_reported (given : Option Yaml.Value) :
    FailsOnly (Reported source) (locationsOf place given) := by
  unfold locationsOf
  split
  · exact .ok _
  · split
    · exact reject_reported (congrArg some hplace)
    · exact (placesOf_reported hplace _).map _
  · exact reject_reported (congrArg some hplace)

theorem repeatableOf_reported (given : Option Yaml.Value) :
    FailsOnly (Reported source) (repeatableOf place given) := by
  unfold repeatableOf
  split
  · exact .ok _
  · exact .ok _
  · exact reject_reported (congrArg some hplace)

end Fields

/-- A text is there iff the field is one. -/
theorem requiredText_eq_ok_iff {s : String} :
    requiredText place key fields = .ok s ↔ field? fields key = some (.text s) := by
  unfold requiredText
  split
  · next h => simp [h]
  · next t h => simp [h]
  · next w hne h =>
    rw [h]
    constructor
    · intro hreject
      exact absurd hreject (by simp [reject])
    · intro hw
      injection hw with hw
      exact absurd hw (hne s)

/-! ## Versions -/

/-- A value is too long where a version is read from it. -/
def Overlong (v : Yaml.Value) (m : Misuse) : Prop :=
  ∃ w, versionSource? v = some w ∧ Version.Overlong w m

/-- A failure is a problem of the source or a misuse. -/
def Refused (source : String) (f : Failure) : Prop := Reported source f ∨ ∃ m, f = .misuse m

theorem reject_refused {p : Problem} (h : p.source? = some source) :
    FailsOnly (Refused source) (reject p : Except Failure α) :=
  .error (Or.inl ⟨p, h, rfl⟩)

theorem refused_of_reported {x : Except Failure α} (h : FailsOnly (Reported source) x) :
    FailsOnly (Refused source) x :=
  h.mono fun _ => Or.inl

theorem versionOf_refused (hplace : place.source = source) :
    FailsOnly (Refused source) (versionOf place key v) := by
  unfold versionOf
  cases versionSource? v with
  | none => exact reject_refused (congrArg some hplace)
  | some w =>
    dsimp only
    cases hp : Version.parse w with
    | ok version => exact .ok version
    | error f =>
      rcases Version.parse_eq_error hp with rfl | ⟨m, rfl⟩
      · exact reject_refused (congrArg some hplace)
      · exact .error (Or.inr ⟨m, rfl⟩)

/-- **Reading a version goes wrong without a problem iff the value is too long for one.** -/
theorem versionOf_eq_misuse_iff : versionOf place key v = .error (.misuse m) ↔ Overlong v m := by
  unfold versionOf Overlong
  cases hw : versionSource? v with
  | none => simp [reject]
  | some w =>
    simp only [Option.some.injEq, exists_eq_left', ← Version.parse_eq_misuse_iff]
    cases hp : Version.parse w with
    | ok version => simp
    | error f =>
      rcases Version.parse_eq_error hp with rfl | ⟨m', rfl⟩
      · simp [reject]
      · simp

theorem requiredVersion_refused (hplace : place.source = source) :
    FailsOnly (Refused source) (requiredVersion place key fields) := by
  unfold requiredVersion
  split
  · exact reject_refused (congrArg some hplace)
  · exact versionOf_refused hplace

theorem requiredVersion_eq_misuse_iff :
    requiredVersion place key fields = .error (.misuse m) ↔
      ∃ v, field? fields key = some v ∧ Overlong v m := by
  unfold requiredVersion
  cases hv : field? fields key with
  | none => simp [reject]
  | some v => simp [versionOf_eq_misuse_iff]

/-! ## Entries -/

/-- An entry that is gone through up to a version that is too long: its name stands before it. -/
def OverlongEntry (v : Yaml.Value) (m : Misuse) : Prop :=
  ∃ fields name w, v = .mapping fields ∧ field? fields "name" = some (.text name) ∧
    field? fields "min-version" = some w ∧ Overlong w m

theorem definitionOf_refused (source : String) (index : Nat) (v : Yaml.Value) :
    FailsOnly (Refused source) (definitionOf source index v) := by
  cases v with
  | mapping fields =>
    refine (refused_of_reported (requiredText_reported rfl)).bind fun written => ?_
    refine (requiredVersion_refused rfl).bind fun minVersion => ?_
    refine (refused_of_reported (locationsOf_reported rfl _)).bind fun locations => ?_
    exact (refused_of_reported (repeatableOf_reported rfl _)).bind fun repeatable => .ok _
  | _ => exact reject_refused rfl

/-- **An entry goes wrong without a problem iff its version is too long.** -/
theorem definitionOf_eq_misuse_iff {index : Nat} :
    definitionOf source index v = .error (.misuse m) ↔ OverlongEntry v m := by
  unfold OverlongEntry
  cases v with
  | mapping fields =>
    simp only [Yaml.Value.mapping.injEq, exists_and_left, exists_eq_left']
    rw [definitionOf, bind_eq_error]
    have htext : requiredText (.entry source index) "name" fields ≠ .error (.misuse m) :=
      ne_misuse_of_reported (requiredText_reported rfl) m
    simp only [htext, false_or, requiredText_eq_ok_iff]
    constructor
    · rintro ⟨written, hname, h⟩
      rcases bind_eq_error.mp h with h | ⟨minVersion, -, h⟩
      · exact ⟨written, hname, requiredVersion_eq_misuse_iff.mp h⟩
      · -- the fields behind the version fail with problems only
        refine absurd h (ne_misuse_of_reported (?_ : FailsOnly (Reported source) _) m)
        refine (locationsOf_reported rfl _).bind fun locations => ?_
        exact (repeatableOf_reported rfl _).bind fun repeatable => .ok _
    · rintro ⟨written, hname, hversion⟩
      exact ⟨written, hname, bind_eq_error.mpr (Or.inl (requiredVersion_eq_misuse_iff.mpr hversion))⟩
  | _ => simp [definitionOf, reject]

theorem definitionsOf_refused (source : String) (index : Nat) (vs : List Yaml.Value) :
    FailsOnly (Refused source) (definitionsOf source index vs) := by
  induction vs generalizing index with
  | nil => exact .ok _
  | cons v vs ih =>
    exact (definitionOf_refused source index v).bind fun d => (ih (index + 1)).bind fun ds => .ok _

/-- **A list of entries goes wrong without a problem iff an entry has a version that is too long**, all
entries before it being read. -/
theorem definitionsOf_eq_misuse_iff {index : Nat} {vs : List Yaml.Value} :
    definitionsOf source index vs = .error (.misuse m) ↔
      ∃ before v after, vs = before ++ v :: after ∧
        (∃ ds, definitionsOf source index before = .ok ds) ∧ OverlongEntry v m := by
  induction vs generalizing index with
  | nil => simp [definitionsOf]
  | cons v vs ih =>
    rw [definitionsOf, bind_eq_error, definitionOf_eq_misuse_iff]
    constructor
    · rintro (hv | ⟨d, hd, h⟩)
      · exact ⟨[], v, vs, rfl, ⟨[], rfl⟩, hv⟩
      · rcases bind_eq_error.mp h with hvs | ⟨ds, -, h⟩
        · obtain ⟨before, w, after, rfl, ⟨ds, hds⟩, hw⟩ := ih.mp hvs
          refine ⟨v :: before, w, after, rfl, ⟨d :: ds, ?_⟩, hw⟩
          rw [definitionsOf, hd, ok_bind, hds, ok_bind]
        · exact absurd h (by simp)
    · rintro ⟨before, w, after, hsplit, ⟨ds, hds⟩, hw⟩
      cases before with
      | nil =>
        obtain ⟨rfl, rfl⟩ := List.cons.inj hsplit
        exact Or.inl hw
      | cons u before =>
        obtain ⟨rfl, rfl⟩ := List.cons.inj hsplit
        rw [definitionsOf] at hds
        obtain ⟨d, hd, hds⟩ := bind_eq_ok.mp hds
        obtain ⟨ds', hds', -⟩ := bind_eq_ok.mp hds
        have hvs := ih.mpr ⟨before, w, after, rfl, ⟨ds', hds'⟩, hw⟩
        exact Or.inr ⟨d, hd, bind_eq_error.mpr (Or.inl hvs)⟩

/-! ## Configurations -/

/-- A value in which a version is reached that is too long: the one of the configuration, or, if that one
can be read, the one of an entry behind entries that can be read. -/
inductive Reached (source : String) : Yaml.Value → Misuse → Prop where
  | fixed {fields : Fields} {v : Yaml.Value} {m : Misuse}
    (hfield : field? fields "federation-version" = some v) (hv : Overlong v m) :
    Reached source (.mapping fields) m
  | entry {fields : Fields} {version : Option Version} {before after : List Yaml.Value}
    {v : Yaml.Value} {ds : List Definition} {m : Misuse}
    (hversion : fixedVersion source (field? fields "federation-version") = .ok version)
    (hfield : field? fields "directives" = some (.list (before ++ v :: after)))
    (hbefore : definitionsOf source 0 before = .ok ds) (hv : OverlongEntry v m) :
    Reached source (.mapping fields) m

theorem fixedVersion_eq_misuse_iff {given : Option Yaml.Value} :
    fixedVersion source given = .error (.misuse m) ↔ ∃ v, given = some v ∧ Overlong v m := by
  cases given with
  | none => simp [fixedVersion]
  | some v => simp [fixedVersion, map_eq_error, versionOf_eq_misuse_iff]

theorem addedDirectives_eq_misuse_iff {given : Option Yaml.Value} :
    addedDirectives source given = .error (.misuse m) ↔
      ∃ before v after, given = some (.list (before ++ v :: after)) ∧
        (∃ ds, definitionsOf source 0 before = .ok ds) ∧ OverlongEntry v m := by
  unfold addedDirectives
  split
  · simp
  · simp [definitionsOf_eq_misuse_iff]
  · next w hw =>
    simp only [reject, Except.error.injEq, reduceCtorEq, Option.some.injEq, false_iff, not_exists]
    rintro before v after ⟨hlist, -⟩
    exact hw _ hlist

theorem ofValue_refused (source : String) (v : Yaml.Value) :
    FailsOnly (Refused source) (ofValue source v) := by
  cases v with
  | null => exact .ok _
  | mapping fields =>
    have hversion : FailsOnly (Refused source)
        (fixedVersion source (field? fields "federation-version")) := by
      unfold fixedVersion
      split
      · exact .ok _
      · exact (versionOf_refused rfl).map _
    have hdirectives : FailsOnly (Refused source)
        (addedDirectives source (field? fields "directives")) := by
      unfold addedDirectives
      split
      · exact .ok _
      · exact definitionsOf_refused source 0 _
      · exact reject_refused rfl
    exact hversion.bind fun version => hdirectives.bind fun directives => .ok _
  | _ => exact reject_refused rfl

/-- **A value goes wrong without a problem iff a version is reached in it that is too long.** -/
theorem ofValue_eq_misuse_iff : ofValue source v = .error (.misuse m) ↔ Reached source v m := by
  cases v with
  | mapping fields =>
    rw [ofValue, bind_eq_error, fixedVersion_eq_misuse_iff]
    constructor
    · rintro (⟨v, hfield, hv⟩ | ⟨version, hversion, h⟩)
      · exact .fixed hfield hv
      · rcases bind_eq_error.mp h with h | ⟨directives, -, h⟩
        · obtain ⟨before, v, after, hfield, ⟨ds, hbefore⟩, hv⟩ := addedDirectives_eq_misuse_iff.mp h
          exact .entry hversion hfield hbefore hv
        · exact absurd h (by simp)
    · intro h
      cases h with
      | fixed hfield hv => exact Or.inl ⟨_, hfield, hv⟩
      | entry hversion hfield hbefore hv =>
        have hdirectives := addedDirectives_eq_misuse_iff.mpr ⟨_, _, _, hfield, ⟨_, hbefore⟩, hv⟩
        exact Or.inr ⟨_, hversion, bind_eq_error.mpr (Or.inl hdirectives)⟩
  | null =>
    constructor
    · intro h
      exact absurd h (by simp [ofValue])
    · intro h
      cases h
  | _ =>
    constructor
    · intro h
      exact absurd h (by simp [ofValue, reject])
    · intro h
      cases h

/-- A text of which the document is read as far as the number of half a character. No text that can be
written holds one, so what comes of it is left open. -/
def LeftOpen (text : String) : Prop := Yaml.compose text.toList = .error (.misuse .halfCharacter)

/-- The failures that a text lets through although they are no problems of the configuration. -/
inductive Escapes (source text : String) : Failure → Prop where
  /-- A number in the spelling of the text that has no meaning, at a token that the scan of it comes
  to. -/
  | spelling {s s' : Yaml.Scan} {fault : Yaml.Fault} (hstart : Yaml.Scan.start text.toList = .ok s)
    (hgoes : s.Goes s') (htoken : s'.token = .error fault) (hnumber : fault.OfNumber)
    (hdocument : Yaml.compose text.toList = .error fault) : Escapes source text (failureOf source fault)
  /-- Nodes inside one another, deeper than there is room for. -/
  | nesting (hdocument : Yaml.compose text.toList = .error (.misuse .deepNesting)) :
    Escapes source text (.misuse .deepNesting)
  /-- A node of the document that cannot be made, the first that is reached. -/
  | value {root : Yaml.NodeId} {g : Yaml.NodeGraph} {fault : Yaml.Fault}
    (hdocument : Yaml.compose text.toList = .ok (some root, g)) (hvalue : Yaml.Unmade g root fault) :
    Escapes source text (failureOf source fault)
  /-- A version with a number that is too long. -/
  | version {v : Yaml.Value} {m : Misuse} (hload : Yaml.load depth text = .ok v)
    (hv : Reached source v m) : Escapes source text (.misuse m)

/-- A fault of loading is a problem of the configuration iff the text is malformed. -/
theorem failureOf_ne_configuration_iff {fault : Yaml.Fault} :
    (∀ p, failureOf source fault ≠ .configuration p) ↔ fault ≠ .malformed := by
  cases fault with
  | malformed => simp [failureOf]
  | misuse m => simp [failureOf]
  | missingKey key => simp [failureOf]

theorem ofText_of_load_error {text : String} {fault : Yaml.Fault}
    (h : Yaml.load depth text = .error fault) :
    ofText source text = .error (failureOf source fault) := by
  rw [ofText, h]

/-- A text of which no document is read is not loaded. -/
theorem load_of_compose_error {text : String} {fault : Yaml.Fault}
    (h : Yaml.compose text.toList = .error fault) : Yaml.load depth text = .error fault :=
  bind_eq_error.mpr (Or.inl h)

/-- A fault that is no malformed text and comes of reading a document or of making its nodes escapes. -/
theorem escapes_of_load_error {text : String} {fault : Yaml.Fault}
    (h : Yaml.load depth text = .error fault) (hfault : fault ≠ .malformed) (hwhole : ¬ LeftOpen text) :
    Escapes source text (failureOf source fault) := by
  rcases Yaml.load_eq_error_iff.mp ⟨h, hfault⟩ with ⟨hdocument, -⟩ | ⟨root, g, hdocument, hvalue⟩
  · rcases Yaml.compose_ofDocument _ _ hdocument with
      rfl | ⟨s, hstart, (rfl | ⟨s', hgoes, htoken⟩) | rfl⟩
    · exact absurd rfl hfault
    · exact absurd rfl hfault
    · have hhalf : fault ≠ .misuse .halfCharacter := by
        rintro rfl
        exact hwhole hdocument
      have htext : fault.OfText := Yaml.Scan.token_ofText s' fault htoken
      exact .spelling hstart hgoes htoken (htext.ofNumber hfault hhalf) hdocument
    · exact .nesting hdocument
  · exact .value hdocument hvalue

/-- A failure escapes iff it is that of the text and no problem of the configuration, and the text is not
left open. -/
theorem escapes_iff {text : String} :
    Escapes source text f ↔
      (ofText source text = .error f ∧ ∀ p, f ≠ .configuration p) ∧ ¬ LeftOpen text := by
  constructor
  · intro h
    cases h with
    | spelling _ _ _ hnumber hdocument =>
      have hload := load_of_compose_error hdocument
      have hfault := hnumber.ne_malformed
      refine ⟨⟨ofText_of_load_error hload, failureOf_ne_configuration_iff.mpr hfault⟩, fun hopen => ?_⟩
      exact hnumber.ne_halfCharacter (Except.error.inj (hdocument.symm.trans hopen))
    | nesting hdocument =>
      have hload := load_of_compose_error hdocument
      refine ⟨⟨ofText_of_load_error hload, by simp⟩, fun hopen => ?_⟩
      exact absurd (hdocument.symm.trans hopen) (by simp)
    | value hdocument hvalue =>
      obtain ⟨hload, hfault⟩ := Yaml.load_eq_error_iff.mpr (Or.inr ⟨_, _, hdocument, hvalue⟩)
      refine ⟨⟨ofText_of_load_error hload, failureOf_ne_configuration_iff.mpr hfault⟩, fun hopen => ?_⟩
      exact absurd (hdocument.symm.trans hopen) (by simp)
    | version hload hv =>
      refine ⟨?_, fun hopen => ?_⟩
      · rw [ofText, hload]
        exact ⟨ofValue_eq_misuse_iff.mpr hv, by simp⟩
      · exact absurd (hload.symm.trans (load_of_compose_error hopen)) (by simp)
  · rintro ⟨⟨h, hne⟩, hwhole⟩
    cases hload : Yaml.load depth text with
    | error fault =>
      rw [ofText_of_load_error hload] at h
      obtain rfl : failureOf source fault = f := Except.error.inj h
      exact escapes_of_load_error hload (failureOf_ne_configuration_iff.mp hne) hwhole
    | ok v =>
      rw [ofText, hload] at h
      rcases ofValue_refused source v f h with ⟨p, -, rfl⟩ | ⟨m, rfl⟩
      · exact absurd rfl (hne p)
      · exact .version hload (ofValue_eq_misuse_iff.mp h)

/-- A problem with a text is one of its source. -/
theorem source?_of_ofText {text : String} {p : Problem}
    (h : ofText source text = .error (.configuration p)) : p.source? = some source := by
  unfold ofText at h
  cases hload : Yaml.load depth text with
  | error fault =>
    rw [hload] at h
    have hfailure := Except.error.inj h
    cases fault with
    | malformed =>
      obtain rfl : .invalidYaml source = p := Failure.configuration.inj hfailure
      rfl
    | misuse m => exact absurd hfailure (by simp [failureOf])
    | missingKey key => exact absurd hfailure (by simp [failureOf])
  | ok v =>
    rw [hload] at h
    rcases ofValue_refused source v _ h with ⟨p', hsource, hp⟩ | ⟨m, hm⟩
    · rw [Failure.configuration.inj hp]
      exact hsource
    · exact absurd hm (by simp)

/-- A day that is not in the calendar escapes. -/
example : ofText "federation.yaml" "2024-02-30" = .error (.misuse .noSuchDay) := by cbv

end Config
end Subgraph
