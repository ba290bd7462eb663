import Subgraph.Proofs.Directive.Spelling
import Subgraph.Proofs.Session.Runs
import Subgraph.Proofs.Workspace.Effects

/-!
# `Session.Addition` — a directive is added as a whole or not at all

Adding a directive goes through six checks, and each knows one failure (`Finds`): the arguments must be
well-formed, the name must spell a text, the catalog of the element must know it, the place must be allowed,
a repetition must be allowed if there is one, and the element must not be frozen. The first check that
finds something decides, whatever the later ones would find (`FirstFault`), and where none does the
directive is added. Both follow from the one run through the checks (`addDirective_outcome`), in which
each check is reached with what the earlier ones have established.

A failure leaves everything as it was, since no check comes after the one change (`Effect`); a success puts
the directive behind the others of this one element (`addition_exact`).
-/

namespace Subgraph

/-! ## The checks -/

namespace Addition

/-- The checks of an addition. -/
inductive Check where
  | arguments | name | known | place | single | unfrozen

/-- The checks in the order in which they are made. -/
def order : List Check := [.arguments, .name, .known, .place, .single, .unfrozen]

variable {c : Catalog} {e : Element} {d : LooseDirective} {f : Failure} {n : String}
  {definition : Definition} {as : List Argument}

/-- The failure that a check finds with adding a directive to an element, whose catalog is `c`. -/
inductive Finds (c : Catalog) (e : Element) (d : LooseDirective) : Check → Failure → Prop where
  | arguments {f : Failure} (h : Argument.listOf d.arguments = .error f) : Finds c e d .arguments f
  | name (h : ∀ n, ¬ d.name.Spells n) : Finds c e d .name (.refusedRecord [d.name.nameFault])
  | known {n : String} (hn : d.name.Spells n) (h : n ∉ c.names) :
    Finds c e d .known (.unknownDirective n)
  | place {n : String} {definition : Definition} (hn : d.name.Spells n)
    (hd : definition ∈ c.definitions ∧ definition.name = n) (h : e.location ∉ definition.locations) :
    Finds c e d .place (.misplacedDirective n e.location)
  | single {n : String} {definition : Definition} (hn : d.name.Spells n)
    (hd : definition ∈ c.definitions ∧ definition.name = n) (hrep : definition.repeatable = false)
    (h : n ∈ e.annotations.names) : Finds c e d .single (.notRepeatable n)
  | unfrozen {n : String} (hn : d.name.Spells n) (h : e.annotations.frozen = true) :
    Finds c e d .unfrozen (.frozen n)

/-- The failure of the first check that finds one. -/
def FirstFault (c : Catalog) (e : Element) (d : LooseDirective) (f : Failure) : Prop :=
  ∃ k, IsFirst (fun k => ∃ g, Finds c e d k g) order k ∧ Finds c e d k f

/-- A check finds one failure. -/
theorem Finds.unique {k : Check} {f g : Failure} (h : Finds c e d k f) (h' : Finds c e d k g) :
    f = g := by
  cases h with
  | arguments h => cases h' with | arguments h' => exact Except.error.inj (h.symm.trans h')
  | name => cases h' with | name => rfl
  | known hn => cases h' with | known hn' => rw [hn.unique hn']
  | place hn => cases h' with | place hn' => rw [hn.unique hn']
  | single hn => cases h' with | single hn' => rw [hn.unique hn']
  | unfrozen hn => cases h' with | unfrozen hn' => rw [hn.unique hn']

/-- So do the checks together. -/
theorem FirstFault.unique {f g : Failure} (h : FirstFault c e d f) (h' : FirstFault c e d g) :
    f = g := by
  obtain ⟨k, hk, hf⟩ := h
  obtain ⟨k', hk', hg⟩ := h'
  obtain rfl : k = k' := hk.unique hk'
  exact hf.unique hg

/-! ## Checks that find nothing -/

theorem not_finds_arguments (h : Argument.listOf d.arguments = .ok as) (f : Failure) :
    ¬ Finds c e d .arguments f := by
  rintro ⟨hf⟩
  exact absurd (h.symm.trans hf) (by simp)

theorem not_finds_name (hn : d.name.Spells n) (f : Failure) : ¬ Finds c e d .name f := by
  intro h
  cases h with
  | name h => exact h n hn

section Known

variable (hn : d.name.Spells n) (hd : definition ∈ c.definitions ∧ definition.name = n)

include hn hd

theorem not_finds_known (f : Failure) : ¬ Finds c e d .known f := by
  intro h
  cases h with
  | known hn' h =>
    rw [hn'.unique hn] at h
    exact h (hd.2 ▸ List.mem_map_of_mem hd.1)

/-- One definition has the name. -/
theorem eq_definition {n' : String} {definition' : Definition} (hn' : d.name.Spells n')
    (hd' : definition' ∈ c.definitions ∧ definition'.name = n') : definition' = definition := by
  refine Catalog.eq_of_name_eq hd'.1 hd.1 ?_
  rw [hd'.2, hd.2, hn'.unique hn]

theorem not_finds_place (h : e.location ∈ definition.locations) (f : Failure) :
    ¬ Finds c e d .place f := by
  intro hf
  cases hf with
  | place hn' hd' hno =>
    rw [eq_definition hn hd hn' hd'] at hno
    exact hno h

theorem not_finds_single (h : definition.repeatable = false → n ∉ e.annotations.names)
    (f : Failure) : ¬ Finds c e d .single f := by
  intro hf
  cases hf with
  | single hn' hd' hrep hmem =>
    rw [eq_definition hn hd hn' hd'] at hrep
    rw [hn'.unique hn] at hmem
    exact h hrep hmem

end Known

theorem not_finds_unfrozen (h : e.annotations.frozen = false) (f : Failure) :
    ¬ Finds c e d .unfrozen f := by
  intro hf
  cases hf with
  | unfrozen _ hfrozen => exact absurd (h.symm.trans hfrozen) (by simp)

/-! ## The run through the checks -/

/-- A check that is reached decides if it finds a failure. -/
theorem firstFault_of_finds (before : List Check) {k : Check} {after : List Check}
    (horder : order = before ++ k :: after) (hbefore : ∀ j ∈ before, ∀ g, ¬ Finds c e d j g)
    (hf : Finds c e d k f) : FirstFault c e d f := by
  refine ⟨k, ⟨⟨f, hf⟩, before, after, horder, ?_⟩, hf⟩
  rintro j hj ⟨g, hg⟩
  exact hbefore j hj g hg

/-- **Reading** a directive makes the checks of its arguments and of its name. -/
theorem read_outcome (c : Catalog) (e : Element) (d : LooseDirective) :
    (∃ f, FirstFault c e d f ∧ d.read = .error f) ∨
      ∃ d', Argument.listOf d.arguments = .ok d'.arguments ∧ d.name.Spells d'.name ∧
        d.read = .ok d' := by
  unfold LooseDirective.read
  cases hargs : Argument.listOf d.arguments with
  | error f => exact Or.inl ⟨f, firstFault_of_finds [] rfl (by simp) (.arguments hargs), rfl⟩
  | ok as =>
    rw [ok_bind]
    cases hname : d.name.fieldText "name" with
    | ok n => exact Or.inr ⟨⟨n, as⟩, rfl, Value.fieldText_eq_ok_iff.mp hname, rfl⟩
    | error fault =>
      obtain rfl := Value.fieldText_eq_error hname
      have hno : ∀ n, ¬ d.name.Spells n := fun n hn =>
        absurd (hname.symm.trans (Value.fieldText_eq_ok_iff.mpr hn)) (by simp)
      refine Or.inl ⟨_, firstFault_of_finds [.arguments] rfl ?_ (.name hno), rfl⟩
      simp [not_finds_arguments hargs]

/-- Behind the other checks, putting a directive behind those of an element makes the last one. -/
theorem append_outcome {d' : Directive} (hn : d.name.Spells d'.name)
    (hbefore : ∀ k ∈ [Check.arguments, .name, .known, .place, .single], ∀ f, ¬ Finds c e d k f) :
    (∃ f, FirstFault c e d f ∧ e.annotations.append d' = .error f) ∨
      (∀ k f, ¬ Finds c e d k f) ∧ e.annotations.append d' =
        .ok { e.annotations with directives := e.annotations.directives ++ [d'] } := by
  unfold Annotations.append
  split
  · next hfrozen =>
    exact Or.inl ⟨_, firstFault_of_finds _ rfl hbefore (.unfrozen hn hfrozen), rfl⟩
  · next hopen =>
    refine Or.inr ⟨fun k f => ?_, rfl⟩
    by_cases hk : k = .unfrozen
    · subst hk
      exact not_finds_unfrozen (by simpa using hopen) f
    · refine hbefore k ?_ f
      cases k <;> simp at hk ⊢

/-- **Attaching** a directive that has been read makes the other checks. -/
theorem attach_outcome {d' : Directive} (hargs : Argument.listOf d.arguments = .ok d'.arguments)
    (hn : d.name.Spells d'.name) :
    (∃ f, FirstFault c e d f ∧ e.annotations.attach c e.location d' = .error f) ∨
      (∀ k f, ¬ Finds c e d k f) ∧ e.annotations.attach c e.location d' =
        .ok { e.annotations with directives := e.annotations.directives ++ [d'] } := by
  have harguments := not_finds_arguments (c := c) (e := e) hargs
  have hname := not_finds_name (c := c) (e := e) hn
  unfold Annotations.attach
  cases hlookup : c.lookup d'.name with
  | error f =>
    obtain ⟨rfl, hno⟩ := Catalog.lookup_eq_error_iff.mp hlookup
    refine Or.inl ⟨_, firstFault_of_finds [.arguments, .name] rfl ?_ (.known hn hno), rfl⟩
    simp [harguments, hname]
  | ok definition =>
    have hd := Catalog.find?_eq_some_iff.mp (Catalog.lookup_eq_ok_iff.mp hlookup)
    have hknown := not_finds_known (e := e) hn hd
    dsimp only
    split
    · next hallow =>
      have hplace : e.location ∉ definition.locations := by simpa [Definition.allows] using hallow
      refine Or.inl ⟨_, firstFault_of_finds [.arguments, .name, .known] rfl ?_
        (.place hn hd hplace), rfl⟩
      simp [harguments, hname, hknown]
    · next hallow =>
      have hplace := not_finds_place hn hd (by simpa [Definition.allows] using hallow)
      split
      · next hrepeated =>
        rw [Bool.and_eq_true] at hrepeated
        have hmem : d'.name ∈ e.annotations.names := by
          simpa [Annotations.contains] using hrepeated.2
        refine Or.inl ⟨_, firstFault_of_finds [.arguments, .name, .known, .place] rfl ?_
          (.single hn hd (by simpa using hrepeated.1) hmem), rfl⟩
        simp [harguments, hname, hknown, hplace]
      · next halone =>
        have hsingle := not_finds_single hn hd fun hrep hmem =>
          halone (by simpa [hrep, Annotations.contains] using hmem)
        refine append_outcome hn ?_
        simp [harguments, hname, hknown, hplace, hsingle]

end Addition

/-! ## Additions -/

namespace Workspace

variable {w : Workspace} {c : Catalog} {id : ElementId} {e : Element}

/-- **The outcome of an addition.** -/
theorem addDirective_outcome (he : w.elements[id]? = some e) (hc : w.catalogs[e.catalog]? = some c)
    (d : LooseDirective) :
    (∃ f, Addition.FirstFault c e d f ∧ w.addDirective id d = .error f) ∨
      (∀ k f, ¬ Addition.Finds c e d k f) ∧
        ∃ d', Argument.listOf d.arguments = .ok d'.arguments ∧ d.name.Spells d'.name ∧
          w.addDirective id d = .ok (w.setAnnotations id
            { e.annotations with directives := e.annotations.directives ++ [d'] }, d') := by
  have hcatalog : w.catalog e.catalog = c := by rw [catalog, hc, Option.getD_some]
  unfold addDirective
  rcases Addition.read_outcome c e d with ⟨f, hfault, hread⟩ | ⟨d', hargs, hn, hread⟩
  · rw [hread]
    exact Or.inl ⟨f, hfault, rfl⟩
  · rw [hread, ok_bind, attach, he]
    dsimp only
    rw [hcatalog]
    rcases Addition.attach_outcome (c := c) (e := e) hargs hn with ⟨f, hfault, hattach⟩ | ⟨hnone, hattach⟩
    · rw [hattach]
      exact Or.inl ⟨f, hfault, rfl⟩
    · rw [hattach]
      exact Or.inr ⟨hnone, d', hargs, hn, rfl⟩

/-- `w'` is `w` with a directive behind the others of one element, and nothing else is different. -/
structure Adds (w : Workspace) (id : ElementId) (e : Element) (d : Directive) (w' : Workspace) :
    Prop where
  element : w'.elements[id]? =
    some { e with annotations := ⟨e.annotations.directives ++ [d], e.annotations.frozen⟩ }
  others : ∀ k, k ≠ id → w'.elements[k]? = w.elements[k]?
  catalogs : w'.catalogs = w.catalogs
  graph : w'.graph = w.graph

theorem setAnnotations_adds (he : w.elements[id]? = some e) (d : Directive) :
    w.Adds id e d (w.setAnnotations id
      { e.annotations with directives := e.annotations.directives ++ [d] }) where
  element := by simp [setAnnotations, Array.getElem?_modify, he]
  others k hk := by
    rw [setAnnotations, Array.getElem?_modify, if_neg (Ne.symm hk)]
  catalogs := rfl
  graph := rfl

end Workspace

namespace Session

variable {st : Session} {id : ElementId} {e : Element}

/-- The session after an addition has what the addition leaves. -/
theorem after_attach (he : st.workspace.elements[id]? = some e) (d : LooseDirective) :
    st.after (.act (.attach id d)) =
      { st with workspace := ((Effect.addDirective id d).on st.workspace).2 } := by
  have hname : st.canName (.act (.attach id d)) = true :=
    decide_eq_true (Array.getElem?_eq_some_iff.mp he).1
  rw [after, if_pos hname, Effect.addDirective_on, perform, Workspace.perform]
  cases st.workspace.addDirective id d with
  | ok p => rfl
  | error f => rfl

/-- **An addition is exact and atomic.** In every session that can be reached, adding a directive to an
element fails with the failure of the first check that finds one, and succeeds iff none does. Then the
directive that is returned, with the arguments and the name that were given, stands behind the others of
the element, which is as frozen as before, and nothing else has changed. After a failure nothing has. -/
theorem addition_exact (hst : st.Reachable) (he : st.workspace.elements[id]? = some e)
    (d : LooseDirective) {given : Except Failure Directive} {w : Workspace}
    (hadd : (Effect.addDirective id d).on st.workspace = (given, w)) :
    ∃ c, st.workspace.catalogs[e.catalog]? = some c ∧
      (∀ f, given = .error f ↔ Addition.FirstFault c e d f) ∧
      ((∃ d', given = .ok d') ↔ ∀ k f, ¬ Addition.Finds c e d k f) ∧
      (∀ d', given = .ok d' → Argument.listOf d.arguments = .ok d'.arguments ∧
        d.name.Spells d'.name ∧ st.workspace.Adds id e d' w) ∧
      (∀ f, given = .error f → w = st.workspace) ∧
      st.after (.act (.attach id d)) = { st with workspace := w } := by
  have hlt : e.catalog < st.workspace.catalogs.size :=
    (hst.wellFormed.sound.elements_admitted id e he).1
  have hc := Array.getElem?_eq_getElem hlt
  have hafter := after_attach he d
  rw [hadd] at hafter
  rw [Effect.addDirective_on] at hadd
  refine ⟨_, hc, ?_⟩
  rcases Workspace.addDirective_outcome he hc d with ⟨f, hfault, hf⟩ | ⟨hnone, d', hargs, hn, hd'⟩
  · rw [hf] at hadd
    obtain ⟨rfl, rfl⟩ := Prod.mk.inj hadd
    refine ⟨fun g => ?_, ?_, by simp, fun _ _ => rfl, hafter⟩
    · constructor
      · intro hg
        exact Except.error.inj hg ▸ hfault
      · intro hg
        rw [hfault.unique hg]
    · obtain ⟨k, -, hk⟩ := hfault
      exact iff_of_false (by simp) fun hno => hno k f hk
  · rw [hd'] at hadd
    obtain ⟨rfl, rfl⟩ := Prod.mk.inj hadd
    refine ⟨fun g => ?_, iff_of_true ⟨_, rfl⟩ hnone, fun d'' h => ?_, by simp, hafter⟩
    · refine iff_of_false (by simp) ?_
      rintro ⟨k, -, hk⟩
      exact hnone k g hk
    · obtain rfl := Except.ok.inj h
      exact ⟨hargs, hn, Workspace.setAnnotations_adds he d'⟩

/-- A session whose one element is frozen and carries `key`, which may not be repeated. -/
def grownSession : Session := run {} (Workspace.growingRun.map .act)

/-- `addition_exact` there: one more `key` offends against both, and the repetition is reported. -/
theorem addition_exact_grown :
    grownSession.Reachable ∧
      grownSession.workspace.elements[0]? = some Workspace.growingElement ∧
      (Effect.addDirective 0 ⟨.text "key", .null⟩).on grownSession.workspace =
        (.error (.notRepeatable "key"), grownSession.workspace) ∧
      ∃ c, grownSession.workspace.catalogs[1]? = some c ∧
        Addition.Finds c Workspace.growingElement ⟨.text "key", .null⟩ .unfrozen (.frozen "key") ∧
        Addition.FirstFault c Workspace.growingElement ⟨.text "key", .null⟩
          (.notRepeatable "key") := by
  have hreachable : grownSession.Reachable := ⟨_, rfl⟩
  have he : grownSession.workspace.elements[0]? = some Workspace.growingElement := by rfl
  have hadd : (Effect.addDirective 0 ⟨.text "key", .null⟩).on grownSession.workspace =
      (.error (.notRepeatable "key"), grownSession.workspace) := by rfl
  obtain ⟨c, hc, herror, -⟩ := addition_exact hreachable he ⟨.text "key", .null⟩ hadd
  exact ⟨hreachable, he, hadd, c, hc, .unfrozen (.text "key") rfl, (herror _).mp rfl⟩

/-- A session with one element, that has no directives. -/
def bareSession : Session := run {} [.act (.construct .fieldDefinition .null .null .null [] none)]

/-- **A name need not be given as a text**: the bytes of `tag` name the directive as well, and so does a
member of an enumeration that stands for this text. -/
theorem addition_of_loose_names :
    bareSession.Reachable ∧
      bareSession.workspace.elements[0]? = some ⟨.fieldDefinition, 0, {}⟩ ∧
      (∀ s, Value.bytes [0x74, 0x61, 0x67] ≠ .text s) ∧
      (∃ w, bareSession.workspace.addDirective 0 ⟨.bytes [0x74, 0x61, 0x67], .null⟩ =
        .ok (w, ⟨"tag", []⟩)) ∧
      (∀ s, Value.symbol (.mk "TAG" (.text "tag")) ≠ .text s) ∧
      ∃ w, bareSession.workspace.addDirective 0 ⟨.symbol (.mk "TAG" (.text "tag")), .null⟩ =
        .ok (w, ⟨"tag", []⟩) := by
  have he : bareSession.workspace.elements[0]? = some ⟨.fieldDefinition, 0, {}⟩ := by rfl
  exact ⟨⟨_, rfl⟩, he, by simp, ⟨_, by rfl⟩, by simp, _, by rfl⟩

end Session

end Subgraph
