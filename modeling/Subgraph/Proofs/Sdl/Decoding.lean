import Subgraph.Proofs.Sdl.Activity
import Subgraph.Proofs.Sdl.Imports
import Subgraph.Proofs.Sdl.Reading
import Subgraph.Proofs.Version.Reading

/-!
# `Sdl.Decoding` — a document is taken apart again

The header of a document quotes the version and the imported names as they are, without an escape, and
is glued to the body. `readDocument` takes such a text apart: the version ends at the first quote, a name
at the next one, and the list at the first bracket that is not inside quotes; what follows the header is
the body, and if nothing follows the body is empty.

It finds what was put together whenever there is no quote in what is quoted (`readDocument_joinHeader`).
There is none in a version that was read from a number or a text, since that is written in digits and
dots, and names without quotes are what is asked of a catalog. So documents that read the same have the
same version text, the same imports and the same body (`document_decodes`).
-/

namespace Subgraph

/-- No name of the catalog has a quote in it. -/
def Catalog.Quotable (c : Catalog) : Prop := ∀ d ∈ c.definitions, '"' ∉ d.name.toList

namespace Sdl

open Text

/-! ## The reader -/

/-- The texts in quotes up to a closing bracket, and what stands behind the bracket. Inside quotes, the
first argument is what has been read since they were opened. -/
def readQuoted : Option (List Char) → List Char → Option (List String × List Char)
  | _, [] => none
  | none, c :: r =>
    if c = ']' then some ([], r) else readQuoted (if c = '"' then some [] else none) r
  | some read, c :: r =>
    if c = '"' then (readQuoted none r).map fun p => (String.ofList read :: p.1, p.2)
    else readQuoted (some (read ++ [c])) r

/-- What a document from version `2.0` on consists of. -/
structure Decoded where
  version : String
  imports : List String
  body : String
  deriving DecidableEq, Repr

/-- A document before the version in the address of its specification. -/
def headerStart : List Char :=
  "extend schema\n  @link(url: \"".toList ++ "https://specs.apollo.dev/federation/v".toList

/-- What stands between the version and the imported names. -/
def between : List Char := "\", import: [".toList

/-- The body of a document, from what stands behind the list of imported names. -/
def readBody : List Char → Option String
  | [')'] => some ""
  | ')' :: '\n' :: '\n' :: body => some (String.ofList body)
  | _ => none

/-- A document taken apart. -/
def readDocument (text : String) : Option Decoded := do
  let r ← text.toList.dropPrefix? headerStart
  let rest ← (r.dropWhile (· != '"')).dropPrefix? between
  let (imports, r') ← readQuoted none rest
  let body ← readBody r'
  some ⟨String.ofList (r.takeWhile (· != '"')), imports, body⟩

/-! ## Names -/

/-- A name in quotes. -/
def quoted (name : String) : List Char := '"' :: (name.toList ++ ['"'])

/-- A text without a quote is read up to the quote that closes it. -/
theorem readQuoted_inside {t : List Char} (ht : '"' ∉ t) (read r : List Char) :
    readQuoted (some read) (t ++ '"' :: r) =
      (readQuoted none r).map fun p => (String.ofList (read ++ t) :: p.1, p.2) := by
  induction t generalizing read with
  | nil => rw [List.nil_append, readQuoted, if_pos rfl, List.append_nil]
  | cons c t ih =>
    rw [List.mem_cons, not_or] at ht
    rw [List.cons_append, readQuoted, if_neg (Ne.symm ht.1), ih ht.2, List.append_assoc,
      List.singleton_append]

/-- A name in quotes is read, and what follows it after that. -/
theorem readQuoted_quoted {name : String} (hname : '"' ∉ name.toList) (r : List Char) :
    readQuoted none (quoted name ++ r) =
      (readQuoted none r).map fun p => (name :: p.1, p.2) := by
  have hopen : readQuoted none (quoted name ++ r) =
      readQuoted (some []) (name.toList ++ '"' :: r) := by
    rw [quoted, List.cons_append, readQuoted, if_neg (by decide), if_pos rfl, List.append_assoc,
      List.singleton_append]
  rw [hopen, readQuoted_inside hname, List.nil_append, String.ofList_toList]

/-- Names behind separators are read up to the bracket. -/
theorem readQuoted_separated {names : List String} (hnames : ∀ n ∈ names, '"' ∉ n.toList)
    (r : List Char) :
    readQuoted none ((names.map quoted).flatMap (fun t => ',' :: ([' '] ++ t)) ++ ']' :: r) =
      some (names, r) := by
  induction names with
  | nil => rfl
  | cons name names ih =>
    rw [List.forall_mem_cons] at hnames
    have hskip : ∀ cs, readQuoted none (',' :: ' ' :: cs) = readQuoted none cs := fun _ => rfl
    rw [List.map_cons, List.flatMap_cons, List.append_assoc, List.cons_append, List.append_assoc,
      List.singleton_append, hskip, readQuoted_quoted hnames.1, ih hnames.2]
    rfl

/-- **A list of names in quotes is read**, whatever stands behind its bracket. -/
theorem readQuoted_listed {names : List String} (hnames : ∀ n ∈ names, '"' ∉ n.toList)
    (r : List Char) :
    readQuoted none (listed (names.map quoted) ++ ']' :: r) = some (names, r) := by
  cases names with
  | nil => rfl
  | cons name names =>
    rw [List.forall_mem_cons] at hnames
    rw [List.map_cons, listed_cons, List.append_assoc, readQuoted_quoted hnames.1,
      readQuoted_separated hnames.2]
    rfl

/-! ## Documents -/

variable {w w' : Workspace} {s s' : Schema} {c c' : Catalog} {v v' : Version}

/-- A header in characters. -/
theorem toList_linkHeader (c : Catalog) (v : Version) :
    (linkHeader c v).toList =
      headerStart ++ (v.text.toList ++ (between ++
        (listed ((linkImports c v).map quoted) ++ "])".toList))) := by
  have hquoted : (String.toList ∘ fun name => "\"" ++ name ++ "\"") = quoted := by
    funext name
    simp [quoted]
  have hcomma : ", ".toList = [',', ' '] := rfl
  unfold linkHeader specificationUrl headerStart between listed
  simp only [String.toList_append, String.toList_intercalate, List.map_map, List.append_assoc]
  rw [hquoted, hcomma]

/-- What stands behind a header gives the body back, also where nothing does. -/
theorem readBody_join (body : String) :
    readBody (')' :: (if body = "" then [] else '\n' :: '\n' :: body.toList)) = some body := by
  split
  · next h => rw [h]; rfl
  · exact congrArg some (String.ofList_toList)

/-- **What was put together is found again**, if there is no quote in the version and in the names. -/
theorem readDocument_joinHeader (hv : '"' ∉ v.text.toList)
    (hnames : ∀ n ∈ linkImports c v, '"' ∉ n.toList) (body : String) :
    readDocument (joinHeader (linkHeader c v) body) = some ⟨v.text, linkImports c v, body⟩ := by
  have hjoined : (joinHeader (linkHeader c v) body).toList =
      headerStart ++ (v.text.toList ++ (between ++ (listed ((linkImports c v).map quoted) ++
        ']' :: ')' :: (if body = "" then [] else '\n' :: '\n' :: body.toList)))) := by
    have hlist : "])".toList = [']', ')'] := rfl
    unfold joinHeader
    split
    · rw [toList_linkHeader, hlist]
    · have hbreak : "\n\n".toList = ['\n', '\n'] := rfl
      rw [String.toList_append, String.toList_append, toList_linkHeader, hlist, hbreak]
      simp only [List.append_assoc, List.cons_append, List.nil_append]
  have hrun : ∀ ch ∈ v.text.toList, (ch != '"') = true := by
    intro ch hch
    rw [bne_iff_ne]
    rintro rfl
    exact hv hch
  -- the version ends where the quote stands that `between` starts with
  have hquote : ∀ r, ∀ ch ∈ (between ++ r).head?, (ch != '"') = false :=
    fun r => forall_mem_head?_cons.mpr rfl
  rw [readDocument, hjoined, List.dropPrefix?_append_of_beq _ (beq_self_eq_true _)]
  simp only [Option.bind_eq_bind, Option.bind_some, takeWhile_run hrun (hquote _),
    dropWhile_run hrun (hquote _), List.dropPrefix?_append_of_beq _ (beq_self_eq_true _),
    readQuoted_listed hnames, readBody_join, String.ofList_toList]

/-- With nothing to import and nothing to print, the header is all there is. -/
example : readDocument (joinHeader (linkHeader .empty Version.second) "") = some ⟨"2.0", [], ""⟩ := by
  decide +kernel

/-- There is no quote in a version that was read. -/
theorem quote_not_mem_text (h : v.Parsed) : '"' ∉ v.text.toList := by
  rw [h.text_eq]
  obtain ⟨x, hx, hparse⟩ := h
  have hwrites : IsVersionText v.literal.toList := Version.literal_of_parse hx hparse
  intro hmem
  rcases Version.mem_of_isVersionText hwrites hmem with hdigit | hdot
  · exact absurd hdigit (by decide)
  · exact absurd hdot (by decide)

/-- There is none in what is imported from a catalog without quotes. -/
theorem quote_not_mem_imports (h : c.Quotable) (v : Version) :
    ∀ n ∈ linkImports c v, '"' ∉ n.toList := by
  intro n hn
  obtain ⟨d, hd, rfl⟩ := List.mem_map.mp hn
  obtain ⟨hmem, -⟩ := Catalog.mem_eligible.mp hd
  rw [String.toList_append, List.mem_append, not_or]
  exact ⟨by decide, h d hmem⟩

/-- A document from version `2.0` on is taken apart into the version, the imports and the body. -/
theorem readDocument_of_documentAt (hv : v.Parsed) (hfederation2 : v.isFederation2 = true)
    (hc : c.Quotable) {text : String} (h : documentAt w s c v = .ok text) :
    ∃ body, federationBody w s c v = .ok body ∧
      readDocument text = some ⟨v.text, linkImports c v, body⟩ := by
  obtain ⟨-, body, hbody, rfl⟩ := exists_body_of_documentAt hfederation2 h
  exact ⟨body, hbody,
    readDocument_joinHeader (quote_not_mem_text hv) (quote_not_mem_imports hc v) body⟩

/-- **A document is taken apart again in one way only.** A document from version `2.0` on, at a version
that was read from a value and with a catalog whose names have no quote in them, gives back the text of
the version, the imported names in order, and the body, each of which may be empty but the first. So
another such document that reads the same, of whatever schema and with whatever catalog, has the same
three parts. -/
theorem document_decodes (hv : v.Parsed) (hfederation2 : v.isFederation2 = true) (hc : c.Quotable)
    {text : String} (h : documentAt w s c v = .ok text) :
    (∃ body, federationBody w s c v = .ok body ∧
      readDocument text = some ⟨v.text, linkImports c v, body⟩) ∧
    ∀ (w' : Workspace) (s' : Schema) (c' : Catalog) (v' : Version), v'.Parsed →
      v'.isFederation2 = true → c'.Quotable → documentAt w' s' c' v' = .ok text →
        v'.text = v.text ∧ linkImports c' v' = linkImports c v ∧
          federationBody w' s' c' v' = federationBody w s c v := by
  obtain ⟨body, hbody, hread⟩ := readDocument_of_documentAt hv hfederation2 hc h
  refine ⟨⟨body, hbody, hread⟩, fun w' s' c' v' hv' hfederation2' hc' h' => ?_⟩
  obtain ⟨body', hbody', hread'⟩ := readDocument_of_documentAt hv' hfederation2' hc' h'
  obtain ⟨htext, himports, rfl⟩ := Decoded.mk.inj (Option.some.inj (hread'.symm.trans hread))
  exact ⟨htext, himports, hbody'.trans hbody.symm⟩

/-- The standard catalog with one more directive, which no version before `2.9` imports. -/
def laterCatalog : Catalog where
  definitions := Catalog.standard.definitions ++ [⟨"key", ⟨[2, 9], "2.9"⟩, [.object], true⟩]
  distinct := by decide

/-- `document_decodes` at the schema with three directives, printed at `2.3` with the standard catalog
and, in the same text, at `2.3` again with a larger one. -/
theorem document_decodes_mixed :
    Version.parse (.text "2.3") = .ok ⟨[2, 3], "2.3"⟩ ∧
      Version.isFederation2 ⟨[2, 3], "2.3"⟩ = true ∧
      Catalog.standard.Quotable ∧ laterCatalog.Quotable ∧
      documentAt mixedWorkspace mixedSchema .standard ⟨[2, 3], "2.3"⟩ = .ok mixedText ∧
      documentAt mixedWorkspace mixedSchema laterCatalog ⟨[2, 3], "2.3"⟩ = .ok mixedText ∧
      (∃ body, readDocument mixedText =
        some ⟨"2.3", linkImports .standard ⟨[2, 3], "2.3"⟩, body⟩) ∧
      linkImports laterCatalog ⟨[2, 3], "2.3"⟩ = linkImports .standard ⟨[2, 3], "2.3"⟩ := by
  have hparse : Version.parse (.text "2.3") = .ok ⟨[2, 3], "2.3"⟩ := by rfl
  have hv : Version.Parsed ⟨[2, 3], "2.3"⟩ := ⟨.text "2.3", by simp, hparse⟩
  have hfederation2 : Version.isFederation2 ⟨[2, 3], "2.3"⟩ = true := by decide
  have hstandard : Catalog.standard.Quotable := by unfold Catalog.Quotable; decide
  have hlater : laterCatalog.Quotable := by unfold Catalog.Quotable; decide
  have hprint : documentAt mixedWorkspace mixedSchema .standard ⟨[2, 3], "2.3"⟩ =
      .ok mixedText := by rfl
  have hprint' : documentAt mixedWorkspace mixedSchema laterCatalog ⟨[2, 3], "2.3"⟩ =
      .ok mixedText := by rfl
  obtain ⟨⟨body, -, hread⟩, hsame⟩ := document_decodes hv hfederation2 hstandard hprint
  obtain ⟨-, himports, -⟩ := hsame _ _ _ _ hv hfederation2 hlater hprint'
  exact ⟨hparse, hfederation2, hstandard, hlater, hprint, hprint', ⟨body, hread⟩, himports⟩

end Sdl
end Subgraph
