import Conformance.Proofs.Schema.History

/-!
# Composition of a schema

When a schema is compiled, the engine loads the documents that it is composed of while the
redirects that were planned are in force. It does not know the catalog, so what it loads is right
only if the walk came by every reference before. It did: the engine composes no document whose
references the walk has not followed.

* `Engine.served` : the document that the engine gets for a URL;
* `Composes` : the documents that the engine gets to, from the root;
* `Steady` : URLs mean the same to the walk and to the engine;
* `redirected_of_composes` : whatever the catalog resolves is redirected, to a resolution.
-/

namespace Conformance

variable {E : Engine}

/-- The document that is loaded for a URL while a table is in force. It stands where it was
loaded from. -/
def Engine.served (E : Engine) (table : RedirectTable) (url : String) : Option E.Document :=
  (E.find (some (.redirects table)) (some (.ofString url)) none).bind fun entity =>
    (E.parseEntity entity (table.place url)).value (E.find (some (.redirects table)))

theorem Engine.served_eq_documentAt {table : RedirectTable} {url : String}
    (hurl : hasNul url = false) (hplace : hasNul (table.place url) = false) :
    E.served table url = E.documentAt (some (.redirects table)) (table.place url) := by
  rw [served, find_redirects hurl hplace, documentAt]

namespace Schema

/-- The documents, each with its place, that an engine gets to from a root while a table is in
force, unless by a remote reference that the catalog does not resolve. -/
inductive Composes (catalog : E.LoadedCatalog) (table : RedirectTable) (root : Loaded) :
    E.Document → String → Prop where
  | root {document : E.Document}
      (hparse : (Attempt.parse root.octets root.systemId).value (some (.redirects table)) =
        .ok (some document)) : Composes catalog table root document root.systemId
  | load {document loaded : E.Document} {base : String} {references : List Reference}
      {reference : Reference} (h : Composes catalog table root document base)
      (hreferences : (Reference.ofDocument document).value none = .ok references)
      (hmem : reference ∈ references)
      (hlocal : reference.answer catalog base = none →
        Catalog.isRemote (reference.url E base) = false)
      (hserved : E.served table (reference.url E base) = some loaded) :
      Composes catalog table root loaded (table.place (reference.url E base))

/-- A place has the same document with and without a table in force, and if the place of the root
has any, it is the root. -/
structure Steady (E : Engine) (table : RedirectTable) (root : Loaded) : Prop where
  document : ∀ place, E.documentAt (some (.redirects table)) place = E.documentAt none place
  parse : (Attempt.parse root.octets root.systemId).value (E := E) (some (.redirects table)) =
    (Attempt.parse root.octets root.systemId).value none
  root : ∀ document, E.documentAt none root.systemId = some document →
    (Attempt.parse root.octets root.systemId).value none = .ok (some document)

/-- From a root that cannot be parsed the engine gets nowhere. -/
theorem Composes.parsed {catalog : E.LoadedCatalog} {table : RedirectTable} {root : Loaded}
    {document : E.Document} {base : String} (h : Composes catalog table root document base) :
    (Attempt.parse root.octets root.systemId).value (E := E) (some (.redirects table)) ≠
      .ok none := by
  induction h with
  | root hparse =>
      rw [hparse]
      simp
  | load h hreferences hmem hlocal hserved ih => exact ih

namespace Plan

variable {catalog : E.LoadedCatalog} {root : Loaded}

/-- Where a table leads a reference, the walk has been, unless the reference is remote and the
catalog does not resolve it. -/
theorem Walks.place_mem_visited {document : E.Document} {base : String} {moves : List (Move E)}
    {after : Plan E} (h : Walks catalog (start document base) moves after) {move : Move E}
    (hmove : move ∈ moves)
    (hlocal : move.answer catalog = none → Catalog.isRemote move.url = false) :
    after.table.place move.url ∈ after.visited := by
  have hsettled := h.reaches.settled move hmove
  cases htarget : after.table.target? move.url with
  | some target =>
      rw [RedirectTable.place_of_some htarget]
      exact h.mem_visited_of_target htarget
  | none =>
      rw [RedirectTable.place_of_none htarget]
      cases hanswer : move.answer catalog with
      | some answer =>
          obtain ⟨place, -, hentry⟩ := hsettled.entry (by rw [hanswer]; rfl)
          rw [htarget] at hentry
          cases hentry
      | none =>
          apply hsettled.visited
          rw [Move.next_of_none hanswer, hlocal hanswer, if_neg Bool.false_ne_true]

/-- The walk has followed all references of every document that the engine gets to. -/
theorem Walks.looked_of_composes {document : E.Document} {moves : List (Move E)} {after : Plan E}
    (h : Walks catalog (start document root.systemId) moves after)
    (hparse : (Attempt.parse root.octets root.systemId).value none = .ok (some document))
    (hsteady : Steady E after.table root) {composed : E.Document} {base : String}
    (hcomposes : Composes catalog after.table root composed base) : Looked moves composed base := by
  have hroot := Attempt.hasNul_of_value_parse hparse
  have hlooked : Looked moves document root.systemId :=
    h.looked_of_pending (List.mem_singleton_self _)
  induction hcomposes with
  | root hcompiled =>
      rw [hsteady.parse, hparse] at hcompiled
      cases hcompiled
      exact hlooked
  | @load composed loaded base references reference _ hreferences hmem hlocal hserved ih =>
      obtain ⟨references', hreferences', hmoves⟩ := ih
      rw [hreferences] at hreferences'
      cases hreferences'
      obtain ⟨move, hmove, rfl, rfl⟩ := hmoves reference hmem
      have hvisited := h.place_mem_visited hmove hlocal
      have hurl : hasNul move.url = false :=
        Reference.hasNul_url move.base (h.reaches.settled move hmove).location
      have hloaded : E.documentAt none (after.table.place move.url) = some loaded := by
        rw [← hsteady.document, ← Engine.served_eq_documentAt hurl (h.hasNul_place hroot hurl)]
        exact hserved
      by_cases hplace : after.table.place move.url = root.systemId
      · -- the place of the root is met from the start, so the walk never reads there
        have hagain := hsteady.root loaded (hplace ▸ hloaded)
        rw [hparse] at hagain
        cases hagain
        exact hplace ▸ hlooked
      · exact (h.looked hvisited fun hstart => hplace (List.mem_singleton.1 hstart)).2 loaded hloaded

/-- Of every document that the engine gets to, the references are known to the walk. Each that
the catalog resolves is redirected, to what the catalog has for a reference to the same URL. -/
theorem redirected_of_composes {thread : Thread E} {table : RedirectTable}
    (hthread : thread.resolution = none)
    (hplan : ((redirects catalog root).outcome.run thread).1 = .ok table)
    (hsteady : Steady E table root) {document : E.Document} {base : String}
    (hcomposes : Composes catalog table root document base) :
    ∃ references, (Reference.ofDocument document).value none = .ok references ∧
      ∀ reference ∈ references, (reference.answer catalog base).isSome →
        ∃ target, table.target? (reference.url E base) = some target ∧
          (∀ publicId, E.find (some (.redirects table))
            (some (.ofString (reference.url E base))) publicId =
              E.openEntity (some (.ofString target)) publicId) ∧
          ∃ move ∈ history catalog root, move.url = reference.url E base ∧
            move.answer catalog = some target := by
  rcases walks_of_redirects hthread hplan with ⟨hparse, rfl⟩ | ⟨root', after, hparse, hwalks, rfl⟩
  · exact absurd (hsteady.parse.trans hparse) hcomposes.parsed
  · obtain ⟨references, hreferences, hmoves⟩ := hwalks.looked_of_composes hparse hsteady hcomposes
    refine ⟨references, hreferences, fun reference hmem hanswer => ?_⟩
    obtain ⟨move, hmove, rfl, rfl⟩ := hmoves reference hmem
    have hsettled := hwalks.reaches.settled move hmove
    obtain ⟨target, -, htarget⟩ := hsettled.entry hanswer
    have hurl : hasNul move.url = false := Reference.hasNul_url move.base hsettled.location
    have hplace := hwalks.hasNul_place (Attempt.hasNul_of_value_parse hparse) hurl
    refine ⟨target, htarget, fun publicId => ?_, ?_⟩
    · rw [← RedirectTable.place_of_some htarget]
      exact Engine.find_redirects hurl hplace publicId
    · rcases hwalks.reaches.entry htarget with hstart | ⟨origin, horigin, hsame, hanswered, -⟩
      · cases hstart
      · exact ⟨origin, horigin, hsame, hanswered⟩

/-- A root whose import leads to a schema that imports another one, and the root again. -/
def nested : Engine :=
  .ofSheets [("root.xsd", [⟨"urn:p", "party.xsd"⟩]),
    ("local/party.xsd", [⟨"urn:t", "types.xsd"⟩, ⟨"", "root.xsd"⟩]), ("local/types.xsd", [])]

/-- A catalog that sends the references of the nested documents into a directory. -/
def nestedEntries : Catalog.Entries :=
  ⟨[], [("urn:p/party.xsd", "local/party.xsd"), ("urn:t/types.xsd", "local/types.xsd")], []⟩

/-- The redirects that are planned for the nested documents with this catalog. -/
def nestedTable : RedirectTable :=
  [("party.xsd", "local/party.xsd"), ("types.xsd", "local/types.xsd")]

theorem steady_nested : Steady nested nestedTable ⟨[], "root.xsd"⟩ where
  document _ := rfl
  parse := rfl
  root document h := by
    cases h
    rfl

theorem composes_nested : Composes (E := nested) nestedEntries nestedTable ⟨[], "root.xsd"⟩
    [⟨"urn:t", "types.xsd"⟩, ⟨"", "root.xsd"⟩] "local/party.xsd" := by
  have hroot : Composes (E := nested) nestedEntries nestedTable ⟨[], "root.xsd"⟩
      [⟨"urn:p", "party.xsd"⟩] "root.xsd" := .root rfl
  have hreferences : (Reference.ofDocument (E := nested) [⟨"urn:p", "party.xsd"⟩]).value none =
      .ok [⟨"urn:p", "party.xsd"⟩] := rfl
  have hanswer : Reference.answer (E := nested) nestedEntries ⟨"urn:p", "party.xsd"⟩ "root.xsd" =
      some "local/party.xsd" := rfl
  have hurl : Reference.url nested ⟨"urn:p", "party.xsd"⟩ "root.xsd" = "party.xsd" := rfl
  have hserved : nested.served nestedTable "party.xsd" =
      some [⟨"urn:t", "types.xsd"⟩, ⟨"", "root.xsd"⟩] := rfl
  rw [← hurl] at hserved
  have hloaded := Composes.load hroot hreferences (List.mem_singleton_self _)
    (fun h => absurd (hanswer.symm.trans h) (Option.some_ne_none _)) hserved
  rwa [hurl] at hloaded

theorem redirected_of_composes_nested :
    ∃ target, nestedTable.target? "types.xsd" = some target ∧
      ∃ move ∈ history (E := nested) nestedEntries ⟨[], "root.xsd"⟩,
        move.url = "types.xsd" ∧ move.answer (E := nested) nestedEntries = some target := by
  have hplan : ((redirects (E := nested) nestedEntries ⟨[], "root.xsd"⟩).outcome.run
      Thread.fresh).1 = .ok nestedTable := rfl
  obtain ⟨references, hreferences, hredirected⟩ :=
    redirected_of_composes rfl hplan steady_nested composes_nested
  cases hreferences
  obtain ⟨target, htarget, -, hmove⟩ := hredirected _ List.mem_cons_self rfl
  exact ⟨target, htarget, hmove⟩

end Plan

end Schema

end Conformance
