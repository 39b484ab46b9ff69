import Conformance.Proofs.Engine.Alike
import Conformance.Proofs.Schema.Graph
import Mathlib.Data.List.Forall2

/-!
# The order of references

Two graphs of documents may differ only in the order of the elements by which documents refer to
others. The walks through them differ everywhere: in the places read first, in the stack and in the
order of the entries. As long as nothing is disputed, what is planned is the same.

* `Rearranged` : documents with the same elements in another order,
  `Rearranged.sameReferences` : their references are the same in another order;
* `SameGraph` : graphs that are the same up to the order of references, and so have the same
  references (`SameGraph.meets`);
* `Rearrangement` : graphs of documents that are rearranged,
  `Plan.bothOrNeither_of_rearrangement` : they are planned alike.
-/

namespace Conformance

variable {E F : Engine}

namespace Schema

/-! ## Documents -/

/-- Elements that give the same reference. -/
structure SameElement (document : E.Document) (document' : F.Document) (node : E.Node)
    (node' : F.Node) : Prop where
  location : E.evaluate document (some node) Query.schemaLocation =
    F.evaluate document' (some node') Query.schemaLocation
  kind : E.evaluate document (some node) Query.localName =
    F.evaluate document' (some node') Query.localName
  imported : E.evaluate document (some node) Query.importedNamespace =
    F.evaluate document' (some node') Query.importedNamespace

theorem SameElement.refl (document : E.Document) (node : E.Node) :
    SameElement document document node node := ⟨rfl, rfl, rfl⟩

/-- Documents that differ only in the order of the elements that refer to others. -/
structure Rearranged (document : E.Document) (document' : F.Document) : Prop where
  opensXPath : E.opensXPath document = F.opensXPath document'
  registers : E.registers document Query.schemaPrefix Catalog.schemaNamespace =
    F.registers document' Query.schemaPrefix Catalog.schemaNamespace
  targetNamespace : E.evaluate document none Query.targetNamespace =
    F.evaluate document' none Query.targetNamespace
  elements : Option.Rel (fun nodes nodes' => ∃ rearranged, nodes.Perm rearranged ∧
      List.Forall₂ (SameElement document document') rearranged nodes')
    (E.select document Query.composition) (F.select document' Query.composition)

namespace Reference

variable {document : E.Document} {document' : F.Document}

theorem alike_ofNode? (targetNamespace : String) {node : E.Node} {node' : F.Node}
    (h : SameElement document document' node node') :
    Attempt.Alike Eq (ofNode? document targetNamespace node)
      (ofNode? document' targetNamespace node') := by
  refine (Attempt.alike_evaluate h.location).bind ?_
  rintro location _ rfl
  split
  · exact Attempt.alike_pure rfl
  · refine (Attempt.alike_evaluate h.kind).bind ?_
    rintro kind _ rfl
    split
    · refine (Attempt.alike_evaluate h.imported).bind ?_
      rintro imported _ rfl
      exact Attempt.alike_pure rfl
    · exact Attempt.alike_pure rfl

theorem alike_ofNodes (targetNamespace : String) {nodes : List E.Node} {nodes' : List F.Node}
    (h : List.Forall₂ (SameElement document document') nodes nodes') :
    Attempt.Alike Eq (ofNodes document targetNamespace nodes)
      (ofNodes document' targetNamespace nodes') := by
  induction h with
  | nil => exact Attempt.alike_pure rfl
  | cons hnode hnodes ih =>
      refine (alike_ofNode? targetNamespace hnode).bind ?_
      rintro reference _ rfl
      refine ih.bind ?_
      rintro references _ rfl
      exact Attempt.alike_pure rfl

/-- The first two of some elements, one after the other. -/
theorem run_ofNodes_cons_cons (document : E.Document) (targetNamespace : String)
    (node node' : E.Node) (nodes : List E.Node) (thread : Thread E) :
    (ofNodes document targetNamespace (node :: node' :: nodes)).outcome.run thread =
      (ofNode? document targetNamespace node >>= fun reference =>
        ofNode? document targetNamespace node' >>= fun reference' =>
          ofNodes document targetNamespace nodes >>= fun references =>
            pure (reference.toList ++ (reference'.toList ++ references))).outcome.run thread := by
  simp only [ofNodes, Attempt.run_bind]
  rcases (ofNode? document targetNamespace node).outcome.run thread with ⟨_ | _, between⟩
  · rfl
  · simp only
    rcases (ofNode? document targetNamespace node').outcome.run between with ⟨_ | _, after⟩
    · rfl
    · simp only
      rcases (ofNodes document targetNamespace nodes).outcome.run after with ⟨_ | _, _⟩ <;> rfl

/-- Elements in another order give the same references in another order, or both fail. -/
theorem alike_ofNodes_of_perm (document : E.Document) (targetNamespace : String)
    {nodes nodes' : List E.Node} (h : nodes.Perm nodes') :
    Attempt.Alike List.Perm (ofNodes document targetNamespace nodes)
      (ofNodes document targetNamespace nodes') := by
  have hnode : ∀ node : E.Node, Attempt.Alike Eq (ofNode? document targetNamespace node)
      (ofNode? document targetNamespace node) :=
    fun node => alike_ofNode? targetNamespace (.refl document node)
  induction h with
  | nil => exact Attempt.alike_pure (.refl _)
  | cons node h ih =>
      refine (hnode node).bind ?_
      rintro reference _ rfl
      exact ih.bind fun hperm => Attempt.alike_pure (hperm.append_left _)
  | swap node node' nodes =>
      have hnodes : Attempt.Alike Eq (ofNodes document targetNamespace nodes)
          (ofNodes document targetNamespace nodes) :=
        alike_ofNodes targetNamespace (List.forall₂_same.2 fun node _ => .refl document node)
      intro thread thread'
      rw [run_ofNodes_cons_cons, run_ofNodes_cons_cons]
      refine (Attempt.Alike.bind_comm (hnode _) (hnode _) fun reference reference' => ?_) _ _
      refine hnodes.bind ?_
      rintro references _ rfl
      exact Attempt.alike_pure (List.perm_append_comm_assoc _ _ _)
  | trans h h' ih ih' => exact ih.trans ih' List.Perm.trans

end Reference

/-- Documents that have the same references in some order, or from neither of which they can be
had. -/
def SameReferences (document : E.Document) (document' : F.Document) : Prop :=
  BothOrNeither List.Perm ((Reference.ofDocument document).value none)
    ((Reference.ofDocument document').value none)

theorem Rearranged.sameReferences {document : E.Document} {document' : F.Document}
    (h : Rearranged document document') : SameReferences document document' := by
  have halike : Attempt.Alike List.Perm (Reference.ofDocument document)
      (Reference.ofDocument document') := by
    refine (Attempt.alike_openXPath h.opensXPath).bind fun _ => ?_
    refine (Attempt.alike_register h.registers).bind fun _ => ?_
    refine (Attempt.alike_evaluate h.targetNamespace).bind ?_
    rintro targetNamespace _ rfl
    refine (Attempt.alike_select h.elements).bind ?_
    rintro nodes nodes' ⟨rearranged, hperm, hsame⟩
    refine (Reference.alike_ofNodes_of_perm document targetNamespace hperm).trans
      (Reference.alike_ofNodes targetNamespace hsame) ?_
    rintro references _ _ hperm rfl
    exact hperm
  exact halike _ _

/-! ## Graphs -/

/-- Graphs from two roots that are the same up to the order of references. -/
structure SameGraph (catalog : E.LoadedCatalog) (catalog' : F.LoadedCatalog)
    (root root' : Loaded) : Prop where
  url : ∀ (reference : Reference) base, reference.url E base = reference.url F base
  answer : ∀ (reference : Reference) base,
    reference.answer catalog base = reference.answer catalog' base
  systemId : root.systemId = root'.systemId
  root : BothOrNeither (Option.Rel SameReferences)
    ((Attempt.parse root.octets root.systemId).value (E := E) none)
    ((Attempt.parse root'.octets root'.systemId).value (E := F) none)
  documents : ∀ place,
    Option.Rel SameReferences (E.documentAt none place) (F.documentAt none place)

theorem SameReferences.symm {document : E.Document} {document' : F.Document}
    (h : SameReferences document document') : SameReferences document' document :=
  BothOrNeither.symm h List.Perm.symm

theorem rel_sameReferences_symm {document : Option E.Document} {document' : Option F.Document}
    (h : Option.Rel SameReferences document document') :
    Option.Rel SameReferences document' document := by
  cases h with
  | none => exact .none
  | some h => exact .some h.symm

namespace SameGraph

variable {catalog : E.LoadedCatalog} {catalog' : F.LoadedCatalog} {root root' : Loaded}

theorem symm (h : SameGraph catalog catalog' root root') :
    SameGraph catalog' catalog root' root where
  url reference base := (h.url reference base).symm
  answer reference base := (h.answer reference base).symm
  systemId := h.systemId.symm
  root := h.root.symm rel_sameReferences_symm
  documents place := rel_sameReferences_symm (h.documents place)

theorem goal (h : SameGraph catalog catalog' root root') (reference : Reference) (base : String) :
    reference.goal catalog base = reference.goal catalog' base := by
  rw [Reference.goal, Reference.goal, h.answer, h.url]

/-- The same places are reached, and the documents there have the same references. -/
theorem reachable (h : SameGraph catalog catalog' root root') {document : E.Document}
    {base : String} (hreached : Reachable catalog root document base) :
    ∃ document', SameReferences document document' ∧ Reachable catalog' root' document' base := by
  induction hreached with
  | @root document hparse =>
      obtain ⟨parsed, hparse', hsame⟩ := h.root.exists_of_ok hparse
      cases hsame with
      | @some _ document' hsame => exact ⟨document', hsame, h.systemId ▸ .root hparse'⟩
  | @follow document found base place references reference _ hreferences hmem hgoal hplace hfound
      ih =>
      obtain ⟨document', hsame, hreached'⟩ := ih
      obtain ⟨references', hreferences', hperm⟩ := hsame.exists_of_ok hreferences
      have hplaces := h.documents place
      rw [hfound] at hplaces
      generalize hfound' : F.documentAt none place = found' at hplaces
      cases hplaces with
      | @some _ found' hsame' =>
          exact ⟨found', hsame', .follow hreached' hreferences' (hperm.mem_iff.1 hmem)
            (h.goal reference base ▸ hgoal) (h.systemId ▸ hplace) hfound'⟩

theorem meets (h : SameGraph catalog catalog' root root') {reference : Reference} {base : String}
    (hmeets : Meets catalog root reference base) : Meets catalog' root' reference base := by
  obtain ⟨document, references, hreached, hreferences, hmem⟩ := hmeets
  obtain ⟨document', hsame, hreached'⟩ := h.reachable hreached
  obtain ⟨references', hreferences', hperm⟩ := hsame.exists_of_ok hreferences
  exact ⟨document', references', hreached', hreferences', hperm.mem_iff.1 hmem⟩

theorem meets_iff (h : SameGraph catalog catalog' root root') {reference : Reference}
    {base : String} : Meets catalog root reference base ↔ Meets catalog' root' reference base :=
  ⟨h.meets, h.symm.meets⟩

theorem undisputed (h : SameGraph catalog catalog' root root')
    (hundisputed : Undisputed catalog root) : Undisputed catalog' root' := by
  intro reference reference' base base' hmeets hmeets' hurl
  rw [← h.url, ← h.url] at hurl
  rw [← h.answer, ← h.answer]
  exact hundisputed _ _ _ _ (h.symm.meets hmeets) (h.symm.meets hmeets') hurl

/-- If the planning succeeds for one of two such graphs, it succeeds for the other. -/
theorem exists_table (h : SameGraph catalog catalog' root root')
    (hundisputed : Undisputed catalog root) {thread : Thread E} {thread' : Thread F}
    (hthread : thread.resolution = none) (hthread' : thread'.resolution = none)
    {table : RedirectTable}
    (hplan : ((Plan.redirects catalog root).outcome.run thread).1 = .ok table) :
    ∃ table', ((Plan.redirects catalog' root').outcome.run thread').1 = .ok table' := by
  have hplanned := Plan.planned_of_redirects hundisputed hthread hplan
  cases hplan' : ((Plan.redirects catalog' root').outcome.run thread').1 with
  | ok table' => exact ⟨table', rfl⟩
  | error error =>
      exfalso
      rcases Plan.exists_unreadable_of_redirects (h.undisputed hundisputed) hthread' hplan' with
        hparse | ⟨document, base, hreached, hreferences⟩
      · obtain ⟨error', hparse⟩ := h.symm.root.exists_of_error hparse
        rw [Plan.fst_run_redirects hthread, hparse] at hplan
        cases hplan
      · obtain ⟨document', hsame, hreached'⟩ := h.symm.reachable hreached
        obtain ⟨references, hreferences'⟩ := hplanned.readable document' base hreached'
        obtain ⟨error', herror⟩ := hsame.exists_of_error hreferences
        rw [hreferences'] at herror
        cases herror

end SameGraph

/-! ## Rearrangements -/

/-- Graphs from two roots whose documents are rearranged, for one catalog. -/
structure Rearrangement (catalog : E.LoadedCatalog) (catalog' : F.LoadedCatalog)
    (root root' : Loaded) : Prop where
  ask : ∀ lookup, E.ask catalog lookup = F.ask catalog' lookup
  buildUri : ∀ reference base, E.buildUri reference base = F.buildUri reference base
  systemId : root.systemId = root'.systemId
  size : root.octets.length ≤ Attempt.sizeLimit ↔ root'.octets.length ≤ Attempt.sizeLimit
  root : Option.Rel Rearranged ((E.parse root.octets root.systemId).value (E.find none))
    ((F.parse root'.octets root'.systemId).value (F.find none))
  documents : ∀ place, Option.Rel Rearranged (E.documentAt none place) (F.documentAt none place)

theorem rel_sameReferences_of_rel {document : Option E.Document} {document' : Option F.Document}
    (h : Option.Rel Rearranged document document') :
    Option.Rel SameReferences document document' := by
  cases h with
  | none => exact .none
  | some h => exact .some h.sameReferences

variable {catalog : E.LoadedCatalog} {catalog' : F.LoadedCatalog} {root root' : Loaded}

theorem Rearrangement.sameGraph (h : Rearrangement catalog catalog' root root') :
    SameGraph catalog catalog' root root' where
  url reference base := by rw [Reference.url, Reference.url, h.buildUri]
  answer reference base := by rw [Reference.answer, Reference.answer, funext h.ask]
  systemId := h.systemId
  root := by
    have hroot := h.root
    rw [Attempt.value_parse, Attempt.value_parse, ← h.systemId]
    rw [← h.systemId] at hroot
    by_cases hsize : root.octets.length ≤ Attempt.sizeLimit
    · rw [if_pos hsize, if_pos (h.size.1 hsize)]
      split
      · exact .neither
      · exact .both (rel_sameReferences_of_rel hroot)
    · rw [if_neg hsize, if_neg fun hsize' => hsize (h.size.2 hsize')]
      exact .neither
  documents place := rel_sameReferences_of_rel (h.documents place)

namespace Plan

/-- The order of references does not matter to the planning if nothing is disputed: it fails or
succeeds for either graph, and then has the same entries and reads at the same places. -/
theorem bothOrNeither_of_rearrangement (h : Rearrangement catalog catalog' root root')
    (hundisputed : Undisputed catalog root) {thread : Thread E} {thread' : Thread F}
    (hthread : thread.resolution = none) (hthread' : thread'.resolution = none) :
    BothOrNeither
        (fun table table' : RedirectTable => ∀ url, table.target? url = table'.target? url)
        ((redirects catalog root).outcome.run thread).1
        ((redirects catalog' root').outcome.run thread').1 ∧
      ∀ table, ((redirects catalog root).outcome.run thread).1 = .ok table →
        ∃ calls calls',
          ((redirects catalog root).outcome.run thread).2.journal = thread.journal ++ calls ∧
          ((redirects catalog' root').outcome.run thread').2.journal = thread'.journal ++ calls' ∧
          ∀ url, url ∈ calls.filterMap Call.read? ↔ url ∈ calls'.filterMap Call.read? := by
  have hgraph := h.sameGraph
  have hundisputed' := hgraph.undisputed hundisputed
  obtain ⟨calls, hjournal, hreads⟩ := exists_journal_redirects catalog root hthread
  obtain ⟨calls', hjournal', hreads'⟩ := exists_journal_redirects catalog' root' hthread'
  cases hplan : ((redirects catalog root).outcome.run thread).1 with
  | error error =>
      refine ⟨?_, fun table htable => nomatch htable⟩
      cases hplan' : ((redirects catalog' root').outcome.run thread').1 with
      | error error' => exact .neither
      | ok table' =>
          obtain ⟨table, htable⟩ := hgraph.symm.exists_table hundisputed' hthread' hthread hplan'
          rw [hplan] at htable
          cases htable
  | ok table =>
      obtain ⟨table', hplan'⟩ := hgraph.exists_table hundisputed hthread hthread' hplan
      have hplanned := planned_of_redirects hundisputed hthread hplan
      have hplanned' := planned_of_redirects hundisputed' hthread' hplan'
      rw [hplan']
      refine ⟨.both fun url => Option.ext fun target => ?_, fun _ _ =>
        ⟨calls, calls', hjournal, hjournal', fun place => ?_⟩⟩
      · rw [hplanned.entries, hplanned'.entries]
        simp only [hgraph.meets_iff, hgraph.url, hgraph.answer]
      · rw [hreads, hreads', hplanned.reads, hplanned'.reads]
        simp only [hgraph.meets_iff, hgraph.goal, hgraph.systemId]

/-! ### Sheets from behind -/

/-- Sheets, each read from behind. -/
def reversed (sheets : List (String × List Reference)) : List (String × List Reference) :=
  sheets.map fun item => (item.1, item.2.reverse)

theorem lookup_reversed (sheets : List (String × List Reference)) (url : String) :
    (reversed sheets).lookup url = (sheets.lookup url).map List.reverse := by
  induction sheets with
  | nil => rfl
  | cons item sheets ih =>
      rw [reversed, List.map_cons, List.lookup_cons, List.lookup_cons]
      cases url == item.1 with
      | true => rfl
      | false => exact ih

theorem rel_reversed {sheets : List (String × List Reference)}
    {sheet sheet' : Option (List Reference)} (h : sheet' = sheet.map List.reverse) :
    Option.Rel (Rearranged (E := .ofSheets sheets) (F := .ofSheets (reversed sheets))) sheet
      sheet' := by
  subst h
  cases sheet with
  | none => exact .none
  | some sheet =>
      refine .some ⟨rfl, rfl, rfl, .some ⟨sheet.reverse, (List.reverse_perm sheet).symm, ?_⟩⟩
      exact List.forall₂_same.2 fun node _ => ⟨rfl, rfl, rfl⟩

theorem documentAt_ofSheets (sheets : List (String × List Reference)) (place : String) :
    (Engine.ofSheets sheets).documentAt none place =
      (RawText.ofString place).text?.bind fun url => sheets.lookup url := by
  have hdocument : (Engine.ofSheets sheets).documentAt none place =
      ((RawText.ofString place).text?.bind fun url => sheets.lookup url).bind some := rfl
  rw [hdocument, Option.bind_fun_some]

theorem rearrangement_reversed (sheets : List (String × List Reference))
    (entries : Catalog.Entries) (root : Loaded) :
    Rearrangement (E := .ofSheets sheets) (F := .ofSheets (reversed sheets)) entries entries root
      root where
  ask lookup := rfl
  buildUri reference base := rfl
  systemId := rfl
  size := Iff.rfl
  root := rel_reversed (lookup_reversed sheets root.systemId)
  documents place := by
    refine rel_reversed ?_
    rw [documentAt_ofSheets, documentAt_ofSheets]
    cases (RawText.ofString place).text? with
    | none => rfl
    | some url => exact lookup_reversed sheets url

theorem mem_sheets_of_reachable {sheets : List (String × List Reference)}
    {entries : Catalog.Entries} {root : Loaded} {sheet : List Reference} {base : String}
    (h : Reachable (E := .ofSheets sheets) entries root sheet base) :
    sheet ∈ sheets.map Prod.snd := by
  have hmem : ∀ {url : String} {sheet : List Reference}, sheets.lookup url = some sheet →
      sheet ∈ sheets.map Prod.snd := by
    intro url sheet hlookup
    obtain ⟨_, _, hsplit, -⟩ := List.lookup_eq_some_iff.1 hlookup
    rw [hsplit]
    simp
  rcases h.parsed_or_found with hparse | ⟨place, hfound⟩
  · rw [Attempt.value_parse] at hparse
    split at hparse
    · split at hparse
      · cases hparse
      · exact hmem (Except.ok.inj hparse)
    · cases hparse
  · rw [documentAt_ofSheets] at hfound
    obtain ⟨url, -, hlookup⟩ := Option.bind_eq_some_iff.1 hfound
    exact hmem hlookup

/-- Sheets that import each other at places, one of which a catalog knows. -/
def mutualSheets : List (String × List Reference) :=
  [("root.xsd", [⟨"urn:p", "a.xsd"⟩, ⟨"urn:p", "b.xsd"⟩]),
    ("local/a.xsd", [⟨"urn:p", "c.xsd"⟩, ⟨"urn:p", "root.xsd"⟩]),
    ("b.xsd", [⟨"urn:p", "none.xsd"⟩, ⟨"urn:p", "a.xsd"⟩]), ("c.xsd", [])]

/-- A catalog that sends one of the mutual references into a directory. -/
def mutualEntries : Catalog.Entries :=
  ⟨[], [("urn:p/a.xsd", "local/a.xsd")], []⟩

theorem undisputed_mutual :
    Undisputed (E := .ofSheets mutualSheets) mutualEntries ⟨[], "root.xsd"⟩ := by
  have hsheets : ∀ sheet ∈ mutualSheets.map Prod.snd,
      (Reference.ofDocument (E := .ofSheets mutualSheets) sheet).value none = .ok sheet ∧
        ∀ reference ∈ sheet, reference.namespaceUri = "urn:p" ∧
          hasNul reference.location = false := by
    simp only [mutualSheets, List.map_cons, List.map_nil, List.forall_mem_cons]
    exact ⟨⟨rfl, by decide⟩, ⟨rfl, by decide⟩, ⟨rfl, by decide⟩, ⟨rfl, by decide⟩, by decide⟩
  have hmeets : ∀ reference base, Meets (E := .ofSheets mutualSheets) mutualEntries
      ⟨[], "root.xsd"⟩ reference base → reference.namespaceUri = "urn:p" ∧
        reference.url (.ofSheets mutualSheets) base = reference.location := by
    rintro reference base ⟨sheet, references, hreached, hreferences, hmem⟩
    obtain ⟨hsheet, hreference⟩ := hsheets sheet (mem_sheets_of_reachable hreached)
    obtain rfl : sheet = references := Except.ok.inj (hsheet.symm.trans hreferences)
    obtain ⟨hnamespace, hlocation⟩ := hreference reference hmem
    exact ⟨hnamespace, RawText.lossy_ofString hlocation⟩
  intro reference reference' base base' h h' hurl
  obtain ⟨hnamespace, hlocation⟩ := hmeets reference base h
  obtain ⟨hnamespace', hlocation'⟩ := hmeets reference' base' h'
  obtain ⟨namespaceUri, location⟩ := reference
  obtain ⟨namespaceUri', location'⟩ := reference'
  rw [hlocation, hlocation'] at hurl
  subst hnamespace hnamespace' hurl
  rfl

theorem bothOrNeither_of_rearrangement_mutual :
    ∃ table, ((redirects (E := .ofSheets (reversed mutualSheets)) mutualEntries
        ⟨[], "root.xsd"⟩).outcome.run Thread.fresh).1 = .ok table ∧
      ∀ url, RedirectTable.target? [("a.xsd", "local/a.xsd")] url = table.target? url := by
  have hplan : ((redirects (E := .ofSheets mutualSheets) mutualEntries
      ⟨[], "root.xsd"⟩).outcome.run Thread.fresh).1 = .ok [("a.xsd", "local/a.xsd")] := rfl
  have hfresh : ∀ {E : Engine}, (Thread.fresh : Thread E).resolution = none := rfl
  have halike := bothOrNeither_of_rearrangement
    (rearrangement_reversed mutualSheets mutualEntries ⟨[], "root.xsd"⟩) undisputed_mutual hfresh
    hfresh
  exact halike.1.exists_of_ok hplan

end Plan

end Schema

end Conformance
