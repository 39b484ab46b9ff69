import Conformance.Proofs.Engine.Inquiring
import Conformance.Schema.Reference

/-!
# The references that a document gives

What is asked of an element of a document depends on what it is: nothing but the location if there
is none, and the namespace only of an import. The references are what the elements with a location
come to, unless something that is asked cannot be told.

* `Reference.elements`, `Reference.refer` : the elements of a document that can pull another in, and
  the reference of one of them;
* `Reference.inquiries` : all that is asked of a document;
* `Reference.ofDocument_extracts` : the references of a document, or else the first failure, and
  which failures there are;
* `Engine.ofSheets` : an engine whose documents are written as lists of references.
-/

namespace Conformance

variable {E : Engine}

/-! ## Sheets -/

/-- An engine whose documents, sheets, are nothing but imports at absolute URLs. -/
def Engine.ofSheets (sheets : List (String × List Schema.Reference)) : Engine where
  LoadedCatalog := Catalog.Entries
  Entity := List Schema.Reference
  Document := List Schema.Reference
  Node := Schema.Reference
  Schema := Unit
  Stylesheet := Unit
  loadCatalog _ := none
  answer entries lookup := (entries.answer lookup).map .ofString
  buildUri reference _ := some (.ofString reference)
  openEntity url _ := (url.bind RawText.text?).bind fun url => sheets.lookup url
  parse _ url := .done (sheets.lookup url)
  parseEntity sheet _ := .done (some sheet)
  opensXPath _ := true
  registers _ _ _ := true
  select sheet _ := some sheet
  evaluate _ node expression := some <| node.map fun reference => .ofString <|
    if expression = Query.schemaLocation then reference.location
    else if expression = Query.localName then "import"
    else reference.namespaceUri
  compileSchema _ := some (.done (some ()))
  canValidate _ := true
  canBuffer _ := true
  stream _ _ _ := .done 0
  compileStylesheet _ := .done none
  apply _ _ := .done none
  library := sheets.map Prod.fst
  mem_library url hurl h := by
    have hopen := Option.isSome_of_isSome_bind h
    rw [Option.bind_some, RawText.text?_ofString hurl, Option.bind_some] at hopen
    obtain ⟨sheet, hsheet⟩ := Option.isSome_iff_exists.1 hopen
    obtain ⟨_, _, hsplit, -⟩ := List.lookup_eq_some_iff.1 hsheet
    rw [hsplit]
    simp

namespace Schema

namespace Reference

/-- The elements of a document that can pull another schema document in, in document order. -/
def elements (document : E.Document) : List E.Node :=
  (E.select document Query.composition).getD []

/-- The location that an element has, which may be empty. -/
def locationOf (document : E.Document) (node : E.Node) : String :=
  E.textOf document (some node) Query.schemaLocation

/-- Whether an element is an import. -/
def Imports (document : E.Document) (node : E.Node) : Prop :=
  E.textOf document (some node) Query.localName = "import"

instance (document : E.Document) (node : E.Node) : Decidable (Imports document node) :=
  inferInstanceAs (Decidable (_ = _))

/-- The reference of an element with a location. -/
def refer (document : E.Document) (node : E.Node) : Reference where
  namespaceUri :=
    if Imports document node then E.textOf document (some node) Query.importedNamespace
    else E.textOf document none Query.targetNamespace
  location := locationOf document node

/-- What is asked of an element, as long as nothing fails. -/
def inquiriesOf (document : E.Document) (node : E.Node) : List (Inquiry E) :=
  .evaluate (some node) Query.schemaLocation ::
    if locationOf document node = "" then []
    else .evaluate (some node) Query.localName ::
      if Imports document node then [.evaluate (some node) Query.importedNamespace] else []

/-- What is asked of a document, as long as nothing fails. -/
def inquiries (document : E.Document) : List (Inquiry E) :=
  [.openXPath, .register Query.schemaPrefix Catalog.schemaNamespace,
    .evaluate none Query.targetNamespace, .select Query.composition] ++
      (elements document).flatMap (inquiriesOf document)

/-- One element: it has a reference if it has a location. -/
theorem inquires_ofNode? (document : E.Document) (node : E.Node) :
    Attempt.Inquires document
      (ofNode? document (E.textOf document none Query.targetNamespace) node)
      (inquiriesOf document node)
      (if locationOf document node = "" then none else some (refer document node)) := by
  rw [inquiriesOf, ← List.singleton_append]
  refine (Attempt.inquires_evaluate (some node) Query.schemaLocation).bind ?_
  rw [← locationOf]
  by_cases hlocation : locationOf document node = ""
  · rw [if_pos hlocation, if_pos hlocation, if_pos (by simpa using hlocation)]
    exact Attempt.inquires_pure none
  · rw [if_neg hlocation, if_neg hlocation, if_neg (by simpa using hlocation),
      ← List.singleton_append]
    refine (Attempt.inquires_evaluate (some node) Query.localName).bind ?_
    by_cases himport : Imports document node
    · rw [if_pos himport, if_pos (beq_iff_eq.2 himport), refer, if_pos himport]
      exact (Attempt.inquires_evaluate (some node) Query.importedNamespace).bind
        (Attempt.inquires_pure _)
    · rw [if_neg himport, if_neg (mt beq_iff_eq.1 himport), refer, if_neg himport]
      exact Attempt.inquires_pure _

/-- All elements, one after another. -/
theorem inquires_ofNodes (document : E.Document) (nodes : List E.Node) :
    Attempt.Inquires document
      (ofNodes document (E.textOf document none Query.targetNamespace) nodes)
      (nodes.flatMap (inquiriesOf document))
      ((nodes.filter (locationOf document · ≠ "")).map (refer document)) := by
  induction nodes with
  | nil => exact Attempt.inquires_pure []
  | cons node nodes ih =>
      rw [List.flatMap_cons, List.filter_cons]
      refine (inquires_ofNode? document node).bind ?_
      rw [← List.append_nil (nodes.flatMap _)]
      refine ih.bind ?_
      by_cases hlocation : locationOf document node = ""
      · rw [if_pos hlocation, if_neg (by simpa using hlocation)]
        exact Attempt.inquires_pure _
      · rw [if_neg hlocation, if_pos (by simpa using hlocation)]
        exact Attempt.inquires_pure _

theorem inquires_ofDocument (document : E.Document) :
    Attempt.Inquires document (ofDocument document) (inquiries document)
      (((elements document).filter (locationOf document · ≠ "")).map (refer document)) :=
  (Attempt.inquires_openXPath).bind <| (Attempt.inquires_register _ _).bind <|
    (Attempt.inquires_evaluate none _).bind <| (Attempt.inquires_select _).bind <|
      inquires_ofNodes document _

/-- What can fail of an element: its location, its kind if it has a location, and its namespace if it
is an import with a location. -/
theorem exists_fails_inquiriesOf_iff (document : E.Document) (node : E.Node) :
    (∃ inquiry ∈ inquiriesOf document node, inquiry.fails document = true) ↔
      E.evaluate document (some node) Query.schemaLocation = none ∨
        locationOf document node ≠ "" ∧
          (E.evaluate document (some node) Query.localName = none ∨
            Imports document node ∧
              E.evaluate document (some node) Query.importedNamespace = none) := by
  unfold inquiriesOf
  by_cases hlocation : locationOf document node = ""
  · simp [hlocation, Inquiry.fails]
  · by_cases himport : Imports document node
    · simp [hlocation, himport, Inquiry.fails]
    · simp [hlocation, himport, Inquiry.fails]

/-- What can fail of a document: what is asked of every one, and what is asked of an element. -/
theorem exists_fails_inquiries_iff (document : E.Document) :
    (∃ inquiry ∈ inquiries document, inquiry.fails document = true) ↔
      E.opensXPath document = false ∨
        E.registers document Query.schemaPrefix Catalog.schemaNamespace = false ∨
        E.evaluate document none Query.targetNamespace = none ∨
        E.select document Query.composition = none ∨
        ∃ node ∈ elements document,
          ∃ inquiry ∈ inquiriesOf document node, inquiry.fails document = true := by
  have hnodes : (∃ inquiry ∈ (elements document).flatMap (inquiriesOf document),
        inquiry.fails document = true) ↔
      ∃ node ∈ elements document,
        ∃ inquiry ∈ inquiriesOf document node, inquiry.fails document = true := by
    constructor
    · rintro ⟨inquiry, hmem, hfails⟩
      obtain ⟨node, hnode, hmem⟩ := List.mem_flatMap.1 hmem
      exact ⟨node, hnode, inquiry, hmem, hfails⟩
    · rintro ⟨node, hnode, inquiry, hmem, hfails⟩
      exact ⟨inquiry, List.mem_flatMap.2 ⟨node, hnode, hmem⟩, hfails⟩
  rw [← hnodes]
  simp only [inquiries, List.mem_append, or_and_right, exists_or, List.mem_cons, List.not_mem_nil,
    or_false, exists_eq_left, or_assoc, Inquiry.fails, Bool.not_eq_true', Option.isNone_iff_eq_none]

/-- The references of a document. If nothing fails there is one for each element with a location, in
document order, with the location as it is written and with the namespace as it is written for an
import, the target namespace of the document for any other. Else the first failure is the error, and
nothing is asked after it; and there is one in no case but those listed. -/
theorem ofDocument_extracts (document : E.Document) (thread : Thread E) :
    (∀ node expression raw written, E.evaluate document node expression = some raw →
        RawText.Holds raw written → E.textOf document node expression = written) ∧
      (ofDocument document).outcome.run thread =
        (Inquiry.outcome document (inquiries document)
            (((elements document).filter (locationOf document · ≠ "")).map (refer document)),
          thread.note ((Inquiry.made document (inquiries document)).map Inquiry.call)) ∧
      ((∃ error, ((ofDocument document).outcome.run thread).1 = .error error) ↔
        E.opensXPath document = false ∨
          E.registers document Query.schemaPrefix Catalog.schemaNamespace = false ∨
          E.evaluate document none Query.targetNamespace = none ∨
          E.select document Query.composition = none ∨
          ∃ node ∈ elements document,
            E.evaluate document (some node) Query.schemaLocation = none ∨
              locationOf document node ≠ "" ∧
                (E.evaluate document (some node) Query.localName = none ∨
                  Imports document node ∧
                    E.evaluate document (some node) Query.importedNamespace = none)) := by
  have hrun := (inquires_ofDocument document).run thread
  refine ⟨fun _ _ _ _ => Engine.textOf_of_holds, hrun, ?_⟩
  rw [hrun, Inquiry.exists_outcome_eq_error_iff, exists_fails_inquiries_iff]
  simp only [exists_fails_inquiriesOf_iff]

/-- An engine that tells the kind of no element. -/
def kindless : Engine :=
  { Engine.ofSheets [] with
    evaluate := fun _ node expression =>
      if expression = Query.localName then none
      else some (node.map fun reference => .ofString reference.location) }

/-- The kind of an element matters only if there is a location. -/
example :
    ((ofDocument (E := kindless) [⟨"", ""⟩]).outcome.run Thread.fresh).1 = .ok [] ∧
      ((ofDocument (E := kindless) [⟨"", ""⟩, ⟨"", "a.xsd"⟩]).outcome.run Thread.fresh).1 =
        .error (EngineError.query Query.localName).toValidation :=
  ⟨rfl, rfl⟩

end Reference

end Schema

end Conformance
