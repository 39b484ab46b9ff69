import Conformance.Engine.Query
import Conformance.Engine.Session

/-!
# Validation by a Schematron transform

Schematron rules come as a transform whose output lists the assertions that failed. Nothing is
kept from one document to the next: each validation reads and compiles the transform again,
applies it to the document and takes one violation from each failed assertion. Entities that the
transform asks for are looked up in the catalog, if there is one.
-/

namespace Conformance

namespace Schematron

/-- A transform and, perhaps, the path of a catalog. -/
structure Validator where
  transform : Source
  catalog : Option String
deriving DecidableEq, Repr

namespace Validator

variable {E : Engine}

/-- The resolution of a validation: the catalog, if there is one. -/
def resolution (validator : Validator) : Attempt E (Option (Resolution E)) :=
  match validator.catalog with
  | none => pure none
  | some path => do
    let catalog ← Attempt.loadCatalog path
    return some (.catalog catalog)

/-- Compiles a transform that was read. -/
def compile (transform : Loaded) : Attempt E E.Stylesheet := do
  let (outcome, collector) ← Attempt.capturing transform.systemId fun _ => do
    match ← Attempt.parse transform.octets transform.systemId with
    | none => pure none
    | some document => Attempt.compileStylesheet document
  match ← Attempt.ofExcept outcome with
  | some stylesheet => return stylesheet
  | none => throw (.compilation transform.systemId collector.summary)

/-- Applies a transform to a document that was read. -/
def transformed (stylesheet : E.Stylesheet) (document : Loaded) : Attempt E E.Document := do
  let (outcome, collector) ← Attempt.capturing document.systemId fun _ => do
    match ← Attempt.parse document.octets document.systemId with
    | none => pure none
    | some parsed =>
      let report ← Attempt.apply stylesheet parsed
      return some report
  match ← Attempt.ofExcept outcome with
  | none => throw (.engine ("Document could not be parsed: " ++ collector.summary))
  | some none => Attempt.fail (.transform document.systemId)
  | some (some report) => return report

/-- The violations of failed assertions, in their order. -/
def ofAsserts (report : E.Document) : List E.Node → Attempt E (List Violation)
  | [] => pure []
  | node :: nodes => do
    let location ← Attempt.evaluate report (some node) Query.assertLocation
    let message ← Attempt.evaluate report (some node) Query.assertText
    let violations ← ofAsserts report nodes
    return ⟨location, message⟩ :: violations

/-- The violations of a report. -/
def violations (report : E.Document) : Attempt E (List Violation) := do
  Attempt.openXPath report
  let nodes ← Attempt.select report Query.failedAsserts
  ofAsserts report nodes

/-- Validates a document. -/
def validate (validator : Validator) (files : Files) (document : Source) :
    Attempt E (List Violation) := do
  let transform ← Attempt.ofExcept (validator.transform.load files)
  let resolution ← validator.resolution
  Attempt.within resolution do
    let stylesheet ← compile transform
    let loaded ← Attempt.ofExcept (document.load files)
    let report ← transformed stylesheet loaded
    violations report

end Validator

end Schematron

end Conformance
