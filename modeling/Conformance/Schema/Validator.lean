import Conformance.Schema.Plan
import Conformance.Schema.Verdict

/-!
# Validation against a schema

A schema is compiled once, with its references redirected by a catalog if there is one. The
compiled schema then validates any number of documents.

What a pass over a document found is its result, also if the engine gave up after a fatal error;
an engine that gives up without one has failed.
-/

namespace Conformance

namespace Schema

/-- A compiled schema and its system id. -/
structure Validator (E : Engine) where
  schema : E.Schema
  schemaId : String

namespace Validator

variable {E : Engine}

/-- The redirects for a schema that was read, if there is a catalog. -/
def resolution (catalog : Option String) (schema : Loaded) :
    Attempt E (Option (Resolution E)) :=
  match catalog with
  | none => pure none
  | some path => do
    let catalog ← Attempt.loadCatalog path
    let table ← Plan.redirects catalog schema
    return some (.redirects table)

/-- Compiles a schema, with its references redirected by the catalog at a path. -/
def build (files : Files) (schema : Source) (catalog : Option String) :
    Attempt E (Validator E) := do
  let loaded ← Attempt.ofExcept (schema.load files)
  let resolution ← resolution catalog loaded
  let (outcome, collector) ← Attempt.capturing loaded.systemId fun collector =>
    Attempt.within resolution do
      match ← Attempt.parse loaded.octets loaded.systemId with
      | none => pure none
      | some document => Attempt.compileSchema collector document
  match ← Attempt.ofExcept outcome with
  | some schema => return ⟨schema, loaded.systemId⟩
  | none => throw (.compilation loaded.systemId collector.summary)

/-- The result of a pass over a document: what was collected, unless the engine gave up and
nothing fatal was met. -/
def conclude (collector : Collector) : Verdict → Except ValidationError (List Violation)
  | .valid | .invalid _ => .ok collector.violations
  | .aborted code =>
    if collector.fatalSeen then .ok collector.violations
    else .error (EngineError.validationAborted code collector.systemId).toValidation

/-- Validates a document. -/
def validate (validator : Validator E) (files : Files) (document : Source) :
    Attempt E (List Violation) := do
  let loaded ← Attempt.ofExcept (document.load files)
  let (outcome, collector) ← Attempt.capturing loaded.systemId fun collector =>
    Attempt.stream collector validator.schema loaded
  let code ← Attempt.ofExcept outcome
  Attempt.ofExcept (conclude collector (.ofCode code))

end Validator

end Schema

end Conformance
