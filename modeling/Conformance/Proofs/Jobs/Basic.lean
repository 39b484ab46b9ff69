import Conformance.Proofs.Engine.Brackets
import Conformance.Proofs.Schema.History
import Conformance.Schema.Validator
import Conformance.Schematron.Validator

/-!
# Jobs

The three things that a thread can be asked to do: to compile a schema, to validate a document
against a compiled schema, and to validate one by a transform. Each is made of brackets
(`Job.bracketed`), so that what holds of brackets holds of all of them.
-/

namespace Conformance

variable {E : Engine}

/-! ## Schemas -/

namespace Schema

theorem Plan.bracketed_redirects (catalog : E.LoadedCatalog) (root : Loaded) :
    (redirects catalog root).Bracketed := by
  have hbody : (Attempt.parse root.octets root.systemId >>= walkFrom catalog root).Passive :=
    (Attempt.passive_parse _ _).bind (passive_walkFrom catalog root)
  have hcapturing := Attempt.bracketed_capturing root.systemId hbody.enclosed
  exact hcapturing.bind fun captured => Attempt.bracketed_ofExcept captured.1

namespace Validator

theorem bracketed_resolution (catalog : Option String) (schema : Loaded) :
    (resolution (E := E) catalog schema).Bracketed := by
  cases catalog with
  | none => exact (Attempt.passive_pure none).bracketed
  | some path =>
      refine (Attempt.passive_loadCatalog path).bracketed.bind fun catalog => ?_
      refine (Plan.bracketed_redirects catalog schema).bind fun table => ?_
      exact (Attempt.passive_pure _).bracketed

/-- Parses a schema that was read and compiles it, in the context of a collector. -/
def compileIn (collector : Nat) (schema : Loaded) : Attempt E (Option E.Schema) := do
  match ← Attempt.parse schema.octets schema.systemId with
  | none => pure none
  | some document => Attempt.compileSchema collector document

theorem enclosed_compileIn (schema : Loaded) :
    Attempt.Enclosed fun collector => compileIn (E := E) collector schema := by
  refine (Attempt.passive_parse _ _).enclosed.bind fun document => ?_
  cases document with
  | none => exact (Attempt.passive_pure none).enclosed
  | some document => exact Attempt.enclosed_compileSchema document

theorem bracketed_build (files : Files) (schema : Source) (catalog : Option String) :
    (build (E := E) files schema catalog).Bracketed := by
  refine (Attempt.bracketed_ofExcept _).bind fun loaded => ?_
  refine (bracketed_resolution catalog loaded).bind fun resolution => ?_
  have hcapturing := Attempt.bracketed_capturing loaded.systemId
    ((enclosed_compileIn (E := E) loaded).within resolution)
  refine hcapturing.bind fun (outcome, collector) => ?_
  refine (Attempt.bracketed_ofExcept outcome).bind fun schema => ?_
  cases schema with
  | none => exact (Attempt.passive_throw _).bracketed
  | some schema => exact (Attempt.passive_pure _).bracketed

theorem bracketed_validate (validator : Validator E) (files : Files) (document : Source) :
    (validator.validate files document).Bracketed := by
  refine (Attempt.bracketed_ofExcept _).bind fun loaded => ?_
  have hcapturing := Attempt.bracketed_capturing loaded.systemId
    (Attempt.enclosed_stream validator.schema loaded)
  refine hcapturing.bind fun (outcome, collector) => ?_
  exact (Attempt.bracketed_ofExcept outcome).bind fun code => Attempt.bracketed_ofExcept _

end Validator

end Schema

/-! ## Transforms -/

namespace Schematron

namespace Validator

theorem passive_ofAsserts (report : E.Document) (nodes : List E.Node) :
    (ofAsserts report nodes).Passive := by
  induction nodes with
  | nil => exact Attempt.passive_pure []
  | cons node nodes ih =>
      refine (Attempt.passive_evaluate _ _ _).bind fun location => ?_
      refine (Attempt.passive_evaluate _ _ _).bind fun message => ?_
      exact ih.bind fun violations => Attempt.passive_pure _

theorem passive_violations (report : E.Document) : (violations report).Passive := by
  refine (Attempt.passive_openXPath report).bind fun _ => ?_
  exact (Attempt.passive_select _ _).bind fun nodes => passive_ofAsserts report nodes

/-- Parses a transform that was read and compiles it. -/
def compiling (transform : Loaded) : Attempt E (Option E.Stylesheet) := do
  match ← Attempt.parse transform.octets transform.systemId with
  | none => pure none
  | some document => Attempt.compileStylesheet document

/-- Parses a document that was read and applies a transform to it. -/
def applying (stylesheet : E.Stylesheet) (document : Loaded) :
    Attempt E (Option (Option E.Document)) := do
  match ← Attempt.parse document.octets document.systemId with
  | none => pure none
  | some parsed =>
    let report ← Attempt.apply stylesheet parsed
    return some report

theorem passive_compiling (transform : Loaded) : (compiling (E := E) transform).Passive := by
  refine (Attempt.passive_parse _ _).bind fun document => ?_
  cases document with
  | none => exact Attempt.passive_pure none
  | some document => exact Attempt.passive_compileStylesheet document

theorem passive_applying (stylesheet : E.Stylesheet) (document : Loaded) :
    (applying stylesheet document).Passive := by
  refine (Attempt.passive_parse _ _).bind fun parsed => ?_
  cases parsed with
  | none => exact Attempt.passive_pure none
  | some parsed =>
      exact (Attempt.passive_apply stylesheet parsed).bind fun _ => Attempt.passive_pure _

theorem bracketed_resolution (validator : Validator) :
    (validator.resolution (E := E)).Bracketed := by
  unfold resolution
  cases validator.catalog with
  | none => exact (Attempt.passive_pure none).bracketed
  | some path =>
      refine (Attempt.passive_loadCatalog path).bracketed.bind fun catalog => ?_
      exact (Attempt.passive_pure _).bracketed

theorem bracketed_compile (transform : Loaded) : (compile (E := E) transform).Bracketed := by
  have hcapturing := Attempt.bracketed_capturing transform.systemId
    (passive_compiling (E := E) transform).enclosed
  refine hcapturing.bind fun (outcome, collector) => ?_
  refine (Attempt.bracketed_ofExcept outcome).bind fun stylesheet => ?_
  cases stylesheet with
  | none => exact (Attempt.passive_throw _).bracketed
  | some stylesheet => exact (Attempt.passive_pure _).bracketed

theorem bracketed_transformed (stylesheet : E.Stylesheet) (document : Loaded) :
    (transformed stylesheet document).Bracketed := by
  have hcapturing := Attempt.bracketed_capturing document.systemId
    (passive_applying stylesheet document).enclosed
  refine hcapturing.bind fun (outcome, collector) => ?_
  refine (Attempt.bracketed_ofExcept outcome).bind fun report => ?_
  match report with
  | none => exact (Attempt.passive_throw _).bracketed
  | some none => exact (Attempt.passive_throw _).bracketed
  | some (some report) => exact (Attempt.passive_pure _).bracketed

theorem bracketed_validate (validator : Validator) (files : Files) (document : Source) :
    (validator.validate (E := E) files document).Bracketed := by
  refine (Attempt.bracketed_ofExcept _).bind fun transform => ?_
  refine (bracketed_resolution validator).bind fun resolution => .within resolution ?_
  refine (bracketed_compile transform).bind fun stylesheet => ?_
  refine (Attempt.bracketed_ofExcept _).bind fun loaded => ?_
  refine (bracketed_transformed stylesheet loaded).bind fun report => ?_
  exact (passive_violations report).bracketed

end Validator

end Schematron

/-! ## Jobs -/

/-- One call for a validator, with the files as they are then. -/
inductive Job (E : Engine) where
  | compile (files : Files) (schema : Source) (catalog : Option String)
  | validate (files : Files) (validator : Schema.Validator E) (document : Source)
  | transform (files : Files) (validator : Schematron.Validator) (document : Source)

/-- What a job comes to. -/
inductive Reply (E : Engine) where
  | validator (outcome : Except ValidationError (Schema.Validator E))
  | violations (outcome : Except ValidationError (List Violation))

namespace Job

/-- What a job does on its thread. -/
def session : Job E → Session E (Reply E)
  | .compile files schema catalog =>
    (Schema.Validator.build files schema catalog).outcome.bind (.done ∘ .validator)
  | .validate files validator document =>
    (validator.validate files document).outcome.bind (.done ∘ .violations)
  | .transform files validator document =>
    (validator.validate files document).outcome.bind (.done ∘ .violations)

/-- Jobs, one after another. -/
def sessions : List (Job E) → Session E (List (Reply E))
  | [] => .done []
  | job :: jobs =>
    job.session.bind fun reply => (sessions jobs).bind fun replies => .done (reply :: replies)

theorem bracketed (job : Job E) : job.session.Bracketed := by
  cases job with
  | compile files schema catalog =>
      have hbuild := Schema.Validator.bracketed_build (E := E) files schema catalog
      exact .bind hbuild fun _ => .passive (.done _)
  | validate files validator document =>
      exact .bind (validator.bracketed_validate files document) fun _ => .passive (.done _)
  | transform files validator document =>
      have hvalidate := validator.bracketed_validate (E := E) files document
      exact .bind hvalidate fun _ => .passive (.done _)

theorem bracketed_sessions (jobs : List (Job E)) : (sessions jobs).Bracketed := by
  induction jobs with
  | nil => exact .passive (.done [])
  | cons job jobs ih =>
      exact .bind job.bracketed fun _ => .bind ih fun _ => .passive (.done _)

end Job

end Conformance
