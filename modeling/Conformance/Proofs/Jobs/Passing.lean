import Conformance.Proofs.Schema.Composition
import Conformance.Proofs.Schema.Passing
import Conformance.Proofs.Schema.Validation

/-!
# Texts that are passed on in a job

No job comes upon a text with a NUL that it would have to pass on, unless it was given a source with
such a name: no call fails for it, no lookup is left out and no answer for an entity is passed over.

* `Schematron.Validator.passes_validate` : validation by a transform;
* `Job.passes` : every job;
* `Job.never_for_nul` : both, said of a job at each moment, and of what planning can fail for.
-/

namespace Conformance

variable {E : Engine}

/-! ## Transforms -/

namespace Schematron

namespace Validator

variable {resolution : Option (Resolution E)}

/-- The answers of a catalog can be passed on. -/
theorem passes_resolution (validator : Validator) :
    (validator.resolution (E := E)).Passes resolution
      (fun inner => ∀ inForce ∈ inner, inForce.Passable) fun error => ¬ error.ForNul := by
  unfold Validator.resolution
  cases validator.catalog with
  | none => exact Attempt.passes_pure fun inForce hinForce => nomatch hinForce
  | some path =>
      refine (Attempt.passes_loadCatalog fun ⟨_, heq⟩ => nomatch heq).bind fun catalog _ => ?_
      refine Attempt.passes_pure fun inForce hinForce => ?_
      cases hinForce
      trivial

theorem passes_compile (hresolution : ∀ inForce ∈ resolution, inForce.Passable)
    {transform : Loaded} (hname : hasNul transform.systemId = false) :
    (compile transform).Passes resolution (fun _ => True) fun error => ¬ error.ForNul := by
  have hcompiling : (compiling (E := E) transform).Passes resolution (fun _ => True)
      fun error => ¬ error.ForNul := by
    refine (Attempt.passes_parse hresolution hname
      (ValidationError.not_forNul_toValidation (by simp))).bind fun document _ => ?_
    cases document with
    | none => exact Attempt.passes_pure trivial
    | some document => exact Attempt.passes_call hresolution _ none _
  refine (Attempt.Passes.capturing (fun _ => hcompiling) transform.systemId).bind
    fun (outcome, collector) houtcome => ?_
  refine (Attempt.passes_ofExcept houtcome).bind fun stylesheet _ => ?_
  cases stylesheet with
  | none => exact Attempt.passes_throw fun ⟨_, heq⟩ => nomatch heq
  | some stylesheet => exact Attempt.passes_pure trivial

theorem passes_transformed (hresolution : ∀ inForce ∈ resolution, inForce.Passable)
    (stylesheet : E.Stylesheet) {document : Loaded} (hname : hasNul document.systemId = false) :
    (transformed stylesheet document).Passes resolution (fun _ => True)
      fun error => ¬ error.ForNul := by
  have happlying : (applying stylesheet document).Passes resolution (fun _ => True)
      fun error => ¬ error.ForNul := by
    refine (Attempt.passes_parse hresolution hname
      (ValidationError.not_forNul_toValidation (by simp))).bind fun parsed _ => ?_
    cases parsed with
    | none => exact Attempt.passes_pure trivial
    | some parsed =>
        exact (Attempt.passes_call hresolution _ none _).bind fun _ _ => Attempt.passes_pure trivial
  refine (Attempt.Passes.capturing (fun _ => happlying) document.systemId).bind
    fun (outcome, collector) houtcome => ?_
  refine (Attempt.passes_ofExcept houtcome).bind fun report _ => ?_
  match report with
  | none =>
      refine Attempt.passes_throw (ValidationError.not_forNul_engine ?_)
      exact initials_append_ne (by decide +kernel) (by decide +kernel) _
  | some none => exact Attempt.passes_throw (ValidationError.not_forNul_toValidation (by simp))
  | some (some report) => exact Attempt.passes_pure trivial

theorem passes_evaluate (report : E.Document) (node : Option E.Node) (expression : String) :
    (Attempt.evaluate report node expression).Passes resolution (hasNul · = false)
      fun error => ¬ error.ForNul :=
  Attempt.passes_evaluate fun _ => ValidationError.not_forNul_toValidation (by simp)

theorem passes_ofAsserts (report : E.Document) (nodes : List E.Node) :
    (ofAsserts report nodes).Passes resolution (fun _ => True) fun error => ¬ error.ForNul := by
  induction nodes with
  | nil => exact Attempt.passes_pure trivial
  | cons node nodes ih =>
      refine (passes_evaluate report _ _).bind fun location _ => ?_
      refine (passes_evaluate report _ _).bind fun message _ => ?_
      exact ih.bind fun violations _ => Attempt.passes_pure trivial

theorem passes_violations (report : E.Document) :
    (violations report).Passes resolution (fun _ => True) fun error => ¬ error.ForNul := by
  refine (Attempt.passes_openXPath fun _ =>
    ValidationError.not_forNul_toValidation (by simp)).bind fun _ _ => ?_
  exact (Attempt.passes_select fun _ =>
    ValidationError.not_forNul_toValidation (by simp)).bind fun nodes _ =>
      passes_ofAsserts report nodes

theorem passes_validate (hresolution : ∀ inForce ∈ resolution, inForce.Passable)
    (validator : Validator) (files : Files) {document : Source}
    (htransform : hasNul validator.transform.systemId = false)
    (hdocument : hasNul document.systemId = false) :
    (validator.validate (E := E) files document).Passes resolution (fun _ => True)
      fun error => ¬ error.ForNul := by
  refine (Attempt.passes_ofExcept (validator.transform.ending_load files htransform)).bind
    fun transform htransform => ?_
  refine (passes_resolution validator).bind fun inner hinner => .within inner ?_
  have hboth : ∀ inForce ∈ inner.or resolution, inForce.Passable := by
    intro inForce hinForce
    rcases Option.or_eq_some_iff.1 hinForce with hinForce | ⟨-, hinForce⟩
    · exact hinner inForce hinForce
    · exact hresolution inForce hinForce
  refine (passes_compile hboth htransform).bind fun stylesheet _ => ?_
  refine (Attempt.passes_ofExcept (document.ending_load files hdocument)).bind
    fun loaded hloaded => ?_
  exact (passes_transformed hboth stylesheet hloaded).bind fun report _ => passes_violations report

end Validator

end Schematron

/-! ## Jobs -/

/-- The error that a job ended in, if it did. -/
def Reply.error? : Reply E → Option ValidationError
  | .validator (.error error) | .violations (.error error) => some error
  | .validator (.ok _) | .violations (.ok _) => none

namespace Job

/-- The sources that a job is given. -/
def sources : Job E → List Source
  | .compile _ schema _ => [schema]
  | .validate _ _ document => [document]
  | .transform _ validator document => [validator.transform, document]

/-- The lookups for the references that a job follows while it plans redirects. -/
def planned : Job E → List Catalog.Lookup
  | .compile files schema (some path) =>
    match schema.load files, E.loadCatalog path with
    | .ok root, some catalog =>
      (Schema.Plan.history catalog root).flatMap fun move =>
        (move.reference.request move.base).lookups
    | _, _ => []
  | _ => []

theorem hasNul_planned (job : Job E) : ∀ lookup ∈ job.planned, hasNul lookup.key = false := by
  intro lookup hlookup
  unfold planned at hlookup
  split at hlookup
  · split at hlookup
    · obtain ⟨move, hmove, hlookup⟩ := List.mem_flatMap.1 hlookup
      exact Schema.Plan.hasNul_of_history hmove lookup hlookup
    · cases hlookup
  · cases hlookup

variable {thread : Thread E}

/-- A job that is an attempt and a reply with its outcome. -/
theorem passes_of_attempt {α : Type} {attempt : Attempt E α} {P : α → Prop}
    {reply : Except ValidationError α → Reply E}
    (hreply : ∀ outcome error, (reply outcome).error? = some error → outcome = .error error)
    (h : attempt.Passes thread.resolution P fun error => ¬ error.ForNul) :
    (attempt.outcome.bind (.done ∘ reply)).EachLoad Thread.Unhindered thread ∧
      ∀ error, ((attempt.outcome.bind (.done ∘ reply)).run thread).1.error? = some error →
        ¬ error.ForNul := by
  obtain ⟨hloads, -, hending⟩ := h thread rfl
  refine ⟨Session.eachLoad_bind.2 ⟨hloads, trivial⟩, fun error herror => ?_⟩
  rw [Session.run_bind] at herror
  rw [hreply _ error herror] at hending
  exact hending

theorem passes (job : Job E) (hthread : thread.resolution = none)
    (hnames : ∀ source ∈ job.sources, hasNul source.systemId = false) :
    job.session.EachLoad Thread.Unhindered thread ∧
      ∀ error, (job.session.run thread).1.error? = some error → ¬ error.ForNul := by
  have hfree : ∀ inForce ∈ (none : Option (Resolution E)), inForce.Passable :=
    fun inForce hinForce => nomatch hinForce
  have hvalidator : ∀ outcome error, (Reply.validator (E := E) outcome).error? = some error →
      outcome = .error error := by
    rintro (_ | _) error ⟨⟩
    rfl
  have hviolations : ∀ outcome error, (Reply.violations (E := E) outcome).error? = some error →
      outcome = .error error := by
    rintro (_ | _) error ⟨⟩
    rfl
  cases job with
  | compile files schema catalog =>
      have hbuild := Schema.Validator.passes_build (E := E) files catalog
        (hnames schema List.mem_cons_self)
      exact passes_of_attempt hvalidator (hthread ▸ hbuild)
  | validate files validator document =>
      have hvalidate := Schema.Validator.passes_validate hfree validator files
        (hnames document List.mem_cons_self)
      exact passes_of_attempt hviolations (hthread ▸ hvalidate)
  | transform files validator document =>
      have hvalidate := Schematron.Validator.passes_validate hfree validator files
        (hnames validator.transform List.mem_cons_self)
        (hnames document (List.mem_cons_of_mem _ List.mem_cons_self))
      exact passes_of_attempt hviolations (hthread ▸ hvalidate)

/-- On a thread without a resolution, as jobs leave it, a job on sources whose names have no NUL ends
in no failure for a NUL. All lookups for the redirects that it plans can be put to the catalog, and
at each moment when it loads an entity, so can the lookups for that, and what is found can be passed
on. So the lookups in the journal of the planning are those of all moves of the walk. Redirects for a
root whose name has no NUL and that is not too large cannot be planned only if a document that the
walk comes to look at cannot be queried. -/
theorem never_for_nul {thread : Thread E} (hthread : thread.resolution = none) :
    (∀ job : Job E, (∀ source ∈ job.sources, hasNul source.systemId = false) →
      (∀ text, (job.session.run thread).1.error? ≠
        some (EngineError.nulInText text).toValidation) ∧
      (∀ lookup ∈ job.planned, hasNul lookup.key = false) ∧
      ∀ count now url publicId next,
        job.session.steps count thread = (.fetch url publicId next, now) →
          now.Unhindered url publicId) ∧
    ∀ (catalog : E.LoadedCatalog) (root : Loaded),
      (∃ calls, ((Schema.Plan.redirects catalog root).outcome.run thread).2.journal =
          thread.journal ++ calls ∧
        calls.filterMap Call.lookup? =
          (Schema.Plan.history catalog root).flatMap (Schema.Move.lookups catalog)) ∧
      ∀ error, hasNul root.systemId = false → root.octets.length ≤ Attempt.sizeLimit →
        ((Schema.Plan.redirects catalog root).outcome.run thread).1 = .error error →
          ∃ document place cause, Schema.Plan.Crawled catalog root document place ∧
            Schema.Unqueryable document cause ∧ error = cause.toValidation := by
  constructor
  · intro job hnames
    obtain ⟨hloads, herrors⟩ := job.passes hthread hnames
    exact ⟨fun text herror => herrors _ herror ⟨text, rfl⟩, job.hasNul_planned,
      fun _ _ _ _ _ hmoment => hloads.steps hmoment⟩
  · intro catalog root
    exact ⟨Schema.Plan.exists_journal_lookups catalog root hthread, fun error hname hsize herror =>
      Schema.Plan.exists_unqueryable_of_error hthread hname hsize herror⟩

/-- An engine with a catalog that leads from a root to a schema on which XPath cannot be used. -/
def locked : Engine :=
  { Schema.Plan.nested with
    loadCatalog := fun _ => some Schema.Plan.nestedEntries
    opensXPath := fun sheet => sheet.length < 2 }

theorem never_for_nul_locked :
    let job : Job locked := .compile Schema.Validator.noFiles (.memory [] "root.xsd") (some "c.xml")
    (job.session.run Thread.fresh).1.error? = some EngineError.outOfMemory.toValidation ∧
      job.planned = [⟨.systemIds, "urn:p/party.xsd"⟩] ∧
      (∀ lookup ∈ job.planned, hasNul lookup.key = false) ∧
      ((Schema.Plan.redirects (E := locked) Schema.Plan.nestedEntries
        ⟨[], "root.xsd"⟩).outcome.run Thread.fresh).2.journal.filterMap Call.lookup? =
          [⟨.systemIds, "urn:p/party.xsd"⟩] ∧
      ∃ document place cause,
        Schema.Plan.Crawled (E := locked) Schema.Plan.nestedEntries ⟨[], "root.xsd"⟩ document
          place ∧
        Schema.Unqueryable (E := locked) document cause ∧
        EngineError.outOfMemory.toValidation = cause.toValidation := by
  have hfresh : (Thread.fresh : Thread locked).resolution = none := rfl
  have hjob := (never_for_nul hfresh).1
    (.compile Schema.Validator.noFiles (.memory [] "root.xsd") (some "c.xml")) (by
      intro source hsource
      cases List.mem_singleton.1 hsource
      decide)
  obtain ⟨⟨calls, hjournal, hlookups⟩, hfails⟩ :=
    (never_for_nul hfresh).2 Schema.Plan.nestedEntries ⟨[], "root.xsd"⟩
  refine ⟨rfl, rfl, hjob.2.1, ?_, hfails _ (by decide) (by decide) rfl⟩
  rw [hjournal]
  exact hlookups

end Job

end Conformance
