import Conformance.Proofs.Engine.Calls
import Conformance.Proofs.Engine.Internal
import Conformance.Proofs.Jobs.Basic
import Conformance.Proofs.Schema.Crawling
import Conformance.Proofs.Schema.Validation

/-!
# The stages of compiling a schema

A schema is read, its redirects are planned if there is a catalog, and then it is parsed and
compiled. It is parsed for planning as well, but what is heard then is heard by nobody who is asked
later.

* `Plan.Plans` : the planning, which only the engine can fail;
* `Resolves`, `Compiling` : the stages, with one constructor for each end;
* `Builds` : the whole;
* `run_build_iff` : the compiling of a schema ends like this and in no other way.
-/

namespace Conformance

namespace Schema

variable {E : Engine} {resolution : Option (Resolution E)} {calls : List Call}

/-! ## Failures of a walk -/

namespace Reference

theorem internal_ofDocument (document : E.Document) : (ofDocument document).Internal := by
  intro thread error hrun
  obtain ⟨-, -, hending⟩ := passes_ofDocument document thread rfl
  rw [hrun] at hending
  obtain ⟨cause, -, heq⟩ := hending
  exact ⟨cause, heq⟩

end Reference

namespace Plan

theorem internal_visit (plan : Plan E) (place : String) : (plan.visit place).Internal := by
  unfold visit
  split
  · exact Attempt.internal_pure plan
  · exact (Attempt.internal_read place).bind fun _ => Attempt.internal_pure _

theorem internal_follow (catalog : E.LoadedCatalog) (base : String) (plan : Plan E)
    (reference : Reference) : (follow catalog base plan reference).Internal := by
  refine (Attempt.internal_buildUri _ _).bind fun built => ?_
  refine (Attempt.internal_lift _).bind fun answer => ?_
  split
  · exact internal_visit _ _
  · exact Attempt.internal_pure _

theorem internal_followAll (catalog : E.LoadedCatalog) (base : String) (plan : Plan E)
    (references : List Reference) : (followAll catalog base plan references).Internal := by
  induction references generalizing plan with
  | nil => exact Attempt.internal_pure plan
  | cons reference references ih =>
      exact (internal_follow catalog base plan reference).bind fun between => ih between

theorem internal_walk (catalog : E.LoadedCatalog) (count : Nat) (plan : Plan E) :
    (walk catalog count plan).Internal := by
  induction count generalizing plan with
  | zero => exact Attempt.internal_pure plan
  | succ count ih =>
      unfold walk
      split
      · exact Attempt.internal_pure plan
      · refine (Reference.internal_ofDocument _).bind fun references => ?_
        exact (internal_followAll _ _ _ references).bind fun between => ih between

/-! ## Planning -/

/-- The walk from a root to its end. -/
def walkThrough (catalog : E.LoadedCatalog) (root : Loaded) (document : E.Document) :
    Attempt E (Plan E) :=
  walk catalog (E.library.length + 1) (start document root.systemId)

theorem passive_walkThrough (catalog : E.LoadedCatalog) (root : Loaded) (document : E.Document) :
    (walkThrough catalog root document).Passive :=
  passive_walk catalog _ _

/-- How the planning of redirects ends. A root that cannot be parsed has none. -/
inductive Plans (resolution : Option (Resolution E)) (catalog : E.LoadedCatalog) (root : Loaded) :
    List Call → Except ValidationError RedirectTable → Prop
  | refused {calls : List Call} {notices : List Notice} {error : ValidationError}
      (h : Attempt.Parses resolution root calls notices (.error error)) :
      Plans resolution catalog root calls (.error error)
  | unparsed {calls : List Call} {notices : List Notice}
      (h : Attempt.Parses resolution root calls notices (.ok none)) :
      Plans resolution catalog root calls (.ok [])
  | failed {calls : List Call} {notices : List Notice} {document : E.Document} {cause : EngineError}
      (h : Attempt.Parses resolution root calls notices (.ok (some document)))
      (hwalk : (walkThrough catalog root document).value resolution = .error cause.toValidation) :
      Plans resolution catalog root (calls ++ (walkThrough catalog root document).calls resolution)
        (.error cause.toValidation)
  | walked {calls : List Call} {notices : List Notice} {document : E.Document} {after : Plan E}
      (h : Attempt.Parses resolution root calls notices (.ok (some document)))
      (hwalk : (walkThrough catalog root document).value resolution = .ok after) :
      Plans resolution catalog root (calls ++ (walkThrough catalog root document).calls resolution)
        (.ok after.table)

theorem Plans.does {catalog : E.LoadedCatalog} {root : Loaded}
    {outcome : Except ValidationError RedirectTable}
    (h : Plans resolution catalog root calls outcome) :
    Attempt.Does resolution (redirects catalog root) calls outcome := by
  have hredirects : ∀ {notices : List Notice}, Attempt.Hears resolution
      (fun _ => Attempt.parse root.octets root.systemId >>= walkFrom catalog root) calls notices
        outcome → Attempt.Does resolution (redirects catalog root) calls outcome :=
    fun hbody => (hbody.capturing root.systemId).conclude rfl
  cases h with
  | refused h => exact hredirects (h.hears.bind_error _)
  | unparsed h => exact hredirects (h.hears.conclude rfl)
  | @failed _ _ document _ h hwalk =>
      obtain ⟨_, hhears⟩ := (passive_walkThrough catalog root document).hears resolution
      rw [hwalk] at hhears
      exact hredirects (h.hears.bind (hhears.bind_error _))
  | @walked _ _ document _ h hwalk =>
      obtain ⟨_, hhears⟩ := (passive_walkThrough catalog root document).hears resolution
      rw [hwalk] at hhears
      exact hredirects (h.hears.bind (hhears.conclude rfl))

theorem exists_plans (resolution : Option (Resolution E)) (catalog : E.LoadedCatalog)
    (root : Loaded) : ∃ calls outcome, Plans resolution catalog root calls outcome := by
  obtain ⟨calls, notices, outcome, h⟩ := Attempt.exists_parses resolution root
  match outcome with
  | .error _ => exact ⟨_, _, .refused h⟩
  | .ok none => exact ⟨_, _, .unparsed h⟩
  | .ok (some document) =>
      cases hwalk : (walkThrough catalog root document).value resolution with
      | error error =>
          obtain ⟨cause, rfl⟩ := internal_walk _ _ _ _ error hwalk
          exact ⟨_, _, .failed h hwalk⟩
      | ok after => exact ⟨_, _, .walked h hwalk⟩

end Plan

namespace Validator

/-! ## Stages -/

/-- How the redirects for a schema, if there is a catalog, come about. -/
inductive Resolves (resolution : Option (Resolution E)) (schema : Loaded) :
    Option String → List Call → Except ValidationError (Option (Resolution E)) → Prop
  | without : Resolves resolution schema none [] (.ok none)
  | uncatalogued {path : String} {calls : List Call} {error : ValidationError}
      (h : Attempt.LoadsCatalog (E := E) path calls (.error error)) :
      Resolves resolution schema (some path) calls (.error error)
  | unplanned {path : String} {calls calls' : List Call} {catalog : E.LoadedCatalog}
      {error : ValidationError} (hcatalog : Attempt.LoadsCatalog path calls (.ok catalog))
      (h : Plan.Plans resolution catalog schema calls' (.error error)) :
      Resolves resolution schema (some path) (calls ++ calls') (.error error)
  | planned {path : String} {calls calls' : List Call} {catalog : E.LoadedCatalog}
      {table : RedirectTable} (hcatalog : Attempt.LoadsCatalog path calls (.ok catalog))
      (h : Plan.Plans resolution catalog schema calls' (.ok table)) :
      Resolves resolution schema (some path) (calls ++ calls') (.ok (some (.redirects table)))

/-- How the parsing and compiling of a schema end in their bracket, and what is heard of them. -/
inductive Compiling (resolution : Option (Resolution E)) (schema : Loaded) :
    List Call → List Notice → Except ValidationError (Option E.Schema) → Prop
  | refused {calls : List Call} {notices : List Notice} {error : ValidationError}
      (h : Attempt.Parses resolution schema calls notices (.error error)) :
      Compiling resolution schema calls notices (.error error)
  | unparsed {calls : List Call} {notices : List Notice}
      (h : Attempt.Parses resolution schema calls notices (.ok none)) :
      Compiling resolution schema calls notices (.ok none)
  | unbegun {calls : List Call} {notices : List Notice} {document : E.Document}
      (h : Attempt.Parses resolution schema calls notices (.ok (some document)))
      (hcompile : E.compileSchema document = none) :
      Compiling resolution schema (calls ++ [.compileSchema]) notices
        (.error EngineError.outOfMemory.toValidation)
  | compiled {calls : List Call} {notices : List Notice} {document : E.Document}
      {run : Run E.Entity (Option E.Schema)} {compiled : Option E.Schema}
      (h : Attempt.Parses resolution schema calls notices (.ok (some document)))
      (hcompile : E.compileSchema document = some run)
      (hrun : run.value (E.find resolution) = compiled) :
      Compiling resolution schema (calls ++ .compileSchema :: run.calls resolution)
        (notices ++ run.notices (E.find resolution)) (.ok compiled)

/-- How the compiling of a schema ends on a thread under a resolution, which redirects replace. The
details of an error are of what is heard while it is compiled and of nothing else. -/
inductive Builds (resolution : Option (Resolution E)) (files : Files) (schema : Source)
    (catalog : Option String) : List Call → Except ValidationError (Validator E) → Prop
  | unread {error : ValidationError} (h : schema.load files = .error error) :
      Builds resolution files schema catalog [] (.error error)
  | unresolved {loaded : Loaded} {calls : List Call} {error : ValidationError}
      (hschema : schema.load files = .ok loaded)
      (h : Resolves resolution loaded catalog calls (.error error)) :
      Builds resolution files schema catalog calls (.error error)
  | failed {loaded : Loaded} {redirects : Option (Resolution E)} {calls calls' : List Call}
      {notices : List Notice} {error : ValidationError} (hschema : schema.load files = .ok loaded)
      (hredirects : Resolves resolution loaded catalog calls (.ok redirects))
      (h : Compiling (redirects.or resolution) loaded calls' notices (.error error)) :
      Builds resolution files schema catalog (calls ++ calls') (.error error)
  | uncompiled {loaded : Loaded} {redirects : Option (Resolution E)} {calls calls' : List Call}
      {notices : List Notice} (hschema : schema.load files = .ok loaded)
      (hredirects : Resolves resolution loaded catalog calls (.ok redirects))
      (h : Compiling (redirects.or resolution) loaded calls' notices (.ok none)) :
      Builds resolution files schema catalog (calls ++ calls')
        (.error (.compilation loaded.systemId (Notice.details loaded.systemId notices)))
  | built {loaded : Loaded} {redirects : Option (Resolution E)} {calls calls' : List Call}
      {notices : List Notice} {compiled : E.Schema} (hschema : schema.load files = .ok loaded)
      (hredirects : Resolves resolution loaded catalog calls (.ok redirects))
      (h : Compiling (redirects.or resolution) loaded calls' notices (.ok (some compiled))) :
      Builds resolution files schema catalog (calls ++ calls') (.ok ⟨compiled, loaded.systemId⟩)

/-! ## What the stages do -/

theorem Resolves.does {schema : Loaded} {catalog : Option String}
    {outcome : Except ValidationError (Option (Resolution E))}
    (h : Resolves resolution schema catalog calls outcome) :
    Attempt.Does resolution (Validator.resolution catalog schema) calls outcome := by
  cases h with
  | without => exact Attempt.does_ofExcept rfl
  | uncatalogued h => exact h.does.bind_error _
  | unplanned hcatalog h => exact hcatalog.does.bind (h.does.bind_error _)
  | planned hcatalog h => exact hcatalog.does.bind (h.does.conclude rfl)

theorem exists_resolves (resolution : Option (Resolution E)) (schema : Loaded)
    (catalog : Option String) :
    ∃ calls outcome, Resolves resolution schema catalog calls outcome := by
  cases catalog with
  | none => exact ⟨_, _, .without⟩
  | some path =>
      obtain ⟨_, catalog, hcatalog⟩ := Attempt.exists_loadsCatalog (E := E) path
      cases catalog with
      | error error => exact ⟨_, _, .uncatalogued hcatalog⟩
      | ok catalog =>
          obtain ⟨_, table, h⟩ := Plan.exists_plans resolution catalog schema
          cases table with
          | error error => exact ⟨_, _, .unplanned hcatalog h⟩
          | ok table => exact ⟨_, _, .planned hcatalog h⟩

theorem Compiling.hears {schema : Loaded} {notices : List Notice}
    {outcome : Except ValidationError (Option E.Schema)}
    (h : Compiling resolution schema calls notices outcome) :
    Attempt.Hears resolution (fun collector => compileIn collector schema) calls notices
      outcome := by
  cases h with
  | refused h => exact h.hears.bind_error _
  | unparsed h => exact h.hears.conclude rfl
  | @unbegun _ _ document h hcompile =>
      have hcall : Attempt.Hears resolution
          (fun collector => Attempt.compileSchema collector document) [.compileSchema] []
          (.error EngineError.outOfMemory.toValidation) := by
        unfold Attempt.compileSchema
        rw [hcompile]
        exact (Attempt.hears_note _).conclude rfl
      rw [← List.append_nil notices]
      exact h.hears.bind hcall
  | @compiled _ _ document run compiled h hcompile hrun =>
      have hcall : Attempt.Hears resolution
          (fun collector => Attempt.compileSchema collector document)
          (.compileSchema :: run.calls resolution) (run.notices (E.find resolution))
          (.ok compiled) := by
        unfold Attempt.compileSchema
        rw [hcompile, ← hrun]
        exact Attempt.hears_call_context _ run
      exact h.hears.bind hcall

theorem exists_compiling (resolution : Option (Resolution E)) (schema : Loaded) :
    ∃ calls notices outcome, Compiling resolution schema calls notices outcome := by
  obtain ⟨_, _, document, h⟩ := Attempt.exists_parses resolution schema
  match document with
  | .error _ => exact ⟨_, _, _, .refused h⟩
  | .ok none => exact ⟨_, _, _, .unparsed h⟩
  | .ok (some document) =>
      cases hcompile : E.compileSchema document with
      | none => exact ⟨_, _, _, .unbegun h hcompile⟩
      | some run => exact ⟨_, _, _, .compiled h hcompile rfl⟩

theorem Builds.does {files : Files} {schema : Source} {catalog : Option String}
    {outcome : Except ValidationError (Validator E)}
    (h : Builds resolution files schema catalog calls outcome) :
    Attempt.Does resolution (build files schema catalog) calls outcome := by
  cases h with
  | unread h => exact (Attempt.does_ofExcept h).bind_error _
  | unresolved hschema h => exact (Attempt.does_ofExcept hschema).bind (h.does.bind_error _)
  | @failed loaded _ _ _ _ _ hschema hredirects h =>
      have hbracket := (h.hears.within _).capturing loaded.systemId
      refine (Attempt.does_ofExcept hschema).bind (hredirects.does.bind ?_)
      exact hbracket.conclude rfl
  | @uncompiled loaded _ _ _ _ hschema hredirects h =>
      have hbracket := (h.hears.within _).capturing loaded.systemId
      rw [← Collector.summary_foldl_receive]
      refine (Attempt.does_ofExcept hschema).bind (hredirects.does.bind ?_)
      exact hbracket.conclude rfl
  | @built loaded _ _ _ _ _ hschema hredirects h =>
      have hbracket := (h.hears.within _).capturing loaded.systemId
      refine (Attempt.does_ofExcept hschema).bind (hredirects.does.bind ?_)
      exact hbracket.conclude rfl

theorem exists_builds (resolution : Option (Resolution E)) (files : Files) (schema : Source)
    (catalog : Option String) :
    ∃ calls outcome, Builds resolution files schema catalog calls outcome := by
  cases hschema : schema.load files with
  | error error => exact ⟨_, _, .unread hschema⟩
  | ok loaded =>
      obtain ⟨_, redirects, hredirects⟩ := exists_resolves resolution loaded catalog
      cases redirects with
      | error error => exact ⟨_, _, .unresolved hschema hredirects⟩
      | ok redirects =>
          obtain ⟨_, _, compiled, h⟩ := exists_compiling (redirects.or resolution) loaded
          match compiled with
          | .error _ => exact ⟨_, _, .failed hschema hredirects h⟩
          | .ok none => exact ⟨_, _, .uncompiled hschema hredirects h⟩
          | .ok (some _) => exact ⟨_, _, .built hschema hredirects h⟩

/-- The compiling of a schema makes the calls of its stages, up to the first that fails, and ends
with the error of that one or with the compiled schema. -/
theorem run_build_iff (files : Files) (schema : Source) (catalog : Option String)
    (thread : Thread E) (calls : List Call) (outcome : Except ValidationError (Validator E)) :
    (∃ after, (build files schema catalog).outcome.run thread = (outcome, after) ∧
        after.journal = thread.journal ++ calls) ↔
      Builds thread.resolution files schema catalog calls outcome :=
  Attempt.Does.run_iff Builds.does (exists_builds thread.resolution files schema catalog) rfl

/-- An engine that loads catalogs and fails to parse, not without a word. -/
def unparsing : Engine :=
  { uniform mixed with
    loadCatalog := fun _ => some ()
    parse := fun _ _ => mixed.bind fun _ => .done none }

/-- A root that is parsed twice is complained of once. -/
example :
    let after := (build (E := unparsing) noFiles (.memory [] "s.xsd") (some "c.xml")).outcome.run
      Thread.fresh
    after.1 = .error (.compilation "s.xsd" "s.xsd:4:-1: ") ∧
      after.2.journal = [.catalog "c.xml", .parse "s.xsd", .parse "s.xsd"] :=
  ⟨rfl, rfl⟩

end Validator

end Schema

end Conformance
