import Conformance.Proofs.Engine.Calls
import Conformance.Proofs.Jobs.Basic
import Conformance.Proofs.Schema.Validation
import Mathlib.Data.List.Forall2

/-!
# The stages of a validation by a transform

A validation reads the transform, loads the catalog, compiles the transform, reads the document,
parses it, applies the transform and looks for failed assertions in what comes out. Each relation
below says of one stage which calls are made and how it can end; together they say it of the whole.

* `Resolves`, `Compiles`, `Transforms`, `Lists` : the stages, with one constructor for each end;
* `Ends` : the whole. A stage that fails decides the error, and no later stage makes a call;
* `run_validate_iff` : a validation ends like this and in no other way.
-/

namespace Conformance

namespace Schematron

namespace Validator

variable {E : Engine} {resolution : Option (Resolution E)} {calls : List Call}

/-! ## Stages -/

/-- How the catalog, if there is one, comes to be used. -/
inductive Resolves : Option String → List Call →
    Except ValidationError (Option (Resolution E)) → Prop
  | without : Resolves none [] (.ok none)
  | failed {path : String} {calls : List Call} {error : ValidationError}
      (h : Attempt.LoadsCatalog (E := E) path calls (.error error)) :
      Resolves (some path) calls (.error error)
  | loaded {path : String} {calls : List Call} {catalog : E.LoadedCatalog}
      (h : Attempt.LoadsCatalog path calls (.ok catalog)) :
      Resolves (some path) calls (.ok (some (.catalog catalog)))

/-- How the compiling of a transform ends in its bracket, and what is heard of it. -/
inductive Compiling (resolution : Option (Resolution E)) (transform : Loaded) :
    List Call → List Notice → Except ValidationError (Option E.Stylesheet) → Prop
  | refused {calls : List Call} {notices : List Notice} {error : ValidationError}
      (h : Attempt.Parses resolution transform calls notices (.error error)) :
      Compiling resolution transform calls notices (.error error)
  | unparsed {calls : List Call} {notices : List Notice}
      (h : Attempt.Parses resolution transform calls notices (.ok none)) :
      Compiling resolution transform calls notices (.ok none)
  | parsed {calls : List Call} {notices : List Notice} {document : E.Document}
      {stylesheet : Option E.Stylesheet}
      (h : Attempt.Parses resolution transform calls notices (.ok (some document)))
      (hcompile : (E.compileStylesheet document).value (E.find resolution) = stylesheet) :
      Compiling resolution transform
        (calls ++ .compileStylesheet :: (E.compileStylesheet document).calls resolution)
        (notices ++ (E.compileStylesheet document).heard (E.find resolution) none)
        (.ok stylesheet)

/-- How the compiling of a transform ends. -/
inductive Compiles (resolution : Option (Resolution E)) (transform : Loaded) :
    List Call → Except ValidationError E.Stylesheet → Prop
  | refused {calls : List Call} {notices : List Notice} {error : ValidationError}
      (h : Compiling resolution transform calls notices (.error error)) :
      Compiles resolution transform calls (.error error)
  | failed {calls : List Call} {notices : List Notice}
      (h : Compiling (E := E) resolution transform calls notices (.ok none)) :
      Compiles resolution transform calls
        (.error (.compilation transform.systemId (Notice.details transform.systemId notices)))
  | compiled {calls : List Call} {notices : List Notice} {stylesheet : E.Stylesheet}
      (h : Compiling resolution transform calls notices (.ok (some stylesheet))) :
      Compiles resolution transform calls (.ok stylesheet)

/-- How the application of a transform to a document ends in its bracket, and what is heard of it. A
document that cannot be parsed is told from a transform that fails. -/
inductive Applying (resolution : Option (Resolution E)) (stylesheet : E.Stylesheet)
    (document : Loaded) :
    List Call → List Notice → Except ValidationError (Option (Option E.Document)) → Prop
  | refused {calls : List Call} {notices : List Notice} {error : ValidationError}
      (h : Attempt.Parses resolution document calls notices (.error error)) :
      Applying resolution stylesheet document calls notices (.error error)
  | unparsed {calls : List Call} {notices : List Notice}
      (h : Attempt.Parses resolution document calls notices (.ok none)) :
      Applying resolution stylesheet document calls notices (.ok none)
  | parsed {calls : List Call} {notices : List Notice} {parsed : E.Document}
      {report : Option E.Document}
      (h : Attempt.Parses resolution document calls notices (.ok (some parsed)))
      (happly : (E.apply stylesheet parsed).value (E.find resolution) = report) :
      Applying resolution stylesheet document
        (calls ++ .apply :: (E.apply stylesheet parsed).calls resolution)
        (notices ++ (E.apply stylesheet parsed).heard (E.find resolution) none)
        (.ok (some report))

/-- How the application of a transform to a document ends. -/
inductive Transforms (resolution : Option (Resolution E)) (stylesheet : E.Stylesheet)
    (document : Loaded) : List Call → Except ValidationError E.Document → Prop
  | refused {calls : List Call} {notices : List Notice} {error : ValidationError}
      (h : Applying resolution stylesheet document calls notices (.error error)) :
      Transforms resolution stylesheet document calls (.error error)
  | unparsed {calls : List Call} {notices : List Notice}
      (h : Applying resolution stylesheet document calls notices (.ok none)) :
      Transforms resolution stylesheet document calls
        (.error (.engine
          ("Document could not be parsed: " ++ Notice.details document.systemId notices)))
  | failed {calls : List Call} {notices : List Notice}
      (h : Applying resolution stylesheet document calls notices (.ok (some none))) :
      Transforms resolution stylesheet document calls
        (.error (EngineError.transform document.systemId).toValidation)
  | reported {calls : List Call} {notices : List Notice} {report : E.Document}
      (h : Applying resolution stylesheet document calls notices (.ok (some (some report)))) :
      Transforms resolution stylesheet document calls (.ok report)

/-- What an expression gives on a node, if the engine can tell; nothing given is an empty text. -/
def told (report : E.Document) (node : E.Node) (expression : String) : Option String :=
  (E.evaluate report (some node) expression).map (·.elim "" RawText.lossy)

/-- How the reading of failed assertions ends. An assertion that cannot be read spoils those that
were. -/
inductive Tells (report : E.Document) :
    List E.Node → List Call → Except ValidationError (List Violation) → Prop
  | nil : Tells report [] [] (.ok [])
  | unplaced {node : E.Node} {nodes : List E.Node}
      (h : told report node Query.assertLocation = none) :
      Tells report (node :: nodes) [.evaluate Query.assertLocation]
        (.error (EngineError.query Query.assertLocation).toValidation)
  | untold {node : E.Node} {nodes : List E.Node} {location : String}
      (hlocation : told report node Query.assertLocation = some location)
      (h : told report node Query.assertText = none) :
      Tells report (node :: nodes) [.evaluate Query.assertLocation, .evaluate Query.assertText]
        (.error (EngineError.query Query.assertText).toValidation)
  | cons {node : E.Node} {nodes : List E.Node} {location message : String} {calls : List Call}
      {outcome : Except ValidationError (List Violation)}
      (hlocation : told report node Query.assertLocation = some location)
      (hmessage : told report node Query.assertText = some message)
      (h : Tells report nodes calls outcome) :
      Tells report (node :: nodes)
        (.evaluate Query.assertLocation :: .evaluate Query.assertText :: calls)
        (outcome.map (⟨location, message⟩ :: ·))

/-- How the listing of violations in a report ends. -/
inductive Lists (report : E.Document) :
    List Call → Except ValidationError (List Violation) → Prop
  | unopened (h : E.opensXPath report = false) :
      Lists report [.openXPath] (.error EngineError.outOfMemory.toValidation)
  | unselected (hopen : E.opensXPath report = true)
      (h : E.select report Query.failedAsserts = none) :
      Lists report [.openXPath, .select Query.failedAsserts]
        (.error (EngineError.query Query.failedAsserts).toValidation)
  | selected {nodes : List E.Node} {calls : List Call}
      {outcome : Except ValidationError (List Violation)} (hopen : E.opensXPath report = true)
      (hselect : E.select report Query.failedAsserts = some nodes)
      (h : Tells report nodes calls outcome) :
      Lists report (.openXPath :: .select Query.failedAsserts :: calls) outcome

/-- How a validation ends on a thread under a resolution, which a catalog replaces. -/
inductive Ends (resolution : Option (Resolution E)) (validator : Validator) (files : Files)
    (document : Source) : List Call → Except ValidationError (List Violation) → Prop
  | unreadTransform {error : ValidationError} (h : validator.transform.load files = .error error) :
      Ends resolution validator files document [] (.error error)
  | unresolved {transform : Loaded} {calls : List Call} {error : ValidationError}
      (htransform : validator.transform.load files = .ok transform)
      (h : Resolves (E := E) validator.catalog calls (.error error)) :
      Ends resolution validator files document calls (.error error)
  | uncompiled {transform : Loaded} {catalog : Option (Resolution E)} {calls calls' : List Call}
      {error : ValidationError} (htransform : validator.transform.load files = .ok transform)
      (hcatalog : Resolves validator.catalog calls (.ok catalog))
      (h : Compiles (catalog.or resolution) transform calls' (.error error)) :
      Ends resolution validator files document (calls ++ calls') (.error error)
  | unreadDocument {transform : Loaded} {catalog : Option (Resolution E)}
      {stylesheet : E.Stylesheet} {calls calls' : List Call} {error : ValidationError}
      (htransform : validator.transform.load files = .ok transform)
      (hcatalog : Resolves validator.catalog calls (.ok catalog))
      (hcompile : Compiles (catalog.or resolution) transform calls' (.ok stylesheet))
      (h : document.load files = .error error) :
      Ends resolution validator files document (calls ++ calls') (.error error)
  | untransformed {transform loaded : Loaded} {catalog : Option (Resolution E)}
      {stylesheet : E.Stylesheet} {calls calls' calls'' : List Call} {error : ValidationError}
      (htransform : validator.transform.load files = .ok transform)
      (hcatalog : Resolves validator.catalog calls (.ok catalog))
      (hcompile : Compiles (catalog.or resolution) transform calls' (.ok stylesheet))
      (hdocument : document.load files = .ok loaded)
      (h : Transforms (catalog.or resolution) stylesheet loaded calls'' (.error error)) :
      Ends resolution validator files document (calls ++ calls' ++ calls'') (.error error)
  | listed {transform loaded : Loaded} {catalog : Option (Resolution E)}
      {stylesheet : E.Stylesheet} {report : E.Document} {calls calls' calls'' calls''' : List Call}
      {outcome : Except ValidationError (List Violation)}
      (htransform : validator.transform.load files = .ok transform)
      (hcatalog : Resolves validator.catalog calls (.ok catalog))
      (hcompile : Compiles (catalog.or resolution) transform calls' (.ok stylesheet))
      (hdocument : document.load files = .ok loaded)
      (htransformed : Transforms (catalog.or resolution) stylesheet loaded calls'' (.ok report))
      (h : Lists report calls''' outcome) :
      Ends resolution validator files document (calls ++ calls' ++ calls'' ++ calls''') outcome

/-! ## What the stages do -/

theorem Resolves.does {validator : Validator}
    {outcome : Except ValidationError (Option (Resolution E))}
    (h : Resolves validator.catalog calls outcome) :
    Attempt.Does resolution validator.resolution calls outcome := by
  obtain ⟨transform, path⟩ := validator
  cases h with
  | without => exact Attempt.does_ofExcept rfl
  | failed h => exact h.does.bind_error _
  | loaded h => exact h.does.conclude rfl

theorem exists_resolves (path : Option String) :
    ∃ calls outcome, Resolves (E := E) path calls outcome := by
  cases path with
  | none => exact ⟨_, _, .without⟩
  | some path =>
      obtain ⟨calls, outcome, h⟩ := Attempt.exists_loadsCatalog (E := E) path
      cases outcome with
      | error error => exact ⟨_, _, .failed h⟩
      | ok catalog => exact ⟨_, _, .loaded h⟩

theorem Compiling.hears {transform : Loaded} {notices : List Notice}
    {outcome : Except ValidationError (Option E.Stylesheet)}
    (h : Compiling resolution transform calls notices outcome) :
    Attempt.Hears resolution (fun _ => compiling transform) calls notices outcome := by
  cases h with
  | refused h => exact h.hears.bind_error _
  | unparsed h => exact h.hears.conclude rfl
  | parsed h hcompile =>
      subst hcompile
      exact h.hears.bind (Attempt.hears_call _ _)

theorem exists_compiling (resolution : Option (Resolution E)) (transform : Loaded) :
    ∃ calls notices outcome, Compiling resolution transform calls notices outcome := by
  obtain ⟨calls, notices, outcome, h⟩ := Attempt.exists_parses resolution transform
  match outcome with
  | .error _ => exact ⟨_, _, _, .refused h⟩
  | .ok none => exact ⟨_, _, _, .unparsed h⟩
  | .ok (some _) => exact ⟨_, _, _, .parsed h rfl⟩

theorem Compiles.does {transform : Loaded} {outcome : Except ValidationError E.Stylesheet}
    (h : Compiles resolution transform calls outcome) :
    Attempt.Does resolution (compile transform) calls outcome := by
  cases h with
  | refused h => exact (h.hears.capturing transform.systemId).conclude rfl
  | failed h =>
      rw [← Collector.summary_foldl_receive]
      exact (h.hears.capturing transform.systemId).conclude rfl
  | compiled h => exact (h.hears.capturing transform.systemId).conclude rfl

theorem exists_compiles (resolution : Option (Resolution E)) (transform : Loaded) :
    ∃ calls outcome, Compiles resolution transform calls outcome := by
  obtain ⟨calls, notices, outcome, h⟩ := exists_compiling resolution transform
  match outcome with
  | .error _ => exact ⟨_, _, .refused h⟩
  | .ok none => exact ⟨_, _, .failed h⟩
  | .ok (some _) => exact ⟨_, _, .compiled h⟩

theorem Applying.hears {stylesheet : E.Stylesheet} {document : Loaded} {notices : List Notice}
    {outcome : Except ValidationError (Option (Option E.Document))}
    (h : Applying resolution stylesheet document calls notices outcome) :
    Attempt.Hears resolution (fun _ => applying stylesheet document) calls notices outcome := by
  cases h with
  | refused h => exact h.hears.bind_error _
  | unparsed h => exact h.hears.conclude rfl
  | parsed h happly =>
      subst happly
      exact h.hears.bind ((Attempt.hears_call _ _).conclude rfl)

theorem exists_applying (resolution : Option (Resolution E)) (stylesheet : E.Stylesheet)
    (document : Loaded) :
    ∃ calls notices outcome, Applying resolution stylesheet document calls notices outcome := by
  obtain ⟨calls, notices, outcome, h⟩ := Attempt.exists_parses resolution document
  match outcome with
  | .error _ => exact ⟨_, _, _, .refused h⟩
  | .ok none => exact ⟨_, _, _, .unparsed h⟩
  | .ok (some _) => exact ⟨_, _, _, .parsed h rfl⟩

theorem Transforms.does {stylesheet : E.Stylesheet} {document : Loaded}
    {outcome : Except ValidationError E.Document}
    (h : Transforms resolution stylesheet document calls outcome) :
    Attempt.Does resolution (transformed stylesheet document) calls outcome := by
  cases h with
  | refused h => exact (h.hears.capturing document.systemId).conclude rfl
  | unparsed h =>
      rw [← Collector.summary_foldl_receive]
      exact (h.hears.capturing document.systemId).conclude rfl
  | failed h => exact (h.hears.capturing document.systemId).conclude rfl
  | reported h => exact (h.hears.capturing document.systemId).conclude rfl

theorem exists_transforms (resolution : Option (Resolution E)) (stylesheet : E.Stylesheet)
    (document : Loaded) :
    ∃ calls outcome, Transforms resolution stylesheet document calls outcome := by
  obtain ⟨calls, notices, outcome, h⟩ := exists_applying resolution stylesheet document
  match outcome with
  | .error _ => exact ⟨_, _, .refused h⟩
  | .ok none => exact ⟨_, _, .unparsed h⟩
  | .ok (some none) => exact ⟨_, _, .failed h⟩
  | .ok (some (some _)) => exact ⟨_, _, .reported h⟩

theorem does_evaluate {report : E.Document} {node : E.Node} {expression : String}
    {text : Option String} (h : told report node expression = text) :
    Attempt.Does resolution (Attempt.evaluate report (some node) expression)
      [.evaluate expression]
      (text.elim (.error (EngineError.query expression).toValidation) .ok) := by
  subst h
  refine (Attempt.does_note (.evaluate expression)).conclude ?_
  unfold told
  cases E.evaluate report (some node) expression <;> rfl

theorem Tells.does {report : E.Document} {nodes : List E.Node}
    {outcome : Except ValidationError (List Violation)} (h : Tells report nodes calls outcome) :
    Attempt.Does resolution (ofAsserts report nodes) calls outcome := by
  induction h with
  | nil => exact Attempt.does_ofExcept rfl
  | unplaced h => exact (does_evaluate h).bind_error _
  | untold hlocation h => exact (does_evaluate hlocation).bind ((does_evaluate h).bind_error _)
  | @cons node nodes location message calls outcome hlocation hmessage _ ih =>
      have hrest : Attempt.Does resolution
          (ofAsserts report nodes >>= fun violations => pure (⟨location, message⟩ :: violations))
          calls (outcome.map (⟨location, message⟩ :: ·)) := by
        cases outcome with
        | error error => exact ih.bind_error _
        | ok violations => exact ih.conclude rfl
      exact (does_evaluate hlocation).bind ((does_evaluate hmessage).bind hrest)

theorem exists_tells (report : E.Document) (nodes : List E.Node) :
    ∃ calls outcome, Tells report nodes calls outcome := by
  induction nodes with
  | nil => exact ⟨_, _, .nil⟩
  | cons node nodes ih =>
      obtain ⟨calls, outcome, hrest⟩ := ih
      cases hlocation : told report node Query.assertLocation with
      | none => exact ⟨_, _, .unplaced hlocation⟩
      | some location =>
          cases hmessage : told report node Query.assertText with
          | none => exact ⟨_, _, .untold hlocation hmessage⟩
          | some message => exact ⟨_, _, .cons hlocation hmessage hrest⟩

theorem Lists.does {report : E.Document} {outcome : Except ValidationError (List Violation)}
    (h : Lists report calls outcome) :
    Attempt.Does resolution (violations report) calls outcome := by
  have hopens : Attempt.Does resolution (Attempt.openXPath report) ([.openXPath] ++ [])
      (if E.opensXPath report then .ok () else .error EngineError.outOfMemory.toValidation) :=
    (Attempt.does_note _).bind (Attempt.does_ensure _ _)
  have hselects : Attempt.Does resolution (Attempt.select report Query.failedAsserts)
      [.select Query.failedAsserts]
      ((E.select report Query.failedAsserts).elim
        (.error (EngineError.query Query.failedAsserts).toValidation) .ok) := by
    refine (Attempt.does_note (.select Query.failedAsserts)).conclude ?_
    cases E.select report Query.failedAsserts <;> rfl
  cases h with
  | unopened h =>
      rw [h] at hopens
      exact hopens.bind_error _
  | unselected hopen h =>
      rw [hopen] at hopens
      rw [h] at hselects
      exact hopens.bind (hselects.bind_error _)
  | selected hopen hselect h =>
      rw [hopen] at hopens
      rw [hselect] at hselects
      exact hopens.bind (hselects.bind h.does)

theorem exists_lists (report : E.Document) : ∃ calls outcome, Lists report calls outcome := by
  cases hopen : E.opensXPath report with
  | false => exact ⟨_, _, .unopened hopen⟩
  | true =>
      cases hselect : E.select report Query.failedAsserts with
      | none => exact ⟨_, _, .unselected hopen hselect⟩
      | some nodes =>
          obtain ⟨calls, outcome, h⟩ := exists_tells report nodes
          exact ⟨_, _, .selected hopen hselect h⟩

/-! ## Validations -/

theorem Ends.does {validator : Validator} {files : Files} {document : Source}
    {outcome : Except ValidationError (List Violation)}
    (h : Ends resolution validator files document calls outcome) :
    Attempt.Does resolution (validator.validate files document) calls outcome := by
  cases h with
  | unreadTransform h => exact (Attempt.does_ofExcept h).bind_error _
  | unresolved htransform h =>
      exact (Attempt.does_ofExcept htransform).bind (h.does.bind_error _)
  | uncompiled htransform hcatalog h =>
      refine (Attempt.does_ofExcept htransform).bind (hcatalog.does.bind (.within _ ?_))
      exact h.does.bind_error _
  | @unreadDocument _ _ _ _ calls' _ htransform hcatalog hcompile h =>
      rw [← List.append_nil calls']
      refine (Attempt.does_ofExcept htransform).bind (hcatalog.does.bind (.within _ ?_))
      exact hcompile.does.bind ((Attempt.does_ofExcept h).bind_error _)
  | untransformed htransform hcatalog hcompile hdocument h =>
      rw [List.append_assoc]
      refine (Attempt.does_ofExcept htransform).bind (hcatalog.does.bind (.within _ ?_))
      exact hcompile.does.bind ((Attempt.does_ofExcept hdocument).bind (h.does.bind_error _))
  | listed htransform hcatalog hcompile hdocument htransformed h =>
      rw [List.append_assoc, List.append_assoc]
      refine (Attempt.does_ofExcept htransform).bind (hcatalog.does.bind (.within _ ?_))
      refine hcompile.does.bind ((Attempt.does_ofExcept hdocument).bind ?_)
      exact htransformed.does.bind h.does

theorem exists_ends (resolution : Option (Resolution E)) (validator : Validator) (files : Files)
    (document : Source) :
    ∃ calls outcome, Ends resolution validator files document calls outcome := by
  cases htransform : validator.transform.load files with
  | error error => exact ⟨_, _, .unreadTransform htransform⟩
  | ok transform =>
  obtain ⟨_, catalog, hcatalog⟩ := exists_resolves (E := E) validator.catalog
  cases catalog with
  | error error => exact ⟨_, _, .unresolved htransform hcatalog⟩
  | ok catalog =>
  obtain ⟨_, stylesheet, hcompile⟩ := exists_compiles (catalog.or resolution) transform
  cases stylesheet with
  | error error => exact ⟨_, _, .uncompiled htransform hcatalog hcompile⟩
  | ok stylesheet =>
  cases hdocument : document.load files with
  | error error => exact ⟨_, _, .unreadDocument htransform hcatalog hcompile hdocument⟩
  | ok loaded =>
  obtain ⟨_, report, htransformed⟩ := exists_transforms (catalog.or resolution) stylesheet loaded
  cases report with
  | error error => exact ⟨_, _, .untransformed htransform hcatalog hcompile hdocument htransformed⟩
  | ok report =>
  obtain ⟨_, _, hlist⟩ := exists_lists report
  exact ⟨_, _, .listed htransform hcatalog hcompile hdocument htransformed hlist⟩

/-- What it takes to find these violations. What the engine reports has no part in it. -/
inductive Finds (resolution : Option (Resolution E)) (validator : Validator) (files : Files)
    (document : Source) : List Violation → Prop
  | intro {transform loaded : Loaded} {calls : List Call} {catalog : Option (Resolution E)}
      {source parsed report : E.Document} {stylesheet : E.Stylesheet} {nodes : List E.Node}
      {violations : List Violation} (htransform : validator.transform.load files = .ok transform)
      (hcatalog : Resolves validator.catalog calls (.ok catalog))
      (hsource : E.parsed (catalog.or resolution) transform = some source)
      (hcompile :
        (E.compileStylesheet source).value (E.find (catalog.or resolution)) = some stylesheet)
      (hdocument : document.load files = .ok loaded)
      (hparsed : E.parsed (catalog.or resolution) loaded = some parsed)
      (happly :
        (E.apply stylesheet parsed).value (E.find (catalog.or resolution)) = some report)
      (hopen : E.opensXPath report = true)
      (hselect : E.select report Query.failedAsserts = some nodes)
      (hnodes : List.Forall₂ (fun node violation =>
        told report node Query.assertLocation = some violation.location ∧
          told report node Query.assertText = some violation.message) nodes violations) :
      Finds resolution validator files document violations

theorem exists_tells_ok_iff {report : E.Document} {nodes : List E.Node}
    {violations : List Violation} :
    (∃ calls, Tells report nodes calls (.ok violations)) ↔ List.Forall₂ (fun node violation =>
      told report node Query.assertLocation = some violation.location ∧
        told report node Query.assertText = some violation.message) nodes violations := by
  constructor
  · rintro ⟨calls, h⟩
    generalize houtcome : Except.ok violations = outcome at h
    induction h generalizing violations with
    | nil =>
        cases houtcome
        exact .nil
    | unplaced | untold => cases houtcome
    | @cons _ _ _ _ _ outcome hlocation hmessage _ ih =>
        cases outcome with
        | error error => cases houtcome
        | ok rest =>
            cases houtcome
            exact .cons ⟨hlocation, hmessage⟩ (ih rfl)
  · intro h
    induction h with
    | nil => exact ⟨_, .nil⟩
    | cons hviolation _ ih =>
        obtain ⟨_, h⟩ := ih
        exact ⟨_, .cons hviolation.1 hviolation.2 h⟩

theorem exists_compiles_ok_iff {transform : Loaded} {stylesheet : E.Stylesheet} :
    (∃ calls, Compiles resolution transform calls (.ok stylesheet)) ↔
      ∃ source, E.parsed resolution transform = some source ∧
        (E.compileStylesheet source).value (E.find resolution) = some stylesheet := by
  constructor
  · rintro ⟨_, h⟩
    cases h with
    | compiled h =>
        cases h with
        | parsed h hcompile => exact ⟨_, Attempt.exists_parses_iff.1 ⟨_, _, h⟩, hcompile⟩
  · rintro ⟨source, hsource, hcompile⟩
    obtain ⟨_, _, h⟩ := Attempt.exists_parses_iff.2 hsource
    exact ⟨_, .compiled (.parsed h hcompile)⟩

theorem exists_transforms_ok_iff {stylesheet : E.Stylesheet} {document : Loaded}
    {report : E.Document} :
    (∃ calls, Transforms resolution stylesheet document calls (.ok report)) ↔
      ∃ parsed, E.parsed resolution document = some parsed ∧
        (E.apply stylesheet parsed).value (E.find resolution) = some report := by
  constructor
  · rintro ⟨_, h⟩
    cases h with
    | reported h =>
        cases h with
        | parsed h happly => exact ⟨_, Attempt.exists_parses_iff.1 ⟨_, _, h⟩, happly⟩
  · rintro ⟨parsed, hparsed, happly⟩
    obtain ⟨_, _, h⟩ := Attempt.exists_parses_iff.2 hparsed
    exact ⟨_, .reported (.parsed h happly)⟩

theorem exists_ends_ok_iff {validator : Validator} {files : Files} {document : Source}
    {violations : List Violation} :
    (∃ calls, Ends resolution validator files document calls (.ok violations)) ↔
      Finds resolution validator files document violations := by
  constructor
  · rintro ⟨_, h⟩
    cases h with
    | listed htransform hcatalog hcompile hdocument htransformed h =>
        obtain ⟨source, hsource, hcompile⟩ := exists_compiles_ok_iff.1 ⟨_, hcompile⟩
        obtain ⟨parsed, hparsed, happly⟩ := exists_transforms_ok_iff.1 ⟨_, htransformed⟩
        cases h with
        | selected hopen hselect h =>
            exact .intro htransform hcatalog hsource hcompile hdocument hparsed happly hopen hselect
              (exists_tells_ok_iff.1 ⟨_, h⟩)
  · intro h
    cases h with
    | intro htransform hcatalog hsource hcompile hdocument hparsed happly hopen hselect hnodes =>
        obtain ⟨_, hcompile⟩ := exists_compiles_ok_iff.2 ⟨_, hsource, hcompile⟩
        obtain ⟨_, htransformed⟩ := exists_transforms_ok_iff.2 ⟨_, hparsed, happly⟩
        obtain ⟨_, h⟩ := exists_tells_ok_iff.2 hnodes
        exact ⟨_, .listed htransform hcatalog hcompile hdocument htransformed
          (.selected hopen hselect h)⟩

/-- A validation makes the calls of its stages, up to the first that fails, and ends with the error
of that one or with the violations. These are one for each failed assertion, in order, and whether
there are any at all does not depend on what the engine reports. -/
theorem run_validate_iff (validator : Validator) (files : Files) (document : Source)
    (thread : Thread E) :
    (∀ calls outcome, (∃ after, (validator.validate files document).outcome.run thread =
          (outcome, after) ∧ after.journal = thread.journal ++ calls) ↔
        Ends thread.resolution validator files document calls outcome) ∧
      ∀ violations,
        ((validator.validate files document).outcome.run thread).1 = .ok violations ↔
          Finds thread.resolution validator files document violations := by
  have hexists := exists_ends thread.resolution validator files document
  refine ⟨fun _ _ => Attempt.Does.run_iff Ends.does hexists rfl, fun violations => ?_⟩
  rw [← exists_ends_ok_iff]
  exact Attempt.Does.run_fst_iff Ends.does hexists rfl

/-- An engine with something to report in every call and two failed assertions in every report. -/
def asserting : Engine :=
  { Schema.Validator.uniform Schema.Validator.mixed with
    parse := fun _ _ => Schema.Validator.mixed.bind fun _ => .done (some ())
    compileStylesheet := fun _ => Schema.Validator.mixed.bind fun _ => .done (some ())
    apply := fun _ _ => Schema.Validator.mixed.bind fun _ => .done (some ())
    opensXPath := fun _ => true
    select := fun _ _ => some [(), ()]
    evaluate := fun _ _ expression => some (some (.ofString (" " ++ expression))) }

/-- What is reported on the way is no part of the result. -/
example :
    ((validate (E := asserting) ⟨.memory [] "t.xsl", none⟩ Schema.Validator.noFiles
      (.memory [] "doc.xml")).outcome.run Thread.fresh).1 =
        .ok [⟨" string(@location)", " string(.)"⟩, ⟨" string(@location)", " string(.)"⟩] :=
  rfl

end Validator

end Schematron

end Conformance
