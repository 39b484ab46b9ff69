import Conformance.Proofs.Engine.Logging
import Conformance.Proofs.Schema.Extraction
import Conformance.Proofs.Schema.Termination
import Conformance.Proofs.Schema.Transparency

/-!
# What the compiling of a schema leaves in the log

A schema that is given a catalog is parsed twice: once when its redirects are planned, and again when
it is compiled. The collector of the planning is dropped, but the warnings that it was handed are in
the log by then. So the log has the warnings of both, and those of the root twice.

* `Plan.heard` : what is heard while redirects are planned, `Plan.log_redirects` : so it is logged;
* `Validator.heardCompiling` : what is heard while the schema is compiled under its redirects;
* `Validator.log_build_eq_iff` : what the compiling of a schema leaves in the log, and when that is
  what it leaves without the planning.
-/

namespace Conformance

variable {E : Engine}

/-! ## Catalogs -/

/-- The catalog at a path, if the path can be passed on. -/
def Engine.catalogAt (E : Engine) (path : String) : Option E.LoadedCatalog :=
  if hasNul path then none else E.loadCatalog path

/-- All that the loading of a catalog leaves is its call in the journal. -/
theorem Attempt.exists_run_loadCatalog (path : String) (thread : Thread E) :
    ∃ calls, (loadCatalog path).outcome.run thread =
      ((E.catalogAt path).elim (.error (.catalog path)) .ok, thread.note calls) := by
  unfold loadCatalog Engine.catalogAt
  cases hasNul path with
  | true => exact ⟨[], congrArg (Prod.mk _) (by rw [Thread.note, List.append_nil])⟩
  | false =>
      refine ⟨[.catalog path], ?_⟩
      cases E.loadCatalog path <;> rfl

namespace Schema

/-! ## Planning -/

namespace Plan

variable {catalog : E.LoadedCatalog}

theorem heardFromReads_visit (plan : Plan E) (place : String) :
    (plan.visit place).HeardFromReads := by
  unfold visit
  split
  · exact Attempt.heardFromReads_pure plan
  · exact (Attempt.heardFromReads_read place).bind fun _ => Attempt.heardFromReads_pure _

theorem heardFromReads_follow (base : String) (plan : Plan E) (reference : Reference) :
    (follow catalog base plan reference).HeardFromReads := by
  refine (Attempt.heardFromReads_buildUri _ _).bind fun built => ?_
  refine (Attempt.heardFromReads_search _ _).bind fun answer => ?_
  split
  · exact heardFromReads_visit _ _
  · exact Attempt.heardFromReads_pure _

theorem heardFromReads_followAll (base : String) (plan : Plan E) (references : List Reference) :
    (followAll catalog base plan references).HeardFromReads := by
  induction references generalizing plan with
  | nil => exact Attempt.heardFromReads_pure plan
  | cons reference references ih => exact (heardFromReads_follow _ _ _).bind fun _ => ih _

theorem heardFromReads_walk (count : Nat) (plan : Plan E) :
    (walk catalog count plan).HeardFromReads := by
  induction count generalizing plan with
  | zero => exact Attempt.heardFromReads_pure plan
  | succ count ih =>
      unfold walk
      split
      · exact Attempt.heardFromReads_pure plan
      · exact (Reference.inquires_ofDocument _).heardFromReads.bind fun _ =>
          (heardFromReads_followAll _ _ _).bind fun _ => ih _

theorem heardFromReads_walkFrom (root : Loaded) (document : Option E.Document) :
    (walkFrom catalog root document).HeardFromReads := by
  cases document with
  | none => exact Attempt.heardFromReads_pure []
  | some document => exact (heardFromReads_walk _ _).bind fun _ => Attempt.heardFromReads_pure _

/-- What is heard while the redirects of a root are planned: of the root, and wherever the walk
reads. -/
def heard (catalog : E.LoadedCatalog) (root : Loaded) : List Notice :=
  E.heardParsing none root ++
    ((history catalog root).filterMap (Move.reads? catalog)).flatMap (E.heardAt none)

theorem heard_walkFrom (catalog : E.LoadedCatalog) (root : Loaded) :
    (Attempt.parse root.octets root.systemId >>= walkFrom catalog root).heard none =
      heard catalog root := by
  have hreads : (redirects catalog root).reads none =
      (Attempt.parse root.octets root.systemId >>= walkFrom catalog root).reads none := by
    rw [Attempt.reads, (does_redirects catalog root).calls_eq, Attempt.reads]
  have hparse := (Attempt.asksNothing_parse (E := E) root.octets root.systemId).reads
  rw [Attempt.reads_bind (Attempt.passive_parse _ _) (passive_walkFrom catalog root), hparse,
    List.nil_append] at hreads
  rw [Attempt.heard_bind (Attempt.passive_parse _ _), Attempt.heard_parse, heard,
    ← reads_redirects, hreads]
  refine congrArg (E.heardParsing none root ++ ·) ?_
  cases (Attempt.parse root.octets root.systemId).value (E := E) none with
  | error error => rfl
  | ok document => exact (heardFromReads_walkFrom root document).heard

/-- The warnings that are heard while redirects are planned are logged. -/
theorem log_redirects (catalog : E.LoadedCatalog) (root : Loaded) {thread : Thread E}
    (hthread : thread.resolution = none) :
    ((redirects catalog root).outcome.run thread).2.log =
      thread.log ++ Notice.warnings root.systemId (heard catalog root) := by
  have hbody : Attempt.Logs none
      (fun _ => Attempt.parse root.octets root.systemId >>= walkFrom catalog root)
      (heard catalog root) :=
    Attempt.logs_of_reportsTo
      (fun _ => ((Attempt.passive_parse _ _).bind (passive_walkFrom catalog root)).reportsTo)
      fun _ => heard_walkFrom catalog root
  rw [← hbody.capturing root.systemId hthread, redirects_eq]
  exact congrArg Thread.log (Attempt.run_conclude_snd fun captured => ⟨_, rfl⟩)

end Plan

namespace Validator

/-! ## Compiling -/

/-- What is heard while a schema is parsed and compiled under a resolution. -/
def heardCompiling (resolution : Option (Resolution E)) (schema : Loaded) : List Notice :=
  E.heardParsing resolution schema ++
    ((E.parsed resolution schema).bind E.compileSchema).elim [] fun run =>
      run.notices (E.find resolution)

section

variable {resolution : Option (Resolution E)}

theorem heard_compileSchema (collector : Nat) (document : E.Document) :
    (Attempt.compileSchema collector document).heard resolution =
      (E.compileSchema document).elim [] fun run => run.notices (E.find resolution) := by
  refine (Attempt.heard_bind (Attempt.passive_note _) _).trans ?_
  cases E.compileSchema document with
  | none => rfl
  | some run =>
      rw [Option.elim_some, ← Run.heard_some _ collector, ← Session.heard_follow]
      exact Attempt.heard_lift _

theorem heard_compileIn (collector : Nat) (schema : Loaded) :
    (compileIn collector schema).heard resolution = heardCompiling resolution schema := by
  refine (Attempt.heard_bind (Attempt.passive_parse _ _) _).trans ?_
  rw [Attempt.heard_parse, heardCompiling, Attempt.value_parse, Engine.parsed]
  refine congrArg (E.heardParsing resolution schema ++ ·) ?_
  by_cases hsize : schema.octets.length ≤ Attempt.sizeLimit
  · cases hname : hasNul schema.systemId with
    | true => simp [hsize]
    | false =>
        rw [if_pos hsize, if_neg Bool.false_ne_true, if_pos ⟨hsize, rfl⟩]
        cases (E.parse schema.octets schema.systemId).value (E.find resolution) with
        | none => rfl
        | some document => exact heard_compileSchema collector document
  · simp [hsize]

theorem reportsTo_compileIn (collector : Nat) (schema : Loaded) :
    (compileIn (E := E) collector schema).outcome.ReportsTo collector := by
  refine Session.ReportsTo.bind (Attempt.passive_parse _ _).reportsTo fun outcome => ?_
  match outcome with
  | .error error => exact .done _
  | .ok none => exact .done _
  | .ok (some document) =>
      refine Session.ReportsTo.note .compileSchema ?_
      cases E.compileSchema document with
      | none => exact .done _
      | some run => exact (Session.reportsTo_follow run).bind fun _ => .done _

theorem logs_compileIn (schema : Loaded) :
    Attempt.Logs resolution (fun collector => compileIn collector schema)
      (heardCompiling resolution schema) :=
  Attempt.logs_of_reportsTo (fun collector => reportsTo_compileIn collector schema)
    fun collector => heard_compileIn collector schema

end

/-- What is heard while the redirects of a schema are planned, if there is a catalog that loads. -/
def heardPlanning (E : Engine) (catalog : Option String) (schema : Loaded) : List Notice :=
  (catalog.bind E.catalogAt).elim [] fun catalog => Plan.heard catalog schema

/-- The warnings that are heard while redirects are planned are logged. -/
theorem log_resolution (catalog : Option String) (schema : Loaded) {thread : Thread E}
    (hthread : thread.resolution = none) :
    ((resolution catalog schema).outcome.run thread).2.log =
      thread.log ++ Notice.warnings schema.systemId (heardPlanning E catalog schema) := by
  cases catalog with
  | none => exact (List.append_nil _).symm
  | some path =>
      obtain ⟨calls, hload⟩ := Attempt.exists_run_loadCatalog path thread
      rw [resolution, Attempt.run_bind, hload, heardPlanning, Option.bind_some]
      cases E.catalogAt path with
      | none => exact (List.append_nil _).symm
      | some catalog =>
          have hnote : (thread.note calls).resolution = none := hthread
          have hplan := Plan.log_redirects catalog schema hnote
          exact (congrArg Thread.log (Attempt.run_conclude_snd fun _ => ⟨_, rfl⟩)).trans hplan

/-- What is heard while a schema is compiled, if its redirects could be planned. -/
def heardAfter (schema : Loaded) (planned : Except ValidationError (Option (Resolution E))) :
    List Notice :=
  match planned with
  | .ok redirects => heardCompiling redirects schema
  | .error _ => []

/-- The log after the compiling of a schema that could be read. -/
theorem log_build {files : Files} {schema : Source} {loaded : Loaded}
    (hload : schema.load files = .ok loaded) (catalog : Option String) {thread : Thread E}
    (hthread : thread.resolution = none) :
    ((build files schema catalog).outcome.run thread).2.log =
      thread.log ++ Notice.warnings loaded.systemId (heardPlanning E catalog loaded) ++
        Notice.warnings loaded.systemId
          (heardAfter loaded ((resolution catalog loaded).outcome.run thread).1) := by
  have hplan := log_resolution catalog loaded hthread
  obtain ⟨_, planned, hresolves⟩ := exists_resolves (E := E) none loaded catalog
  obtain ⟨between, hrun, hbetween, -⟩ := hresolves.does thread hthread
  rw [hrun] at hplan ⊢
  rw [← hplan, build, Attempt.run_bind, Attempt.run_ofExcept, hload]
  simp only
  rw [Attempt.run_bind, hrun]
  cases planned with
  | error error => exact (List.append_nil _).symm
  | ok redirects =>
      have hcompile : Attempt.Logs none
          (fun collector => Attempt.within redirects (compileIn collector loaded))
          (heardCompiling redirects loaded) := by
        refine Attempt.Logs.within redirects ?_
        rw [Option.or_none]
        exact logs_compileIn loaded
      refine Eq.trans ?_ (hcompile.capturing loaded.systemId hbetween)
      refine congrArg Thread.log (Attempt.run_conclude_snd fun captured => ?_)
      obtain ⟨outcome, collector⟩ := captured
      match outcome with
      | .error error => exact ⟨.error error, rfl⟩
      | .ok none => exact ⟨_, rfl⟩
      | .ok (some schema) => exact ⟨_, rfl⟩

/-! ## Catalogs that resolve nothing -/

theorem heardCompiling_redirects_nil (schema : Loaded) :
    heardCompiling (E := E) (some (.redirects [])) schema = heardCompiling (E := E) none schema := by
  simp only [heardCompiling, Engine.heardParsing, Engine.parsed, Engine.find_redirects_nil]

/-- If a catalog resolves none of the references that the walk meets, and planning does not fail,
then the redirects are an empty table. -/
theorem resolution_of_unresolved {path : String} {schema : Loaded} {catalog : E.LoadedCatalog}
    (hcatalog : E.catalogAt path = some catalog)
    (hnone : ∀ move ∈ Plan.history catalog schema, move.answer catalog = none) {thread : Thread E}
    (hthread : thread.resolution = none) {redirects : Option (Resolution E)}
    (h : ((resolution (some path) schema).outcome.run thread).1 = .ok redirects) :
    redirects = some (.redirects []) := by
  obtain ⟨calls, hload⟩ := Attempt.exists_run_loadCatalog path thread
  have hnote : (thread.note calls).resolution = none := hthread
  rw [hcatalog] at hload
  rw [resolution, Attempt.run_bind, hload] at h
  simp only [Option.elim_some] at h
  rw [Attempt.run_bind] at h
  rcases hplan : (Plan.redirects catalog schema).outcome.run (thread.note calls) with
    ⟨error | table, after⟩
  · rw [hplan] at h
    cases h
  · rw [hplan] at h
    cases h
    rcases Plan.walks_of_redirects hnote (congrArg Prod.fst hplan) with
      ⟨-, rfl⟩ | ⟨document, last, -, hwalks, rfl⟩
    · rfl
    · rw [hwalks.table_eq_nil hnone]

/-- A schema that is built has had its redirects planned. -/
theorem exists_resolution_of_build {files : Files} {schema : Source} {loaded : Loaded}
    (hload : schema.load files = .ok loaded) {catalog : Option String} {thread : Thread E}
    {validator : Validator E}
    (h : ((build files schema catalog).outcome.run thread).1 = .ok validator) :
    ∃ redirects, ((resolution catalog loaded).outcome.run thread).1 = .ok redirects := by
  rw [build, Attempt.run_bind, Attempt.run_ofExcept, hload] at h
  simp only at h
  rw [Attempt.run_bind] at h
  rcases hrun : (resolution catalog loaded).outcome.run thread with ⟨error | redirects, between⟩
  · rw [hrun] at h
    cases h
  · exact ⟨redirects, rfl⟩

/-- What the compiling of a schema leaves in the log is the warnings of planning, if there is a
catalog, and then those of the compiling itself. So the log has those of the compiling alone exactly
if none is heard while redirects are planned; and that is also when a catalog that resolves nothing
leaves the log as it is without one. -/
theorem log_build_eq_iff (files : Files) (schema : Source) (catalog : Option String)
    {thread : Thread E} (hthread : thread.resolution = none) :
    let log (catalog : Option String) := ((build files schema catalog).outcome.run thread).2.log
    (∀ error, schema.load files = .error error → log catalog = thread.log) ∧
      ∀ loaded, schema.load files = .ok loaded →
        let planning := heardPlanning E catalog loaded
        let compiling := Notice.warnings loaded.systemId
          (heardAfter loaded ((resolution catalog loaded).outcome.run thread).1)
        log catalog = thread.log ++ Notice.warnings loaded.systemId planning ++ compiling ∧
          (log catalog = thread.log ++ compiling ↔ ∀ notice ∈ planning, notice.level ≠ 1) ∧
          ∀ path entries, catalog = some path → E.catalogAt path = some entries →
            (∀ move ∈ Plan.history entries loaded, move.answer entries = none) →
              (∃ validator, ((build files schema catalog).outcome.run thread).1 = .ok validator) →
                (log catalog = log none ↔ ∀ notice ∈ planning, notice.level ≠ 1) := by
  intro log
  refine ⟨fun error hload => ?_, fun loaded hload => ?_⟩
  · simp only [log]
    rw [build, Attempt.run_bind, Attempt.run_ofExcept, hload]
  · intro planning compiling
    have hlog : log catalog =
        thread.log ++ Notice.warnings loaded.systemId planning ++ compiling :=
      log_build hload catalog hthread
    have hsilent : log catalog = thread.log ++ compiling ↔
        ∀ notice ∈ planning, notice.level ≠ 1 := by
      rw [hlog, List.append_left_inj, List.append_right_eq_self, Notice.warnings_eq_nil_iff]
    refine ⟨hlog, hsilent, ?_⟩
    rintro path entries rfl hentries hnone ⟨validator, hbuild⟩
    obtain ⟨redirects, hredirects⟩ := exists_resolution_of_build hload hbuild
    have hwithout : log none = thread.log ++ compiling := by
      have hnil : Notice.warnings loaded.systemId (heardPlanning E none loaded) = [] := rfl
      have hplain : ((resolution (E := E) none loaded).outcome.run thread).1 = .ok none := rfl
      have hsame : compiling =
          Notice.warnings loaded.systemId (heardCompiling (E := E) none loaded) := by
        rw [← heardCompiling_redirects_nil, ← resolution_of_unresolved hentries hnone hthread
          hredirects]
        simp only [compiling, hredirects, heardAfter]
      refine (log_build hload none hthread).trans ?_
      rw [hnil, List.append_nil, hplain, hsame]
      rfl
    rw [hwithout]
    exact hsilent

/-- An engine that parses anything, not without a warning, and finds no references there. -/
def cautious : Engine :=
  { uniform mixed with
    loadCatalog := fun _ => some ()
    parse := fun _ _ => .report .thread ⟨1, none, 1, 1, some (.ofString "odd\n")⟩ (.done (some ()))
    opensXPath := fun _ => true
    registers := fun _ _ _ => true
    evaluate := fun _ _ _ => some none
    select := fun _ _ => some []
    compileSchema := fun _ => some (.done (some ())) }

/-- This catalog has nothing to resolve, since the root has no references; still the log is another. -/
theorem log_build_eq_iff_cautious :
    let run (catalog : Option String) :=
      (build (E := cautious) noFiles (.memory [] "s.xsd") catalog).outcome.run Thread.fresh
    (run (some "c.xml")).1 = .ok ⟨(), "s.xsd"⟩ ∧ (run none).1 = .ok ⟨(), "s.xsd"⟩ ∧
      (run (some "c.xml")).2.log ≠ (run none).2.log := by
  have hfresh : (Thread.fresh : Thread cautious).resolution = none := rfl
  have hnone : ∀ move ∈ Plan.history (E := cautious) () ⟨[], "s.xsd"⟩,
      move.answer (E := cautious) () = none := by
    intro move hmove
    cases hmove
  obtain ⟨-, hloaded⟩ := log_build_eq_iff noFiles (.memory [] "s.xsd") (some "c.xml") hfresh
  obtain ⟨-, -, hcatalog⟩ := hloaded ⟨[], "s.xsd"⟩ rfl
  refine ⟨rfl, rfl, fun hsame => ?_⟩
  have hsilent := (hcatalog "c.xml" () rfl rfl hnone ⟨_, rfl⟩).1 hsame
  exact hsilent _ List.mem_cons_self rfl

/-- A warning about the root is heard once while the schema is compiled, but with a catalog it is
logged twice. -/
theorem log_build_cautious :
    let log (catalog : Option String) :=
      ((build (E := cautious) noFiles (.memory [] "s.xsd") catalog).outcome.run Thread.fresh).2.log
    let compiling := Notice.warnings "s.xsd" (heardAfter ⟨[], "s.xsd"⟩
      ((resolution (E := cautious) (some "c.xml") ⟨[], "s.xsd"⟩).outcome.run Thread.fresh).1)
    let odd : LogRecord := ⟨.warn, "odd", [("location", .text "s.xsd:1:1")]⟩
    compiling = [odd] ∧ log none = [odd] ∧ log (some "c.xml") = [odd, odd] ∧
      log (some "c.xml") ≠ (Thread.fresh : Thread cautious).log ++ compiling := by
  refine ⟨rfl, rfl, rfl, fun hlog => ?_⟩
  have hlength : 2 = 1 := congrArg List.length hlog
  contradiction

end Validator

end Schema

end Conformance
