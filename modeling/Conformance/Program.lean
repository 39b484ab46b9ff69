import Conformance.CommandLine.Invocation
import Conformance.Schema.Validator
import Conformance.Schematron.Validator

/-!
# The program

One run reads the command line, loads the configuration, builds a validator, validates the
document and writes the report. It succeeds only if the document has no violation and the report
was written.

The error stream carries the log and the report for human readers; the output stream carries
nothing but the JSON report. The output stream may refuse what is written to it (`Sink`). The error
stream is taken to accept everything: when it does not, there is nowhere left to say so, and what
becomes of the run then is not described here.

Of the log, all records of the levels up to `LogLevel.info` are there. Those for debugging and
tracing are not: a run at one of these levels is described as one at the level of `info`.
-/

namespace Conformance

namespace Program

/-! ## What a run leaves -/

/-- One piece of what goes to the error stream. -/
inductive Emission where
  | record (format : LogFormat) (record : LogRecord)
  | text (text : String)
deriving DecidableEq, Repr

/-- A piece as it is written. -/
def Emission.written : Emission → String
  | .record .text entry => entry.line ++ "\n"
  | .record .json entry => entry.toJson.compact ++ "\n"
  | .text written => written

/-- What a run that began leaves: whether it succeeded, and its two streams. -/
structure Result where
  succeeded : Bool
  out : String
  err : List Emission
deriving DecidableEq, Repr

/-- What a command line leads to. -/
inductive Outcome where
  | refused (refusal : CommandLine.Refusal)
  | ran (result : Result)
deriving DecidableEq, Repr

/-- The exit status: zero for success and for help, else one. -/
def Outcome.status : Outcome → UInt32
  | .refused refusal => if refusal.isMisuse then 1 else 0
  | .ran result => if result.succeeded then 0 else 1

/-! ## Validation -/

/-- An error together with what could not be done because of it. -/
structure Failure where
  task : String
  error : ValidationError
deriving DecidableEq, Repr

/-- The wording of a failure: the task, the error and its cause. -/
def Failure.message (failure : Failure) : String :=
  failure.task ++ ": " ++ failure.error.chain

variable {E : Engine}

/-- Names the task that an attempt is for. -/
def attempting {α : Type} (task : String) (attempt : Attempt E α) :
    Session E (Except Failure α) :=
  attempt.outcome.bind fun outcome => .done (outcome.mapError (⟨task, ·⟩))

/-- The task of validating a document. -/
def validating (invocation : CommandLine.Invocation) : String :=
  "Failed to validate " ++ invocation.xml

/-- Builds the validator of a command and validates the document. -/
def validate (files : Files) (invocation : CommandLine.Invocation) (catalog : Option String) :
    Session E (Except Failure (List Violation)) :=
  match invocation.command with
  | .schema =>
    (attempting ("Failed to load schema " ++ invocation.rules)
      (Schema.Validator.build files (.file invocation.rules) catalog)).bind fun
        | .error failure => .done (.error failure)
        | .ok validator =>
          attempting (validating invocation) (validator.validate files (.file invocation.xml))
  | .schematron =>
    attempting (validating invocation)
      (Schematron.Validator.validate ⟨.file invocation.rules, catalog⟩ files
        (.file invocation.xml))

/-! ## The run -/

/-- The record of a finished validation. -/
def finished (document : String) (violations : List Violation) : LogRecord :=
  ⟨.info, "Validation finished",
    [("document", .text document), ("violations", .count violations.length)]⟩

/-- The records of a log that are written. -/
def logged (config : Config) (log : List LogRecord) : List Emission :=
  (log.filter fun record => config.logLevel.admits record.level).map (.record config.logFormat)

/-- The end of a run with violations, or with none, after a log. -/
def report (out : Sink) (config : Config) (log : List LogRecord) (violations : List Violation) :
    Result :=
  match config.reportFormat.write violations ⟨out, .unlimited⟩ with
  | .ok streams =>
    ⟨violations.isEmpty, streams.out.written,
      logged config log ++ (if streams.err.written = "" then [] else [.text streams.err.written])⟩
  | .error error =>
    ⟨false, out.written,
      logged config (log ++ [⟨.error, "Failed to write report: " ++ error.message, []⟩])⟩

/-- A run that has its configuration. -/
def runWith (E : Engine) (files : Files) (out : Sink) (invocation : CommandLine.Invocation)
    (config : Config) : Result :=
  let (outcome, thread) := (validate files invocation config.catalog).run (Thread.fresh : Thread E)
  match outcome with
  | .ok violations =>
    report out config (thread.log ++ [finished invocation.xml violations]) violations
  | .error failure =>
    ⟨false, out.written, logged config (thread.log ++ [⟨.error, failure.message, []⟩])⟩

/-- The answer to the question for the version. -/
def version : String := "xml-schemer 0.1.0\n"

/-- A run from the words of its command line. It succeeds in giving its version also if the output
stream refuses it. -/
def run (E : Engine) (files : Files) (environment : Environment) (out : Sink)
    (words : List String) : Outcome :=
  match CommandLine.parse files words with
  | .error .version => .ran ⟨true, (out.write version).2.written, []⟩
  | .error refusal => .refused refusal
  | .ok invocation =>
    match Config.load files environment invocation.config invocation.overrides with
    | .error error =>
      .ran ⟨false, out.written, [.text ("Configuration error: " ++ error.message ++ "\n")]⟩
    | .ok config => .ran (runWith E files out invocation config)

end Program

end Conformance
