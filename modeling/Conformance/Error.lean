import Conformance.File.Error

/-!
# Errors

Violations are results. An error is a failure that leaves no result: an input that cannot be
read, a catalog that does not load, rules that do not compile, an engine that gives up, or a
configuration that does not hold.
-/

namespace Conformance

/-! ## Failures of an engine -/

/-- Why an engine call gives no answer. -/
inductive EngineError where
  | schemaRefused
  | noValidationContext
  | validationAborted (code : Int32) (systemId : String)
  | outOfMemory
  | inputTooLarge (size : Nat)
  | nulInText (text : String)
  | query (expression : String)
  | transform (systemId : String)
deriving DecidableEq, Repr

/-- The wording of an engine failure. -/
def EngineError.message : EngineError → String
  | .schemaRefused => "Schema parsing failed: null pointer returned"
  | .noValidationContext => "Validation context creation failed"
  | .validationAborted code systemId =>
    "Document validation failed with code " ++ toString code.toInt ++ ": " ++ systemId
  | .outOfMemory => "Memory allocation failed in libxml2"
  | .inputTooLarge size => "Input too large for libxml2: " ++ toString size ++ " bytes"
  | .nulInText text => "String contains an interior NUL byte: " ++ text
  | .query expression => "XPath evaluation failed: " ++ expression
  | .transform systemId => "Transform execution failed: " ++ systemId

/-! ## Failures of a validation -/

/-- What a failure is about. -/
inductive ErrorKind where
  | input
  | compilation
  | engine
  | configuration
deriving DecidableEq, Repr

/-- Why a validation gives no result. -/
inductive ValidationError where
  | unreadable (path : String) (cause : FileError)
  | catalog (path : String)
  | compilation (source details : String)
  | engine (details : String)
  | configuration (details : String)
deriving DecidableEq, Repr

namespace ValidationError

/-- What the failure is about. -/
def kind : ValidationError → ErrorKind
  | .unreadable .. | .catalog .. => .input
  | .compilation .. => .compilation
  | .engine .. => .engine
  | .configuration .. => .configuration

/-- The wording of a failure. -/
def message : ValidationError → String
  | .unreadable path cause => "IO error: " ++ path ++ " - " ++ cause.message
  | .catalog path => "Catalog could not be loaded: " ++ path
  | .compilation source details => "Compilation error: " ++ source ++ " - " ++ details
  | .engine details => "Engine internal error: " ++ details
  | .configuration details => "Configuration error: " ++ details

/-- The cause behind a failure, if it has one of its own. -/
def cause? : ValidationError → Option FileError
  | .unreadable _ cause => some cause
  | _ => none

/-- A failure followed by its cause, each after the first behind a colon. -/
def chain (error : ValidationError) : String :=
  error.message ++ (error.cause?.elim "" fun cause => ": " ++ cause.message)

end ValidationError

/-- An engine failure as the failure of a validation. -/
def EngineError.toValidation (error : EngineError) : ValidationError :=
  .engine error.message

end Conformance
