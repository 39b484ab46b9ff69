import Conformance.Log
import Conformance.Text.Blank
import Conformance.Text.Raw
import Conformance.Violation

/-!
# Diagnostics

An engine reports what it finds as notices: a level, a place and a message, the texts raw. A
notice of a known level is a diagnostic: warnings are logged, errors and fatal errors become
violations.

The place of a diagnostic is `file:line:column`. A notice whose file is missing or not well
formed is placed in the document that is being read.
-/

namespace Conformance

/-- How serious a diagnostic is. -/
inductive Severity where
  | warning
  | error
  | fatal
deriving DecidableEq, Repr

/-- A located finding. -/
structure Diagnostic where
  severity : Severity
  location : String
  message : String
deriving DecidableEq, Repr

namespace Diagnostic

/-- What a diagnostic leaves in the log: a warning for a warning, nothing otherwise. -/
def logged? (diagnostic : Diagnostic) : Option LogRecord :=
  match diagnostic.severity with
  | .warning => some ⟨.warn, diagnostic.message, [("location", .text diagnostic.location)]⟩
  | .error | .fatal => none

/-- What a diagnostic adds to the violations: itself unless it is a warning. -/
def violation? (diagnostic : Diagnostic) : Option Violation :=
  match diagnostic.severity with
  | .warning => none
  | .error | .fatal => some ⟨diagnostic.location, diagnostic.message⟩

end Diagnostic

/-! ## Notices -/

/-- A finding as an engine reports it. Level, line and column are 32-bit integers. -/
structure Notice where
  level : Int32
  file : Option RawText
  line : Int32
  column : Int32
  message : Option RawText
deriving DecidableEq, Repr

namespace Notice

/-- The severity of a level: 1 is a warning, 2 an error, 3 fatal; others are not known. -/
def severity? (notice : Notice) : Option Severity :=
  if notice.level = 1 then some .warning
  else if notice.level = 2 then some .error
  else if notice.level = 3 then some .fatal
  else none

/-- The file of the place, a default standing in for one that cannot be read. -/
def fileOr (notice : Notice) (default : String) : String :=
  (notice.file.bind RawText.text?).getD default

/-- The place as `file:line:column`. -/
def location (notice : Notice) (default : String) : String :=
  notice.fileOr default ++ ":" ++ toString notice.line.toInt ++ ":" ++ toString notice.column.toInt

/-- The message without blanks at its ends, empty if it cannot be read. -/
def text (notice : Notice) : String :=
  trimmed ((notice.message.bind RawText.text?).getD "")

/-- The diagnostic of a notice met in the document named by a system id. -/
def diagnostic? (notice : Notice) (systemId : String) : Option Diagnostic :=
  notice.severity?.map fun severity => ⟨severity, notice.location systemId, notice.text⟩

end Notice

end Conformance
