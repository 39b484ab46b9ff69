import Conformance.Json.Printer
import Conformance.Text.Choice
import Conformance.Violation

/-!
# Reports

The violations of one document go out as one text, either a line for each to standard error or
one JSON array to standard output. A stream takes a text whole or not at all (`Sink.write`), so a
report goes out whole or not at all.
-/

namespace Conformance

/-- The form of a report. -/
inductive ReportFormat where
  | human
  | json
deriving DecidableEq, Repr

instance : Inhabited ReportFormat := ⟨.human⟩

instance : Choice ReportFormat where
  all := [.human, .json]
  name
    | .human => "human"
    | .json => "json"

/-- The text of a report. -/
def ReportFormat.text (format : ReportFormat) (violations : List Violation) : String :=
  match format with
  | .human => String.join (violations.map fun violation => violation.line ++ "\n")
  | .json => (Json.array (violations.map Violation.toJson)).pretty ++ "\n"

/-! ## Sinks -/

/-- Why a report was not written. -/
inductive WriteError where
  | full
deriving DecidableEq, Repr

/-- The wording of a refused write. -/
def WriteError.message : WriteError → String
  | .full => "writer is full"

/-- A stream with what was written to it and, perhaps, the number of octets that it takes. -/
structure Sink where
  limit : Option Nat
  written : String
deriving DecidableEq, Repr

namespace Sink

/-- A stream that takes everything. -/
def unlimited : Sink := ⟨none, ""⟩

/-- Whether a stream has room for a text. -/
def admits (sink : Sink) (text : String) : Bool :=
  sink.limit.all fun limit => sink.written.utf8ByteSize + text.utf8ByteSize ≤ limit

/-- Writes a text to a stream, which takes all of it or nothing. -/
def write (sink : Sink) (text : String) : Except WriteError Unit × Sink :=
  if sink.admits text then (.ok (), { sink with written := sink.written ++ text })
  else (.error .full, sink)

end Sink

/-- The two streams of a program. -/
structure Streams where
  out : Sink
  err : Sink
deriving DecidableEq, Repr

namespace ReportFormat

/-- Writes a report to the stream of its form, and gives both streams as they are then. -/
def deliver (format : ReportFormat) (violations : List Violation) (streams : Streams) :
    Except WriteError Unit × Streams :=
  match format with
  | .human =>
    let (outcome, err) := streams.err.write (format.text violations)
    (outcome, { streams with err })
  | .json =>
    let (outcome, out) := streams.out.write (format.text violations)
    (outcome, { streams with out })

/-- The streams with a report, or why it was refused. -/
def write (format : ReportFormat) (violations : List Violation) (streams : Streams) :
    Except WriteError Streams :=
  let (outcome, after) := format.deliver violations streams
  outcome.map fun _ => after

end ReportFormat

end Conformance
