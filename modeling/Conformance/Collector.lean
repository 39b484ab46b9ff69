import Conformance.Diagnostic

/-!
# Collectors

A collector gathers the diagnostics of one pass over one document: the violations in the order
in which they arrive, and whether any of them was fatal.
-/

namespace Conformance

/-- What was found so far in a document. -/
structure Collector where
  systemId : String
  violations : List Violation
  fatalSeen : Bool
deriving DecidableEq, Repr

namespace Collector

/-- The collector of a document before anything is found. -/
def new (systemId : String) : Collector :=
  ⟨systemId, [], false⟩

/-- The collector after one more diagnostic. -/
def record (collector : Collector) (diagnostic : Diagnostic) : Collector :=
  { collector with
    violations := collector.violations ++ diagnostic.violation?.toList
    fatalSeen := collector.fatalSeen || diagnostic.severity == .fatal }

/-- Whether there is a violation. -/
def hasErrors (collector : Collector) : Bool :=
  !collector.violations.isEmpty

/-- All violations on one line, as the details of an error. -/
def summary (collector : Collector) : String :=
  "; ".intercalate (collector.violations.map fun v => v.location ++ ": " ++ v.message)

end Collector

end Conformance
