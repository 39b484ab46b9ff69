import Conformance.Json.Basic

/-!
# Violations

A violation is one defect of a document: where it is and what is wrong. It is written as a line,
or as a JSON object of two members.
-/

namespace Conformance

/-- One reported defect of a document. -/
structure Violation where
  location : String
  message : String
deriving DecidableEq, Repr

namespace Violation

/-- The violation as a line, without its end. -/
def line (violation : Violation) : String :=
  "location: " ++ violation.location ++ " message: " ++ violation.message

/-- The violation as an object. -/
def toJson (violation : Violation) : Json :=
  .ofMembers [("location", .ofString violation.location), ("message", .ofString violation.message)]

/-! ## Reading -/

/-- The value of the one member of a name; nothing if there is none or more than one. -/
def only? (name : String) (members : List (String × Json)) : Option Json :=
  match members.filter (·.1 == name) with
  | [(_, value)] => some value
  | _ => none

/-- A violation from an object that has both members once and perhaps others, or from an array
of the two texts. Names must be texts, also those that are passed over. -/
def ofJson? : Json → Option Violation
  | .object members => do
    let members ← members.mapM fun (name, value) => name.text?.map (·, value)
    let location ← (← only? "location" members).text?
    let message ← (← only? "message" members).text?
    return ⟨location, message⟩
  | .array [location, message] => do
    return ⟨← location.text?, ← message.text?⟩
  | _ => none

/-- Violations from an array of them. -/
def listOfJson? : Json → Option (List Violation)
  | .array items => items.mapM ofJson?
  | _ => none

end Violation

end Conformance
