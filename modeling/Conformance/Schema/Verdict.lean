/-!
# Verdicts

What the return code of a pass over a document says: zero that the document is valid, a positive
code that it is not, a negative one that the engine gave up.
-/

namespace Conformance

namespace Schema

/-- What a return code says. -/
inductive Verdict where
  | valid
  | invalid (count : Int32)
  | aborted (code : Int32)
deriving DecidableEq, Repr

/-- The verdict of a return code. -/
def Verdict.ofCode (code : Int32) : Verdict :=
  if code = 0 then .valid
  else if 0 < code then .invalid code
  else .aborted code

end Schema

end Conformance
