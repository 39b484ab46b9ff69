import Conformance.Json.Basic
import Conformance.Json.Magnitude

/-!
# Values without remainders

Where a whole document is taken in, every part of it has to make sense: each string and name has
a text, each number has a size, and arrays and objects are not nested more than 127 deep.
-/

namespace Conformance

namespace Json

/-- How deep arrays and objects may be nested. -/
def depthLimit : Nat := 127

/-- Whether a number has a size. -/
def isNumber (digits : String) : Bool :=
  !(Magnitude.ofDecimal (.ofWritten digits.toList)).isInfinite

mutual

/-- Whether every part of a value makes sense, nested at most so deep. -/
def isStrict (depth : Nat) : Json → Bool
  | .null => true
  | .bool _ => true
  | .number digits => isNumber digits
  | .string literal => literal.text?.isSome
  | .array items => 0 < depth && areStrict (depth - 1) items
  | .object members => 0 < depth && membersAreStrict (depth - 1) members

/-- Whether every part of some values makes sense. -/
def areStrict (depth : Nat) : List Json → Bool
  | [] => true
  | item :: items => isStrict depth item && areStrict depth items

/-- Whether every part of some members makes sense. -/
def membersAreStrict (depth : Nat) : List (Literal × Json) → Bool
  | [] => true
  | (name, value) :: members =>
    name.text?.isSome && isStrict depth value && membersAreStrict depth members

end

end Json

end Conformance
