import Conformance.Json.Quoted

/-!
# JSON values

A value keeps what was written: the members of an object in order and with repetitions, numbers
as their digits, strings as their bodies. What a reader makes of that, such as which of two
members of one name counts, is decided where the value is used.
-/

namespace Conformance

/-- A JSON value as written. -/
inductive Json where
  | null
  | bool (value : Bool)
  | number (digits : String)
  | string (literal : Json.Literal)
  | array (items : List Json)
  | object (members : List (Json.Literal × Json))
deriving Repr

namespace Json

/-! ## Building -/

/-- The string of a text. -/
def ofString (text : String) : Json :=
  .string (Literal.ofString text)

/-- The number of an integer. -/
def ofInt (value : Int) : Json :=
  .number (toString value)

/-- The object of named members. -/
def ofMembers (members : List (String × Json)) : Json :=
  .object (members.map fun (name, value) => (Literal.ofString name, value))

/-- The text if there is one, else `null`. -/
def ofText? (text : Option String) : Json :=
  text.elim .null ofString

/-! ## Looking into a value -/

/-- The text of a string. -/
def text? : Json → Option String
  | .string literal => literal.text?
  | _ => none

/-- The truth value. -/
def bool? : Json → Option Bool
  | .bool value => some value
  | _ => none

/-- The integer of a number written without fraction and exponent. -/
def int? : Json → Option Int
  | .number digits => digits.toInt?
  | _ => none

/-- The items of an array, none for anything else. -/
def items : Json → List Json
  | .array items => items
  | _ => []

/-- The members of an object, none for anything else. -/
def members : Json → List (Literal × Json)
  | .object members => members
  | _ => []

/-- The value of the last member of a name. -/
def get? (value : Json) (name : String) : Option Json :=
  (value.members.reverse.find? fun member => member.1.text? == some name).map (·.2)

/-- The value of the last member of a name, `null` if there is none. -/
def get (value : Json) (name : String) : Json :=
  (value.get? name).getD .null

/-- The members whose names are texts. -/
def entries (value : Json) : List (String × Json) :=
  value.members.filterMap fun (name, value) => name.text?.map (·, value)

end Json

end Conformance
