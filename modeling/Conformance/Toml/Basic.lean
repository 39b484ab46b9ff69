import Conformance.Text.Decimal
import Conformance.Text.Hex

/-!
# TOML values

The values of a TOML document. A table keeps how it came to be, because that decides what a later
part of the document may still add to it. Numbers keep their digits: what a document holds as a
number need not be one (`Toml.isNumber`), and that matters only where the number is looked at.
-/

namespace Conformance

/-- How a table came to be: by a header of its own, by a longer header, by a dotted key, or
between braces. -/
inductive Toml.Standing where
  | header
  | implied
  | dotted
  | braces
deriving DecidableEq, Repr

/-- A TOML value. -/
inductive Toml where
  | text (value : String)
  /-- The digits of an integer to a base, perhaps after a sign. -/
  | integer (base : Nat) (digits : List Char)
  /-- The digits of a fraction, or the name of an infinite one or of none at all. -/
  | float (digits : List Char)
  | boolean (value : Bool)
  /-- A date, a time of day or both, as written. -/
  | moment (written : String)
  /-- An array, and whether headers in double brackets made it and may add to it. -/
  | array (items : List Toml) (extensible : Bool)
  | table (standing : Toml.Standing) (entries : List (String × Toml))
deriving Repr

namespace Toml

/-- A sign, if one stands here, and what follows it. -/
def signed : List Char → Option Char × List Char
  | '-' :: rest => (some '-', rest)
  | '+' :: rest => (some '+', rest)
  | cs => (none, cs)

/-- Whether a digit belongs to a base up to sixteen. -/
def isDigitOf (base : Nat) (c : Char) : Bool :=
  (Hex.value? c).any (· < base)

/-- The number that digits to a base stand for, if there are some and all of them are digits. -/
def numberOf? (base : Nat) (digits : List Char) : Option Nat :=
  if digits.isEmpty ∨ !digits.all (isDigitOf base) then none
  else some (digits.foldl (fun value c => value * base + (Hex.value? c).getD 0) 0)

/-- The integer that digits to a base stand for after a sign, if it fits into 128 bits. -/
def integerOf? (base : Nat) (cs : List Char) : Option Int := do
  let (sign, digits) := signed cs
  let size ← numberOf? base digits
  let value : Int := if sign = some '-' then -size else size
  if -(Nat.pow 2 127) ≤ value ∧ value < Nat.pow 2 128 then return value else none

/-- Whether a value that stands for a number is one: an integer has to fit into 128 bits, and a
fraction must not round to infinity. Other values pass. -/
def isNumber : Toml → Bool
  | .integer base digits => (integerOf? base digits).isSome
  | .float digits => !(Decimal.ofWritten digits).isInfinite
  | _ => true

end Toml

end Conformance
