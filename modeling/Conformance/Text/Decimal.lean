/-!
# Decimal numbers

A decimal number taken apart as it is written, and whether it is too large for a format whose
numbers are 64-bit binary fractions: such a format refuses a number that rounds to infinity, which
is one of at least `2 ^ 1024 - 2 ^ 970`, half a unit above the largest fraction.
-/

namespace Conformance

/-- A decimal number as it is written: the digits before its point, the digits after it, and its
exponent. -/
structure Decimal where
  whole : List Char
  fraction : List Char
  exponent : Int
deriving Repr

namespace Decimal

/-- The size of a digit. -/
def digit (c : Char) : Nat := c.toNat - '0'.toNat

/-- The number that digits stand for. -/
def ofDigits (digits : List Char) : Nat :=
  digits.foldl (fun value c => value * 10 + digit c) 0

/-- Whether a character begins an exponent. -/
def isExponentMark (c : Char) : Bool := c = 'e' || c = 'E'

/-- The parts of a number, written with or without a sign, a point and an exponent. Its sign is
passed over. -/
def ofWritten (cs : List Char) : Decimal :=
  let mantissa := cs.takeWhile fun c => !isExponentMark c
  let exponent := (cs.dropWhile fun c => !isExponentMark c).drop 1
  let size : Int := ofDigits (exponent.filter Char.isDigit)
  { whole := (mantissa.takeWhile (· ≠ '.')).filter Char.isDigit
    fraction := (mantissa.dropWhile (· ≠ '.')).filter Char.isDigit
    exponent := if exponent.head? = some '-' then -size else size }

/-- The least number that rounds to infinity. -/
def overflow : Nat := Nat.pow 2 1024 - Nat.pow 2 970

/-- Whether `mantissa * 10 ^ exponent` rounds to infinity. Far from the bound the number of digits
decides, so no power is formed that the size of the input does not pay for. -/
def overflows (mantissa : Nat) (exponent : Int) : Bool :=
  if mantissa = 0 then false
  else
    let digits : Int := (toString mantissa).length
    if digits + exponent > 310 then true
    else if digits + exponent < 308 then false
    else if exponent ≥ 0 then mantissa * Nat.pow 10 exponent.toNat ≥ overflow
    else mantissa ≥ overflow * Nat.pow 10 (-exponent).toNat

/-- Whether a number rounds to infinity. -/
def isInfinite (number : Decimal) : Bool :=
  overflows (ofDigits (number.whole ++ number.fraction))
    (number.exponent - number.fraction.length)

end Decimal

end Conformance
