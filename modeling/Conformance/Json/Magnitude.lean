import Conformance.Text.Decimal

/-!
# The size of numbers in JSON

A number of a document becomes a 64-bit binary fraction in two steps, each of which rounds: its
leading digits are taken for a whole number of at most 64 bits, and that is multiplied by a power
of ten. A number that becomes infinite on the way has no size, and that happens to some numbers
that are not too large as they are written.
-/

namespace Conformance

namespace Json

/-- A whole number times a power of ten. -/
structure Magnitude where
  significand : Nat
  exponent : Int
deriving Repr

namespace Magnitude

/-- The significand with the digits that it can take in 64 bits, and the digits from the first
that it cannot. -/
def extend (significand : Nat) : List Char → Nat × List Char
  | [] => (significand, [])
  | c :: rest =>
    let longer := significand * 10 + Decimal.digit c
    if longer < Nat.pow 2 64 then extend longer rest else (significand, c :: rest)

/-- The magnitude of a decimal number. Digits before the point that do not fit leave their places
behind, those after it leave nothing; a digit after the point may fit where one before it did
not. -/
def ofDecimal (number : Decimal) : Magnitude :=
  let (leading, surplus) := extend 0 number.whole
  let (significand, rest) := extend leading number.fraction
  ⟨significand, number.exponent + surplus.length + rest.length - number.fraction.length⟩

/-- The nearest whole number with 53 leading binary digits and zeros after them; of two, the one
whose last digit is even. -/
def round (n : Nat) : Nat :=
  let unit := Nat.pow 2 (n.log2 - 52)
  let count := n / unit
  let excess := 2 * (n % unit)
  if unit < excess ∨ unit = excess ∧ count % 2 = 1 then (count + 1) * unit else count * unit

/-- The largest exponent whose power of ten is a binary fraction. -/
def exponentLimit : Int := 308

/-- Whether a magnitude becomes infinite: the significand and the power of ten are rounded before
they are multiplied. A negative exponent makes nothing larger. -/
def isInfinite (size : Magnitude) : Bool :=
  size.significand ≠ 0 ∧
    (exponentLimit < size.exponent ∨
      0 ≤ size.exponent ∧
        Decimal.overflow ≤ round size.significand * round (Nat.pow 10 size.exponent.toNat))

end Magnitude

end Json

end Conformance
