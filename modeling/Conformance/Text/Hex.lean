/-!
# Digits to base sixteen
-/

namespace Conformance

namespace Hex

/-- One digit, in lower case. -/
def digit (n : Nat) : Char :=
  if n < 10 then Char.ofNat (48 + n) else Char.ofNat (87 + n)

/-- The value of a digit, in either case. -/
def value? (c : Char) : Option Nat :=
  let n := c.toNat
  if 48 ≤ n ∧ n ≤ 57 then some (n - 48)
  else if 97 ≤ n ∧ n ≤ 102 then some (n - 87)
  else if 65 ≤ n ∧ n ≤ 70 then some (n - 55)
  else none

/-- A digit reads back as its value. -/
theorem value?_digit : ∀ n < 16, value? (digit n) = some n := by decide

/-- The number that digits stand for, most significant first. -/
def number? (digits : List Char) : Option Nat :=
  digits.foldlM (fun value c => (value? c).map (value * 16 + ·)) 0

end Hex

end Conformance
