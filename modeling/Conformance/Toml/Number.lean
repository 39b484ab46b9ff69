import Conformance.Toml.Basic

/-!
# Numbers in TOML

An integer is decimal with or without a sign, or to the base 16, 8 or 2 after `0x`, `0o` or `0b`
without one. A fraction has a point, an exponent or both. Underscores may stand between digits
(`Toml.ungrouped?`), and a decimal number begins with a zero only if that is all of its whole
part.

After the first underscore of a decimal integer only the neighbours of underscores are looked at,
and after the mark of a base there need not be digits. So what stands here for an integer may
turn out not to be one.
-/

namespace Conformance

namespace Toml

/-! ## Underscores -/

/-- The characters without their underscores, given the one before them; nothing if an underscore
does not stand between two digits. -/
def ungrouped? (isDigit : Char → Bool) : Char → List Char → Option (List Char)
  | _, [] => some []
  | previous, c :: rest =>
    if c = '_' then
      if isDigit previous && rest.head?.any isDigit then ungrouped? isDigit c rest else none
    else (ungrouped? isDigit c rest).map (c :: ·)

/-- A number with its sign and without its underscores. -/
def ungroupedNumber? (isDigit : Char → Bool) (sign : Option Char) (cs : List Char) :
    Option (List Char) :=
  (ungrouped? isDigit '_' cs).map (sign.toList ++ ·)

/-! ## Integers -/

/-- The base that two characters announce, and what follows them. -/
def base? : List Char → Option (Nat × List Char)
  | '0' :: 'x' :: rest => some (16, rest)
  | '0' :: 'o' :: rest => some (8, rest)
  | '0' :: 'b' :: rest => some (2, rest)
  | _ => none

/-- An integer after the mark of its base. -/
def based? (base : Nat) (cs : List Char) : Option Toml :=
  if cs.all fun c => c = '_' || isDigitOf base c then
    (ungrouped? (isDigitOf 16) '_' cs).map (.integer base)
  else none

/-- A decimal integer after its sign. -/
def decimal? (sign : Option Char) (cs : List Char) : Option Toml :=
  if cs.head? = some '0' ∧ cs ≠ ['0'] then none
  else (ungroupedNumber? (isDigitOf 16) sign cs).map (.integer 10)

/-! ## Fractions -/

/-- What follows a run of digits and underscores. There has to be a digit; more than one may begin
with a zero only where zeros do not matter. -/
def afterDigits? (zerosMatter : Bool) (cs : List Char) : Option (List Char) :=
  let isPart (c : Char) : Bool := c.isDigit || c = '_'
  let run := cs.takeWhile isPart
  let count := (run.filter Char.isDigit).length
  if count = 0 ∨ zerosMatter ∧ 1 < count ∧ run.head? = some '0' then none
  else some (cs.dropWhile isPart)

/-- What follows a point and its digits, if a point stands here. -/
def afterFraction? : List Char → Option (List Char)
  | '.' :: rest => afterDigits? false rest
  | cs => some cs

/-- What follows an exponent, if one stands here. -/
def afterExponent? : List Char → Option (List Char)
  | [] => some []
  | c :: rest =>
    if Decimal.isExponentMark c then afterDigits? false (signed rest).2 else some (c :: rest)

/-- A fraction after its sign. -/
def fraction? (sign : Option Char) (cs : List Char) : Option Toml := do
  let rest ← afterExponent? (← afterFraction? (← afterDigits? true cs))
  if rest.isEmpty then return .float (← ungroupedNumber? Char.isDigit sign cs) else none

end Toml

end Conformance
