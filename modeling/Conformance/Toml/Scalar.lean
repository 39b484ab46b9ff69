import Conformance.Toml.Moment
import Conformance.Toml.Number

/-!
# Unquoted values in TOML

An unquoted value is a truth value, a number or a moment. Which of them it is shows in what
follows its first digits: a dash or a colon makes a moment, a point or the mark of an exponent a
fraction, an underscore or nothing an integer.
-/

namespace Conformance

namespace Toml

/-- A number or a moment, given the value with its sign and without. It begins with a digit, after
the sign if there is one. -/
def measured? (cs : List Char) (sign : Option Char) (unsigned : List Char) : Option Toml :=
  if !unsigned.head?.any Char.isDigit then none
  else
    match unsigned.dropWhile Char.isDigit with
    | [] => decimal? sign unsigned
    | c :: rest =>
      if c = '-' ∨ c = ':' then
        if isMoment cs then some (.moment (String.ofList cs)) else none
      else if (c :: rest).contains ' ' then none
      else if (c :: rest).any fun c => c = '.' || Decimal.isExponentMark c then
        fraction? sign unsigned
      else if c = '_' then decimal? sign unsigned
      else none

/-- An unquoted value. -/
def scalar? (cs : List Char) : Option Toml :=
  let (sign, unsigned) := signed cs
  if cs = "true".toList then some (.boolean true)
  else if cs = "false".toList then some (.boolean false)
  else if unsigned = "inf".toList ∨ unsigned = "nan".toList then some (.float cs)
  else
    match base? unsigned with
    | some (base, digits) => if sign.isSome then none else based? base digits
    | none => measured? cs sign unsigned

end Toml

end Conformance
