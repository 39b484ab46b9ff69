/-!
# Choices by name

A setting that has a few fixed values is chosen by the name of one of them, either as written or
without regard to the case of ASCII letters.

The form of a report may also be asked for in the cases of all of Unicode. That is the same: outside
ASCII only the sign of the kelvin has a letter of ASCII alone for its small letter, the `k`, and
neither name of a form has one.
-/

namespace Conformance

/-- A type of finitely many values, each with a name in lower case. -/
class Choice (α : Type) where
  all : List α
  name : α → String

namespace Choice

variable {α : Type} [Choice α]

/-- The value of exactly this name. -/
def named? (text : String) : Option α :=
  (all : List α).find? fun value => name value == text

/-- The text with its ASCII letters in lower case. -/
def folded (text : String) : String :=
  String.ofList (text.toList.map Char.toLower)

/-- The value of this name in any case. -/
def namedFolded? (text : String) : Option α :=
  named? (folded text)

end Choice

end Conformance
