import Conformance.Json.Basic

/-!
# Writing JSON

Two layouts of one value: `Json.compact` on one line without blanks, and `Json.pretty` with one
item or member a line, indented by two blanks for each level, an empty array or object staying
on its line.
-/

namespace Conformance

namespace Json

/-! ## One line -/

mutual

/-- A value without blanks. -/
def compactChars : Json → List Char
  | .null => "null".toList
  | .bool true => "true".toList
  | .bool false => "false".toList
  | .number digits => digits.toList
  | .string literal => literal.written
  | .array [] => ['[', ']']
  | .array (item :: items) => '[' :: compactChars item ++ compactItems items
  | .object [] => ['{', '}']
  | .object ((name, value) :: members) =>
    '{' :: name.written ++ ':' :: compactChars value ++ compactMembers members

/-- The items after the first, and the closing bracket. -/
def compactItems : List Json → List Char
  | [] => [']']
  | item :: items => ',' :: compactChars item ++ compactItems items

/-- The members after the first, and the closing brace. -/
def compactMembers : List (Literal × Json) → List Char
  | [] => ['}']
  | (name, value) :: members =>
    ',' :: name.written ++ ':' :: compactChars value ++ compactMembers members

end

/-- A value on one line without blanks. -/
def compact (value : Json) : String :=
  String.ofList value.compactChars

/-! ## One line for each part -/

/-- The start of a line at a level. -/
def newLine (level : Nat) : List Char :=
  '\n' :: List.replicate (2 * level) ' '

mutual

/-- A value whose first line stands at a level. -/
def prettyChars (level : Nat) : Json → List Char
  | .null => "null".toList
  | .bool true => "true".toList
  | .bool false => "false".toList
  | .number digits => digits.toList
  | .string literal => literal.written
  | .array [] => ['[', ']']
  | .array (item :: items) =>
    '[' :: newLine (level + 1) ++ prettyChars (level + 1) item ++ prettyItems level items
  | .object [] => ['{', '}']
  | .object ((name, value) :: members) =>
    '{' :: newLine (level + 1) ++ name.written ++ ':' :: ' ' :: prettyChars (level + 1) value ++
      prettyMembers level members

/-- The items after the first, and the closing bracket on its own line. -/
def prettyItems (level : Nat) : List Json → List Char
  | [] => newLine level ++ [']']
  | item :: items =>
    ',' :: newLine (level + 1) ++ prettyChars (level + 1) item ++ prettyItems level items

/-- The members after the first, and the closing brace on its own line. -/
def prettyMembers (level : Nat) : List (Literal × Json) → List Char
  | [] => newLine level ++ ['}']
  | (name, value) :: members =>
    ',' :: newLine (level + 1) ++ name.written ++ ':' :: ' ' :: prettyChars (level + 1) value ++
      prettyMembers level members

end

/-- A value with one line for each part. -/
def pretty (value : Json) : String :=
  String.ofList (value.prettyChars 0)

end Json

end Conformance
