import Conformance.Json.Basic
import Conformance.Text.Choice
import Conformance.Toml.Basic

/-!
# Settings

A configuration file is JSON or TOML. A setting is a value of either, reduced to what a
configuration can tell apart; `Dialect` says in which points the two still differ.

* `Dialect.fields` : a record, from a table by name or from a list by position;
* `Dialect.choice?` : a choice, from its name alone or from a table of one entry.
-/

namespace Conformance

/-- A value of a configuration file. Numbers and the like are all `other`, because no setting is
one of them; what stands for a number and is none is `malformed`, because it is refused wherever
it is looked at. -/
inductive Setting where
  | nothing
  | text (value : String)
  | list (items : List Setting)
  | table (entries : List (String × Setting))
  | other
  | malformed
deriving Repr

namespace Setting

/-! ## From either format -/

mutual

/-- The setting of a JSON value. A string without a text is no text, and an object with such a
name is no table. -/
def ofJson : Json → Setting
  | .null => .nothing
  | .bool _ | .number _ => .other
  | .string literal => literal.text?.elim .other .text
  | .array items => .list (ofJsonItems items)
  | .object members => (ofJsonMembers? members).elim .other .table

/-- The settings of the items of an array. -/
def ofJsonItems : List Json → List Setting
  | [] => []
  | item :: items => ofJson item :: ofJsonItems items

/-- The settings of the members of an object, if every name is a text. -/
def ofJsonMembers? : List (Json.Literal × Json) → Option (List (String × Setting))
  | [] => some []
  | (name, value) :: members =>
    match name.text?, ofJsonMembers? members with
    | some name, some entries => some ((name, ofJson value) :: entries)
    | _, _ => none

end

mutual

/-- The setting of a TOML value. A moment is a table of one entry, under a name that no record and
no choice has. -/
def ofToml : Toml → Setting
  | .text value => .text value
  | .integer base digits => if (Toml.integer base digits).isNumber then .other else .malformed
  | .float digits => if (Toml.float digits).isNumber then .other else .malformed
  | .boolean _ => .other
  | .moment written => .table [("$moment", .text written)]
  | .array items _ => .list (ofTomlItems items)
  | .table _ entries => .table (ofTomlEntries entries)

/-- The settings of the items of an array. -/
def ofTomlItems : List Toml → List Setting
  | [] => []
  | item :: items => ofToml item :: ofTomlItems items

/-- The settings of the entries of a table. -/
def ofTomlEntries : List (String × Toml) → List (String × Setting)
  | [] => []
  | (name, value) :: entries => (name, ofToml value) :: ofTomlEntries entries

end

/-- The text of a setting. -/
def text? : Setting → Option String
  | .text value => some value
  | _ => none

/-! ## Soundness -/

mutual

/-- Whether nothing in a setting is malformed. -/
def isSound : Setting → Bool
  | .malformed => false
  | .nothing | .text _ | .other => true
  | .list items => areSound items
  | .table entries => haveSound entries

/-- Whether nothing in some settings is malformed. -/
def areSound : List Setting → Bool
  | [] => true
  | item :: items => isSound item && areSound items

/-- Whether nothing in the settings of some entries is malformed. -/
def haveSound : List (String × Setting) → Bool
  | [] => true
  | (_, setting) :: entries => isSound setting && haveSound entries

end

end Setting

/-- Where the formats differ. -/
structure Dialect where
  /-- Whether a list may be longer than the record that it stands for. -/
  acceptsSurplus : Bool
  /-- Whether a setting may stand behind the name of a choice in a table. -/
  isUnit : Setting → Bool

namespace Dialect

/-- In JSON nothing may be left over, and `null` stands behind a choice. -/
def json : Dialect where
  acceptsSurplus := false
  isUnit
    | .nothing => true
    | _ => false

/-- In TOML the rest of a list is not looked at, and an empty table or list stands behind a
choice. -/
def toml : Dialect where
  acceptsSurplus := true
  isUnit
    | .table [] | .list [] => true
    | _ => false

/-- The only entry of a name, if there is one; a second one is refused. -/
def entry? (name : String) (entries : List (String × Setting)) : Option (Option Setting) :=
  match entries.filter (·.1 == name) with
  | [] => some none
  | [(_, setting)] => some (some setting)
  | _ => none

/-- The fields of a record, in the order of their names, those that are given. Entries of other
names are passed over, but what they hold has to be sound. -/
def fields (dialect : Dialect) (names : List String) :
    Setting → Option (List (Option Setting))
  | .table entries =>
    if Setting.haveSound (entries.filter fun entry => !names.contains entry.1) then
      names.mapM fun name => entry? name entries
    else none
  | .list items =>
    if items.length ≤ names.length ∨ dialect.acceptsSurplus then
      some ((items.map some ++ List.replicate names.length none).take names.length)
    else none
  | _ => none

/-- A choice by name. -/
def choice? {α : Type} [Choice α] (dialect : Dialect) : Setting → Option α
  | .text name => Choice.named? name
  | .table [(name, setting)] => if dialect.isUnit setting then Choice.named? name else none
  | _ => none

end Dialect

end Conformance
