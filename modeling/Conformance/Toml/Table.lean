import Conformance.Toml.Basic

/-!
# Building tables

A document adds to its tables statement by statement. What may be added where follows from how a
table came to be:

* a header opens a new table, or one that only longer headers have named, each table once;
* a header in double brackets adds a table to an array that such headers made;
* a dotted key adds to a table that dotted keys made, and its last part is new there;
* what stands between braces or brackets is closed.

Where a path leads through an array that headers made, it leads through the last table of it.
-/

namespace Conformance

namespace Toml

/-- The entries of a table, in order. -/
abbrev Entries := List (String × Toml)

/-- The entries with another value for a key that they have. -/
def Entries.set (entries : Entries) (key : String) (value : Toml) : Entries :=
  entries.map fun entry => if entry.1 = key then (key, value) else entry

/-- A change to the entries of a table, which may be refused. -/
abbrev Change := Standing → Entries → Option Entries

/-- Makes a change to the table at the end of a path, and the tables on the way where there is
nothing yet. A path of a dotted key does not lead through a table that a header opened. -/
def change (dotted : Bool) (path : List String) (apply : Change) : Change :=
  match path with
  | [] => apply
  | key :: path => fun _ entries =>
    let inner := change dotted path apply
    match entries.lookup key with
    | none => do
      let standing := if dotted then .dotted else .implied
      return entries ++ [(key, .table standing (← inner standing []))]
    | some (.table standing below) =>
      if standing = .braces ∨ dotted ∧ standing = .header then none
      else do return entries.set key (.table standing (← inner standing below))
    | some (.array items true) =>
      match items.getLast? with
      | some (.table standing below) => do
        return entries.set key
          (.array (items.dropLast ++ [.table standing (← inner standing below)]) true)
      | _ => none
    | some _ => none

/-- Adds an entry under a key of one or more parts. -/
def addEntry (path : List String) (key : String) (value : Toml) : Change :=
  change (!path.isEmpty) path fun standing entries =>
    if (standing == .dotted) == path.isEmpty then none
    else if (entries.lookup key).isSome then none
    else some (entries ++ [(key, value)])

/-- Opens the table of a header. -/
def openTable (path : List String) (key : String) : Change :=
  change false path fun _ entries =>
    match entries.lookup key with
    | none => some (entries ++ [(key, .table .header [])])
    | some (.table .implied below) => some (entries.set key (.table .header below))
    | some _ => none

/-- Adds a table for a header in double brackets. -/
def openItem (path : List String) (key : String) : Change :=
  change false path fun _ entries =>
    match entries.lookup key with
    | none => some (entries ++ [(key, .array [.table .header []] true)])
    | some (.array items true) =>
      some (entries.set key (.array (items ++ [.table .header []]) true))
    | some _ => none

/-- A key of one or more parts. -/
structure Key where
  path : List String
  last : String
deriving DecidableEq, Repr

/-- The parts of a key. -/
def Key.parts (key : Key) : List String := key.path ++ [key.last]

/-- One statement of a document. -/
inductive Statement where
  | entry (key : Key) (value : Toml)
  | header (key : Key)
  | itemHeader (key : Key)

/-- A document in progress: its entries, and the table that further entries go to. -/
structure Draft where
  entries : Entries
  current : List String

/-- The document after one more statement. -/
def Draft.add (draft : Draft) : Statement → Option Draft
  | .entry key value =>
    (change false draft.current (addEntry key.path key.last value) .header draft.entries).map
      fun entries => { draft with entries }
  | .header key =>
    (openTable key.path key.last .header draft.entries).map (⟨·, key.parts⟩)
  | .itemHeader key =>
    (openItem key.path key.last .header draft.entries).map (⟨·, key.parts⟩)

/-- The table of the statements of a document. -/
def ofStatements? (statements : List Statement) : Option Toml :=
  (statements.foldlM Draft.add ⟨[], []⟩).map fun draft => .table .header draft.entries

/-- The table of the entries between braces. -/
def ofBraces? (entries : List (Key × Toml)) : Option Toml :=
  let add (table : Entries) (entry : Key × Toml) : Option Entries :=
    addEntry entry.1.path entry.1.last entry.2 .header table
  (entries.foldlM add []).map (.table .braces)

end Toml

end Conformance
