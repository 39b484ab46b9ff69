/-!
# Lookups in a catalog

A catalog maps identifiers to local copies in three tables. It is asked one key at a time, and a
request is a list of lookups of which the first answer counts.
-/

namespace Conformance

namespace Catalog

/-- The tables of a catalog. -/
inductive Table where
  | publicIds
  | systemIds
  | uris
deriving DecidableEq, Repr

/-- One question to a catalog. -/
structure Lookup where
  table : Table
  key : String
deriving DecidableEq, Repr

/-- The first answer to a list of lookups. -/
def search (answer : Lookup → Option String) (lookups : List Lookup) : Option String :=
  lookups.findSome? answer

/-- The lookups that are made on the way to the first answer, its own included. -/
def consulted (answer : Lookup → Option String) : List Lookup → List Lookup
  | [] => []
  | lookup :: rest =>
    lookup :: if (answer lookup).isSome then [] else consulted answer rest

/-! ## Entries held in memory -/

/-- The entries of a catalog, by table. -/
structure Entries where
  publicIds : List (String × String)
  systemIds : List (String × String)
  uris : List (String × String)
deriving DecidableEq, Repr

namespace Entries

/-- The entries of one table. -/
def table (entries : Entries) : Table → List (String × String)
  | .publicIds => entries.publicIds
  | .systemIds => entries.systemIds
  | .uris => entries.uris

/-- The entry of exactly this key. -/
def answer (entries : Entries) (lookup : Lookup) : Option String :=
  (entries.table lookup.table).lookup lookup.key

end Entries

end Catalog

end Conformance
