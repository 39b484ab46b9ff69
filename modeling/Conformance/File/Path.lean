import Conformance.Text.Utf8

/-!
# Paths

A path is cut at its slashes. Two paths are the same if their components are: empty segments and
inner dots do not count, a leading dot and a leading slash do.

What is named on a command line is a text, and so is most of what a system has; but a path of the
system may be any octets, and its extension may then be no text.
-/

namespace Conformance

namespace Path

/-- What stands between the slashes. -/
def segments {α : Type} [DecidableEq α] (slash : α) : List α → List (List α)
  | [] => [[]]
  | c :: cs =>
    if c = slash then [] :: segments slash cs
    else
      match segments slash cs with
      | [] => [[c]]
      | segment :: rest => (c :: segment) :: rest

/-- The texts between the slashes of a path. -/
def parts (path : String) : List String :=
  (segments '/' path.toList).map String.ofList

/-- A part of a path that counts. -/
inductive Component where
  | root
  | here
  | parent
  | name (name : String)
deriving DecidableEq, Repr

/-- The component of a segment, if it counts wherever it stands. -/
def component? (segment : String) : Option Component :=
  if segment = "" ∨ segment = "." then none
  else if segment = ".." then some .parent
  else some (.name segment)

/-- The components of a path. -/
def components (path : String) : List Component :=
  match parts path with
  | [] => []
  | first :: rest =>
    let start : List Component :=
      if first = "" then (if rest.isEmpty then [] else [.root])
      else if first = "." then [.here]
      else (component? first).toList
    start ++ rest.filterMap component?

/-- Whether a path starts from the root. -/
def isAbsolute (path : String) : Bool :=
  path.toList.head? == some '/'

/-- Whether two paths have the same components. -/
def same (first second : String) : Bool :=
  components first == components second

end Path

/-! ## Paths that need not be text -/

/-- A path as the system has it. -/
structure RawPath where
  octets : Octets
deriving DecidableEq, Repr

namespace RawPath

/-- The path that a text is. -/
def ofString (text : String) : RawPath :=
  ⟨Utf8.encode text⟩

instance : Coe String RawPath := ⟨ofString⟩

/-- The text of a path, if it is one. -/
def text? (path : RawPath) : Option String :=
  Utf8.decode? path.octets

/-- The octet of a slash. -/
def slash : UInt8 := 0x2F

/-- The octet of a dot. -/
def dot : UInt8 := 0x2E

/-- The last part of a path that counts, if it is a name. -/
def fileName? (path : RawPath) : Option Octets :=
  let last := (Path.segments slash path.octets).reverse.find? fun part => part ≠ [] ∧ part ≠ [dot]
  last.filter (· ≠ [dot, dot])

/-- What follows the last dot of the file name. A dot at the start of the name does not count. -/
def suffix? (path : RawPath) : Option Octets := do
  let reversed := (← path.fileName?).reverse
  match reversed.dropWhile (· ≠ dot) with
  | _ :: _ :: _ => return (reversed.takeWhile (· ≠ dot)).reverse
  | _ => none

/-- The extension of a path: what follows the last dot, if it is a text. -/
def extension? (path : RawPath) : Option String :=
  path.suffix?.bind Utf8.decode?

/-- The path of a name in a directory. -/
def join (directory : RawPath) (name : String) : RawPath :=
  if directory.octets = [] ∨ directory.octets.getLast? = some slash then
    ⟨directory.octets ++ Utf8.encode name⟩
  else ⟨directory.octets ++ slash :: Utf8.encode name⟩

end RawPath

end Conformance
