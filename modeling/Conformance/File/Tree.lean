import Conformance.File.Access

/-!
# A tree of files

A tree holds files and directories by the names that lead to them from the root. A path is
followed part by part; every part but the last, and also an empty or dotted last part, is only
followed where a directory stands, and what is barred is none. The length of a path is limited, and
so is that of each part.
-/

namespace Conformance

/-- Where an entry stands: the names that lead to it from the root. -/
abbrev Place := List String

/-- Files and directories by their places, the directory that relative paths start from, and the
directory for the configuration of the user. -/
structure Tree where
  entries : List (Place × FileEntry)
  workingDirectory : Place
  configDirectory : Option Place

namespace Tree

/-- The entry at a place. The root is always a directory. -/
def at? (tree : Tree) (place : Place) : Option FileEntry :=
  if place.isEmpty then some .directory else tree.entries.lookup place

/-- The place that a part of a path leads to. -/
def next (place : Place) (part : String) : Place :=
  if part = "" ∨ part = "." then place
  else if part = ".." then place.dropLast
  else place ++ [part]

/-- How many octets a part of a path may have. -/
def partLimit : Nat := 255

/-- How many octets a path may have. -/
def pathLimit : Nat := 4095

/-- The entry that the parts of a path lead to. A part is too long only where a directory stands. -/
def follow (tree : Tree) : Place → List String → Except FileError FileEntry
  | place, [] =>
    match tree.at? place with
    | some entry => .ok entry
    | none => .error .notFound
  | place, part :: rest =>
    match tree.at? place with
    | some .directory =>
      if partLimit < part.utf8ByteSize then .error .nameTooLong
      else tree.follow (next place part) rest
    | some (.file _) | some (.device _) | some (.barred ..) => .error .notDirectory
    | none => .error .notFound

/-- The entry at a path. All names in a tree are texts, so a path that is none leads nowhere. -/
def lookup (tree : Tree) (path : RawPath) : Except FileError FileEntry :=
  if 0 ∈ path.octets then .error .nulInPath
  else if path.octets = [] then .error .notFound
  else if pathLimit < path.octets.length then .error .nameTooLong
  else
    match path.text? with
    | some text =>
      tree.follow (if Path.isAbsolute text then [] else tree.workingDirectory) (Path.parts text)
    | none => .error .notFound

/-- A place as an absolute path. -/
def pathOf (place : Place) : String :=
  "/" ++ "/".intercalate place

/-- The tree as the files of a program. -/
def files (tree : Tree) : Files where
  lookup := tree.lookup
  userDirectory := tree.configDirectory.map (pathOf ·)

/-! ## Changing a tree -/

/-- The places of the directories above a place. -/
def above : Place → List Place
  | [] => []
  | name :: rest => [] :: (above rest).map (name :: ·)

/-- The tree with an entry at a place, which replaces what stood there, and with directories
where the way to it had nothing. -/
def insert (tree : Tree) (place : Place) (entry : FileEntry) : Tree :=
  let missing := (above place).filter fun directory => (tree.at? directory).isNone
  { tree with
    entries :=
      (place, entry) :: missing.map (·, FileEntry.directory) ++
        tree.entries.filter fun (other, _) => other ≠ place }

/-- The tree without the entry at a place. -/
def erase (tree : Tree) (place : Place) : Tree :=
  { tree with entries := tree.entries.filter fun (other, _) => other ≠ place }

end Tree

end Conformance
