import Conformance.File.Error
import Conformance.File.Path

/-!
# Access to files

What a program can learn of the files of its system: what stands at a path, and where the user
keeps configuration. `Files.read`, `Files.exist` and `Files.isFile` follow from that.
-/

namespace Conformance

/-- What stands at a path: a file, a directory, or a device, which can be read like a file but is
none. What is barred is there and cannot be read, be it a file or not. -/
inductive FileEntry where
  | file (content : Octets)
  | directory
  | device (content : Octets)
  | barred (isFile : Bool) (cause : FileError)
deriving DecidableEq, Repr

/-- The files that a program sees. -/
structure Files where
  /-- What stands at a path, or why nothing can be found there. -/
  lookup : RawPath → Except FileError FileEntry
  /-- The directory for the configuration of the user, if there is one. -/
  userDirectory : Option RawPath

namespace Files

/-- The content of the file or the device at a path. -/
def read (files : Files) (path : RawPath) : Except FileError Octets :=
  match files.lookup path with
  | .ok (.file content) | .ok (.device content) => .ok content
  | .ok .directory => .error .isDirectory
  | .ok (.barred _ cause) => .error cause
  | .error error => .error error

/-- The content of the file or the device at a path, as text. -/
def readText (files : Files) (path : RawPath) : Except FileError String :=
  match files.read path with
  | .ok content =>
    match Utf8.decode? content with
    | some text => .ok text
    | none => .error .notText
  | .error error => .error error

/-- Whether there is anything at a path. -/
def exist (files : Files) (path : RawPath) : Bool :=
  match files.lookup path with
  | .ok _ => true
  | .error _ => false

/-- Whether there is a file at a path, which need not be one that can be read. -/
def isFile (files : Files) (path : RawPath) : Bool :=
  match files.lookup path with
  | .ok (.file _) => true
  | .ok (.barred isFile _) => isFile
  | _ => false

end Files

end Conformance
