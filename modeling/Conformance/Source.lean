import Conformance.Error
import Conformance.File.Access
import Conformance.File.Path

/-!
# Sources

A document, a schema or a transform is read from a file each time it is used, or is held in
memory under a name. The path or the name is its system id: the base of relative references and
the file of diagnostics.
-/

namespace Conformance

/-- Where an input comes from. -/
inductive Source where
  | file (path : String)
  | memory (content : Octets) (systemId : String)
deriving DecidableEq, Repr

/-- An input that has been read. -/
structure Loaded where
  octets : Octets
  systemId : String
deriving DecidableEq, Repr

namespace Source

/-- The name of a source. -/
def systemId : Source → String
  | .file path => path
  | .memory _ systemId => systemId

/-- Reads a source. -/
def load (files : Files) : Source → Except ValidationError Loaded
  | .file path =>
    match files.read path with
    | .ok octets => .ok ⟨octets, path⟩
    | .error cause => .error (.unreadable path cause)
  | .memory content systemId => .ok ⟨content, systemId⟩

/-- Whether two sources are the same: files by the components of their paths. -/
def same : Source → Source → Bool
  | .file first, .file second => Path.same first second
  | .memory content systemId, .memory content' systemId' =>
    content == content' && systemId == systemId'
  | _, _ => false

end Source

end Conformance
