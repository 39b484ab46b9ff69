import Conformance.Catalog.Lookup
import Conformance.Diagnostic

/-!
# Engines

An engine parses documents, compiles schemas and transforms, looks into documents with XPath and
reads catalogs. What this library asks of one is the structure `Engine`; nothing is assumed of
the answers except that the documents which can be read are finitely many, and what the types of
its fields assume.

An engine call that takes time is a `Run`: on the way to its value it may report notices and may
ask for entities, which are not the engine's own to find.
-/

namespace Conformance

/-- Which handler a notice is for: the one of the thread, or the one of the context that the
engine works in. -/
inductive Channel where
  | thread
  | context
deriving DecidableEq, Repr

/-- What an engine does in the course of one call. -/
inductive Run (Entity : Type) (α : Type) where
  | done (value : α)
  | report (channel : Channel) (notice : Notice) (next : Run Entity α)
  | fetch (url publicId : Option RawText) (next : Option Entity → Run Entity α)

namespace Run

variable {Entity α β : Type}

/-- A call with a call after it. -/
def bind (run : Run Entity α) (next : α → Run Entity β) : Run Entity β :=
  match run with
  | .done value => next value
  | .report channel notice rest => .report channel notice (rest.bind next)
  | .fetch url publicId rest => .fetch url publicId fun entity => (rest entity).bind next

instance : Monad (Run Entity) where
  pure := .done
  bind := bind

/-- A call that reports notices and does nothing else. -/
def reporting (notices : List (Channel × Notice)) (value : α) : Run Entity α :=
  notices.foldr (fun (channel, notice) rest => .report channel notice rest) (.done value)

/-- A call that asks for entities and passes over what it gets. -/
def loading (loads : List (Option RawText × Option RawText)) (next : Run Entity α) :
    Run Entity α :=
  loads.foldr (fun (url, publicId) rest => .fetch url publicId fun _ => rest) next

/-- What a call gives when entities are found in one way. -/
def value (find : Option RawText → Option RawText → Option Entity) : Run Entity α → α
  | .done value => value
  | .report _ _ next => next.value find
  | .fetch url publicId next => (next (find url publicId)).value find

end Run

/-- An XML engine. Its fields are functions, which is to assume that no call changes what a later one
finds: files and entities that change in between make another engine of it. And a field that is no
`Run` cannot report a notice, which is to assume that none is reported by the loading of a catalog,
by a lookup in one, by XPath, or by the opening of an entity that is not found. -/
structure Engine where
  LoadedCatalog : Type
  Entity : Type
  Document : Type
  Node : Type
  Schema : Type
  Stylesheet : Type
  /-- The catalog at a path. -/
  loadCatalog : String → Option LoadedCatalog
  /-- The answer of a catalog to one lookup. -/
  answer : LoadedCatalog → Catalog.Lookup → Option RawText
  /-- A reference resolved against a base. -/
  buildUri : (reference base : String) → Option RawText
  /-- The entity of a URL and a public id, as found without any redirection. -/
  openEntity : (url publicId : Option RawText) → Option Entity
  /-- Parses what was read under a URL. -/
  parse : Octets → (url : String) → Run Entity (Option Document)
  /-- Parses an entity that was opened under a URL. -/
  parseEntity : Entity → (url : String) → Run Entity (Option Document)
  /-- Whether XPath can be used on a document. -/
  opensXPath : Document → Bool
  /-- Whether a namespace gets a name there. -/
  registers : Document → (name uri : String) → Bool
  /-- The nodes that an expression selects, in document order. -/
  select : Document → (expression : String) → Option (List Node)
  /-- The text that an expression gives on a node or on the whole document. -/
  evaluate : Document → Option Node → (expression : String) → Option (Option RawText)
  /-- Compiles a schema; nothing if the work cannot even begin. -/
  compileSchema : Document → Option (Run Entity (Option Schema))
  /-- Whether documents can be validated against a schema. -/
  canValidate : Schema → Bool
  /-- Whether a document can be buffered. -/
  canBuffer : Octets → Bool
  /-- Validates what was read under a system id, and gives a return code. -/
  stream : Schema → Octets → (systemId : String) → Run Entity Int32
  /-- Compiles a transform. -/
  compileStylesheet : Document → Run Entity (Option Stylesheet)
  /-- Applies a transform. -/
  apply : Stylesheet → Document → Run Entity (Option Document)
  /-- The URLs under which there may be a document. -/
  library : List String
  /-- There is none under any other, though there may be an entity that is no document. -/
  mem_library : ∀ url, hasNul url = false →
    ((openEntity (some (.ofString url)) none).bind fun entity =>
      (parseEntity entity url).value openEntity).isSome → url ∈ library

namespace Engine

/-- The answer of a catalog as text. A key with a NUL cannot be passed on and has no answer. -/
def ask (E : Engine) (catalog : E.LoadedCatalog) (lookup : Catalog.Lookup) : Option String :=
  if hasNul lookup.key then none else (E.answer catalog lookup).map RawText.lossy

end Engine

end Conformance
