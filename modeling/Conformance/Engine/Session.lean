import Conformance.Engine.Thread
import Conformance.Source

/-!
# Sessions

A session is what a validator does on a thread, one action after another. It is a value, so that
the actions of several threads can be told apart; `Session.run` performs it on one thread.

Handlers and resolutions are only ever changed by `Session.capturing` and `Session.within`,
which undo the change whatever happens in between.
-/

namespace Conformance

/-- Actions on a thread, and the value they lead to. -/
inductive Session (E : Engine) (α : Type) where
  | done (value : α)
  | note (call : Call) (next : Session E α)
  | collect (systemId : String) (next : Nat → Session E α)
  | collected (collector : Nat) (next : Collector → Session E α)
  | install (collector : Nat) (next : Session E α)
  | uninstall (next : Session E α)
  | report (context : Option Nat) (channel : Channel) (notice : Notice) (next : Session E α)
  | enter (resolution : Resolution E) (next : Option (Resolution E) → Session E α)
  | restore (previous : Option (Resolution E)) (next : Session E α)
  | fetch (url publicId : Option RawText) (next : Option E.Entity → Session E α)

namespace Session

variable {E : Engine} {α β : Type}

/-- A session with a session after it. -/
def bind (session : Session E α) (after : α → Session E β) : Session E β :=
  match session with
  | .done value => after value
  | .note call next => .note call (next.bind after)
  | .collect systemId next => .collect systemId fun collector => (next collector).bind after
  | .collected collector next => .collected collector fun state => (next state).bind after
  | .install collector next => .install collector (next.bind after)
  | .uninstall next => .uninstall (next.bind after)
  | .report context channel notice next => .report context channel notice (next.bind after)
  | .enter resolution next => .enter resolution fun previous => (next previous).bind after
  | .restore previous next => .restore previous (next.bind after)
  | .fetch url publicId next => .fetch url publicId fun entity => (next entity).bind after

instance : Monad (Session E) where
  pure := .done
  bind := bind

/-- Performs a session on a thread. -/
def run (session : Session E α) (thread : Thread E) : α × Thread E :=
  match session with
  | .done value => (value, thread)
  | .note call next => next.run (thread.note [call])
  | .collect systemId next =>
    let (collector, thread) := thread.collect systemId
    (next collector).run thread
  | .collected collector next => (next (thread.collected collector)).run thread
  | .install collector next => next.run (thread.install collector)
  | .uninstall next => next.run thread.uninstall
  | .report context channel notice next => next.run (thread.report context channel notice)
  | .enter resolution next =>
    let (previous, thread) := thread.enter resolution
    (next previous).run thread
  | .restore previous next => next.run (thread.restore previous)
  | .fetch url publicId next =>
    let (entity, thread) := thread.fetch url publicId
    (next entity).run thread

/-! ## Brackets -/

/-- Runs a body with a new collector installed, and gives what the collector then holds. -/
def capturing (systemId : String) (body : Nat → Session E α) : Session E (α × Collector) :=
  .collect systemId fun collector =>
    .install collector <| (body collector).bind fun value =>
      .uninstall <| .collected collector fun state => .done (value, state)

/-- Runs a body with a resolution in force, if there is one. -/
def within (resolution : Option (Resolution E)) (body : Session E α) : Session E α :=
  match resolution with
  | none => body
  | some resolution =>
    .enter resolution fun previous => body.bind fun value => .restore previous (.done value)

/-! ## Calls -/

/-- Follows an engine through a call that works in the context of a collector. -/
def follow (context : Option Nat) : Run E.Entity α → Session E α
  | .done value => .done value
  | .report channel notice next => .report context channel notice (follow context next)
  | .fetch url publicId next =>
    .note (.load url publicId) <| .fetch url publicId fun entity => follow context (next entity)

/-- Loads an entity of which nothing is used. -/
def load (url publicId : Option RawText) : Session E Unit :=
  .note (.load url publicId) <| .fetch url publicId fun _ => .done ()

/-- Puts lookups to a catalog until one is answered. -/
def search (catalog : E.LoadedCatalog) (lookups : List Catalog.Lookup) : Session E (Option String) :=
  ((Catalog.consulted (E.ask catalog) lookups).filter fun lookup => !hasNul lookup.key).foldr
    (fun lookup next => .note (.lookup lookup) next)
    (.done (Catalog.search (E.ask catalog) lookups))

end Session

/-! ## Calls that can fail -/

/-- A session that ends in a value or in an error. -/
abbrev Attempt (E : Engine) (α : Type) := ExceptT ValidationError (Session E) α

namespace Attempt

variable {E : Engine} {α : Type}

/-- An attempt as the session that shows its outcome. -/
def outcome (attempt : Attempt E α) : Session E (Except ValidationError α) :=
  ExceptT.run attempt

/-- A session as an attempt that does not fail. -/
def lift (session : Session E α) : Attempt E α :=
  ExceptT.lift session

/-- An outcome as an attempt. -/
def ofExcept (outcome : Except ValidationError α) : Attempt E α :=
  ExceptT.mk (.done outcome)

/-- The failure of an engine call. -/
def fail (error : EngineError) : Attempt E α :=
  throw error.toValidation

/-- Fails unless a condition holds. -/
def ensure (condition : Bool) (error : EngineError) : Attempt E Unit :=
  if condition then pure () else fail error

/-- Fails with a text that the engine would take to end early. -/
def ensurePassable (text : String) : Attempt E Unit :=
  ensure (!hasNul text) (.nulInText text)

/-- The greatest size that is a 32-bit integer. -/
def sizeLimit : Nat := 2147483647

/-- Fails with an input whose size is not a 32-bit integer. -/
def ensureSize (octets : Octets) : Attempt E Unit :=
  ensure (octets.length ≤ sizeLimit) (.inputTooLarge octets.length)

/-- Runs an attempt with a new collector installed. The collector comes with the outcome,
whatever that is. -/
def capturing (systemId : String) (body : Nat → Attempt E α) :
    Attempt E (Except ValidationError α × Collector) :=
  lift (Session.capturing systemId fun collector => (body collector).outcome)

/-- Runs an attempt with a resolution in force, if there is one. -/
def within (resolution : Option (Resolution E)) (body : Attempt E α) : Attempt E α :=
  ExceptT.mk (Session.within resolution body.outcome)

/-- Loads the catalog at a path. -/
def loadCatalog (path : String) : Attempt E E.LoadedCatalog := do
  if hasNul path then throw (.catalog path)
  lift (.note (.catalog path) (.done ()))
  match E.loadCatalog path with
  | some catalog => pure catalog
  | none => throw (.catalog path)

/-- Resolves a reference against a base. -/
def buildUri (reference base : String) : Attempt E (Option String) := do
  ensurePassable reference
  ensurePassable base
  pure ((E.buildUri reference base).map RawText.lossy)

/-- Parses what was read under a URL. -/
def parse (octets : Octets) (url : String) : Attempt E (Option E.Document) := do
  ensureSize octets
  ensurePassable url
  lift (.note (.parse url) (Session.follow none (E.parse octets url)))

/-- Reads and parses the document at a URL. -/
def read (url : String) : Attempt E (Option E.Document) := do
  ensurePassable url
  lift <| .note (.read url) <| .fetch (some (.ofString url)) none fun
    | none => .done none
    | some entity => Session.follow none (E.parseEntity entity url)

/-! ## XPath -/

/-- Makes a document ready for queries. -/
def openXPath (document : E.Document) : Attempt E Unit := do
  lift (.note .openXPath (.done ()))
  ensure (E.opensXPath document) .outOfMemory

/-- Gives a namespace a name in queries on a document. -/
def register (document : E.Document) (name uri : String) : Attempt E Unit := do
  lift (.note (.register name uri) (.done ()))
  ensure (E.registers document name uri) (.query ("xmlns:" ++ name ++ "=" ++ uri))

/-- The nodes that an expression selects. -/
def select (document : E.Document) (expression : String) : Attempt E (List E.Node) := do
  lift (.note (.select expression) (.done ()))
  match E.select document expression with
  | some nodes => pure nodes
  | none => fail (.query expression)

/-- The text that an expression gives. -/
def evaluate (document : E.Document) (node : Option E.Node) (expression : String) :
    Attempt E String := do
  lift (.note (.evaluate expression) (.done ()))
  match E.evaluate document node expression with
  | some text => pure (text.elim "" RawText.lossy)
  | none => fail (.query expression)

/-! ## Schemas and transforms -/

/-- Compiles a schema in the context of a collector. A schema that does not compile gives
nothing; what is wrong with it has been reported. -/
def compileSchema (collector : Nat) (document : E.Document) : Attempt E (Option E.Schema) := do
  lift (.note .compileSchema (.done ()))
  match E.compileSchema document with
  | some run => lift (Session.follow (some collector) run)
  | none => fail .outOfMemory

/-- Validates a document in the context of a collector, and gives the return code. -/
def stream (collector : Nat) (schema : E.Schema) (document : Loaded) : Attempt E Int32 := do
  ensureSize document.octets
  ensurePassable document.systemId
  ensure (E.canValidate schema) .noValidationContext
  ensure (E.canBuffer document.octets) .outOfMemory
  lift <| .note (.stream document.systemId) <|
    Session.follow (some collector) (E.stream schema document.octets document.systemId)

/-- Compiles a transform. -/
def compileStylesheet (document : E.Document) : Attempt E (Option E.Stylesheet) :=
  lift (.note .compileStylesheet (Session.follow none (E.compileStylesheet document)))

/-- Applies a transform. -/
def apply (stylesheet : E.Stylesheet) (document : E.Document) : Attempt E (Option E.Document) :=
  lift (.note .apply (Session.follow none (E.apply stylesheet document)))

end Attempt

end Conformance
