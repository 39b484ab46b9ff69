import Conformance.Collector
import Conformance.Engine.Resolution

/-!
# Threads

What an engine keeps for each thread, and what happens on it: the collector that takes the
notices of the thread, if one is installed, the resolution in force, the collectors made so far,
the calls made to the engine and the log.

* `Thread.install`, `Thread.uninstall` : the handler of the thread;
* `Thread.enter`, `Thread.restore` : the resolution in force;
* `Thread.report` : a notice goes to its handler, and a warning to the log;
* `Thread.fetch` : one load of an entity, with at most one redirection.
-/

namespace Conformance

/-- One call to an engine. -/
inductive Call where
  | catalog (path : String)
  | lookup (lookup : Catalog.Lookup)
  | parse (url : String)
  | read (url : String)
  | load (url publicId : Option RawText)
  | opened (url publicId : Option RawText) (found : Bool)
  | openXPath
  | register (name uri : String)
  | select (expression : String)
  | evaluate (expression : String)
  | compileSchema
  | stream (systemId : String)
  | compileStylesheet
  | apply
deriving DecidableEq, Repr

/-- The state of a thread. A collector is known by its place among those made so far. -/
structure Thread (E : Engine) where
  handler : Option Nat
  resolution : Option (Resolution E)
  collectors : List Collector
  journal : List Call
  log : List LogRecord

namespace Thread

variable {E : Engine}

/-- A thread on which nothing has happened. -/
def fresh : Thread E :=
  ⟨none, none, [], [], []⟩

/-- Enters calls in the journal. -/
def note (thread : Thread E) (calls : List Call) : Thread E :=
  { thread with journal := thread.journal ++ calls }

/-! ## Collectors -/

/-- Makes a collector, which is known by the number of those made before. -/
def collect (thread : Thread E) (systemId : String) : Nat × Thread E :=
  (thread.collectors.length,
    { thread with collectors := thread.collectors ++ [Collector.new systemId] })

/-- What a collector holds. -/
def collected (thread : Thread E) (collector : Nat) : Collector :=
  (thread.collectors[collector]?).getD (Collector.new "")

/-- Makes a collector take the notices of the thread, in place of any other. -/
def install (thread : Thread E) (collector : Nat) : Thread E :=
  { thread with handler := some collector }

/-- Leaves the notices of the thread to nobody. -/
def uninstall (thread : Thread E) : Thread E :=
  { thread with handler := none }

/-- Hands a diagnostic to a collector, and a warning to the log. -/
def record (thread : Thread E) (collector : Nat) (diagnostic : Diagnostic) : Thread E :=
  { thread with
    collectors := thread.collectors.modify collector (·.record diagnostic)
    log := thread.log ++ diagnostic.logged?.toList }

/-- Hands a notice to a collector; one of an unknown level is lost. -/
def deliver (thread : Thread E) (collector : Nat) (notice : Notice) : Thread E :=
  match notice.diagnostic? (thread.collected collector).systemId with
  | some diagnostic => thread.record collector diagnostic
  | none => thread

/-- Hands a notice to the handler of its channel, where the second argument is the collector of
the context; without a handler it is lost. -/
def report (thread : Thread E) (context : Option Nat) (channel : Channel) (notice : Notice) :
    Thread E :=
  let handler := match channel with
    | .thread => thread.handler
    | .context => context
  match handler with
  | some collector => thread.deliver collector notice
  | none => thread

/-! ## Entities -/

/-- Puts a resolution in force, and gives the one that was. -/
def enter (thread : Thread E) (resolution : Resolution E) :
    Option (Resolution E) × Thread E :=
  (thread.resolution, { thread with resolution := some resolution })

/-- Puts an earlier resolution back. -/
def restore (thread : Thread E) (previous : Option (Resolution E)) : Thread E :=
  { thread with resolution := previous }

/-- The URL that is loaded for a URL. One that is missing or not well formed is not redirected,
and an answer that cannot be passed on does not count. -/
def target (thread : Thread E) (url publicId : Option RawText) : Option RawText :=
  match url.bind RawText.text?, thread.resolution with
  | some text, some resolution =>
    match resolution.redirect text (publicId.bind RawText.text?) with
    | some answer => if hasNul answer then url else some (.ofString answer)
    | none => url
  | _, _ => url

/-- The lookups that are made for a URL. -/
def consulted (thread : Thread E) (url publicId : Option RawText) : List Catalog.Lookup :=
  match url.bind RawText.text?, thread.resolution with
  | some text, some resolution => resolution.consulted text (publicId.bind RawText.text?)
  | _, _ => []

/-- Loads the entity of a URL. -/
def fetch (thread : Thread E) (url publicId : Option RawText) : Option E.Entity × Thread E :=
  let target := thread.target url publicId
  let entity := E.openEntity target publicId
  (entity,
    thread.note ((thread.consulted url publicId).map Call.lookup ++
      [.opened target publicId entity.isSome]))

end Thread

end Conformance
