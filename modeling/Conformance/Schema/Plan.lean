import Conformance.Schema.Reference

/-!
# Planning redirects

While an engine compiles a schema it asks for the documents that the schema pulls in, but only by
URL: the namespace, by which a catalog knows them, is not part of the question. So the graph of
references is walked before, and every URL whose reference the catalog resolves is entered in a
table. The walk goes on where the table leads, because there the engine will read, and relative
references are resolved against that place.

* The walk is depth first: of the documents found, the last is looked at first.
* The first resolution of a URL stays.
* No place is read twice, so there are at most as many documents to look at as can be read, and the
  root.
* Documents on other hosts that the catalog does not know are left to the engine.
-/

namespace Conformance

namespace Schema

/-- A walk in progress: the redirects found, the places met and the documents, each with its
place, that are still to be looked at. -/
structure Plan (E : Engine) where
  table : RedirectTable
  visited : List String
  pending : List (E.Document × String)

namespace Plan

variable {E : Engine}

/-- The walk before its first step. -/
def start (root : E.Document) (place : String) : Plan E :=
  ⟨[], [place], [(root, place)]⟩

/-- The walk after a reference to a URL for which the catalog has an answer or none, and the place
that the reference leads to. A remote URL without an answer leads nowhere. -/
def direct (plan : Plan E) (url : String) (answer : Option String) : Plan E × Option String :=
  match answer with
  | some answer =>
    let table := plan.table.add url answer
    ({ plan with table }, some ((table.target? url).getD answer))
  | none => (plan, if Catalog.isRemote url then none else some url)

/-- Goes to a place: reads the document there, unless the place was met before. -/
def visit (plan : Plan E) (place : String) : Attempt E (Plan E) :=
  if plan.visited.contains place then pure plan
  else do
    let document ← Attempt.read place
    return { plan with
      visited := plan.visited ++ [place]
      pending := (document.map (·, place)).toList ++ plan.pending }

/-- Follows one reference of the document at a base. -/
def follow (catalog : E.LoadedCatalog) (base : String) (plan : Plan E) (reference : Reference) :
    Attempt E (Plan E) := do
  let built ← Attempt.buildUri reference.location base
  let url := built.getD reference.location
  let answer ← Attempt.lift (Session.search catalog (reference.request base).lookups)
  match plan.direct url answer with
  | (plan, some place) => plan.visit place
  | (plan, none) => pure plan

/-- Follows the references of the document at a base, in their order. -/
def followAll (catalog : E.LoadedCatalog) (base : String) :
    Plan E → List Reference → Attempt E (Plan E)
  | plan, [] => pure plan
  | plan, reference :: references => do
    let plan ← follow catalog base plan reference
    followAll catalog base plan references

/-- Looks at up to so many documents. -/
def walk (catalog : E.LoadedCatalog) : Nat → Plan E → Attempt E (Plan E)
  | 0, plan => pure plan
  | count + 1, plan =>
    match plan.pending with
    | [] => pure plan
    | (document, base) :: pending => do
      let references ← Reference.ofDocument document
      let plan ← followAll catalog base { plan with pending } references
      walk catalog count plan

/-- The redirects of the schema that was read. A root that cannot be parsed has none. What is
found wrong on the way is not kept: it is found again when the schema is compiled. -/
def redirects (catalog : E.LoadedCatalog) (root : Loaded) : Attempt E RedirectTable := do
  let (outcome, _) ← Attempt.capturing root.systemId fun _ => do
    match ← Attempt.parse root.octets root.systemId with
    | none => pure []
    | some document =>
      let plan ← walk catalog (E.library.length + 1) (start document root.systemId)
      return plan.table
  Attempt.ofExcept outcome

end Plan

end Schema

end Conformance
