import Conformance.Catalog.Request
import Conformance.Engine.Basic

/-!
# Where an entity is loaded from

While a schema is compiled, the URLs that the engine asks for are redirected by a table that was
planned before; while a transform runs, they are looked up in a catalog. Either way an answer is
final: it is not redirected again.
-/

namespace Conformance

/-- URLs and what is loaded in place of each. -/
abbrev RedirectTable := List (String × String)

namespace RedirectTable

/-- What is loaded in place of a URL. -/
def target? (table : RedirectTable) (url : String) : Option String :=
  table.lookup url

/-- The table with an entry for a URL, unless there is one already. -/
def add (table : RedirectTable) (url target : String) : RedirectTable :=
  if (table.target? url).isSome then table else table ++ [(url, target)]

end RedirectTable

/-- How the entities of a thread are redirected. -/
inductive Resolution (E : Engine) where
  | redirects (table : RedirectTable)
  | catalog (catalog : E.LoadedCatalog)

namespace Resolution

variable {E : Engine}

/-- What is loaded in place of a URL, if anything else is. -/
def redirect (resolution : Resolution E) (url : String) (publicId : Option String) :
    Option String :=
  match resolution with
  | .redirects table => table.target? url
  | .catalog loaded => Catalog.search (E.ask loaded) (Catalog.uriLookups url publicId)

/-- The lookups that are made in a catalog for this. -/
def consulted (resolution : Resolution E) (url : String) (publicId : Option String) :
    List Catalog.Lookup :=
  match resolution with
  | .redirects _ => []
  | .catalog loaded => Catalog.consulted (E.ask loaded) (Catalog.uriLookups url publicId)

end Resolution

end Conformance
