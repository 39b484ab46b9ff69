import Conformance.Catalog.Lookup

/-!
# Requests to a catalog

A schema is asked for by the namespace it contributes to and the location written in the
reference. A local location without a public id is looked up as `namespace/location`, so one
entry covers every reference to that part of a namespace, whichever document it stands in.
Other resources are asked for by their URI alone.
-/

namespace Conformance

namespace Catalog

/-- The namespace of XML Schema. -/
def schemaNamespace : String := "http://www.w3.org/2001/XMLSchema"

/-- What kind of resource is asked for. -/
inductive ResourceKind where
  | schema
  | document
deriving DecidableEq, Repr

/-- The name of a kind of resource. -/
def ResourceKind.name : ResourceKind → String
  | .schema => schemaNamespace
  | .document => "document"

/-- What is known of a resource when it is asked for. -/
structure Request where
  kind : ResourceKind
  namespaceUri : String
  publicId : Option String
  systemId : String
  base : Option String
deriving DecidableEq, Repr

/-- Whether an identifier names something on another host. -/
def isRemote (systemId : String) : Bool :=
  ["http://", "https://"].any fun scheme => scheme.toList.isPrefixOf systemId.toList

namespace Request

/-- The system id that is looked up. -/
def effectiveSystemId (request : Request) : String :=
  if request.publicId.isNone && !isRemote request.systemId then
    request.namespaceUri ++ "/" ++ request.systemId
  else request.systemId

/-- The lookups of a request: the public id if there is one, then the system id. -/
def lookups (request : Request) : List Lookup :=
  (request.publicId.map (Lookup.mk .publicIds)).toList ++
    [⟨.systemIds, request.effectiveSystemId⟩]

end Request

/-- The lookups of a resource known by its URI: the public id if there is one, then the URI among
the URIs and among the system ids. -/
def uriLookups (uri : String) (publicId : Option String) : List Lookup :=
  (publicId.map (Lookup.mk .publicIds)).toList ++ [⟨.uris, uri⟩, ⟨.systemIds, uri⟩]

end Catalog

end Conformance
