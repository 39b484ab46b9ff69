import Conformance.Engine.Query
import Conformance.Engine.Session

/-!
# References between schema documents

A schema pulls in others by include, import and redefine elements. Each gives a location. An
element of the second kind gives the namespace it brings in as well; the other two bring in more
of the namespace of the schema they stand in. An element without a location refers to nothing.
-/

namespace Conformance

namespace Schema

/-- A reference to another schema document. -/
structure Reference where
  namespaceUri : String
  location : String
deriving DecidableEq, Repr

namespace Reference

variable {E : Engine}

/-- The reference of one element of a document, if the element has a location. -/
def ofNode? (document : E.Document) (targetNamespace : String) (node : E.Node) :
    Attempt E (Option Reference) := do
  let location ← Attempt.evaluate document (some node) Query.schemaLocation
  if location.isEmpty then return none
  let kind ← Attempt.evaluate document (some node) Query.localName
  if kind == "import" then
    let imported ← Attempt.evaluate document (some node) Query.importedNamespace
    return some ⟨imported, location⟩
  return some ⟨targetNamespace, location⟩

/-- The references of elements of a document, in their order. -/
def ofNodes (document : E.Document) (targetNamespace : String) :
    List E.Node → Attempt E (List Reference)
  | [] => pure []
  | node :: nodes => do
    let reference ← ofNode? document targetNamespace node
    let references ← ofNodes document targetNamespace nodes
    return reference.toList ++ references

/-- The references of a document, in document order. -/
def ofDocument (document : E.Document) : Attempt E (List Reference) := do
  Attempt.openXPath document
  Attempt.register document Query.schemaPrefix Catalog.schemaNamespace
  let targetNamespace ← Attempt.evaluate document none Query.targetNamespace
  let nodes ← Attempt.select document Query.composition
  ofNodes document targetNamespace nodes

/-- What a catalog is asked for a reference in the document at a base. -/
def request (reference : Reference) (base : String) : Catalog.Request where
  kind := .schema
  namespaceUri := reference.namespaceUri
  publicId := none
  systemId := reference.location
  base := some base

end Reference

end Schema

end Conformance
