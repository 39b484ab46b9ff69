/-!
# Queries

The XPath expressions that are put to an engine, and the one namespace that they use.
-/

namespace Conformance

namespace Query

/-- The name that schema elements have in the expressions below. -/
def schemaPrefix : String := "xs"

/-- The elements of a schema that pull another schema document in. -/
def composition : String :=
  "/xs:schema/xs:include | /xs:schema/xs:import | /xs:schema/xs:redefine"

/-- The namespace that a schema defines. -/
def targetNamespace : String := "string(/xs:schema/@targetNamespace)"

/-- The location that a reference gives. -/
def schemaLocation : String := "string(@schemaLocation)"

/-- The kind of a reference. -/
def localName : String := "local-name()"

/-- The namespace that an import gives. -/
def importedNamespace : String := "string(@namespace)"

/-- The failed assertions of a Schematron report. -/
def failedAsserts : String := "//*[local-name()='failed-assert']"

/-- The place that a failed assertion gives. -/
def assertLocation : String := "string(@location)"

/-- The text of a failed assertion. -/
def assertText : String := "string(.)"

end Query

end Conformance
