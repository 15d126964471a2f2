import TolerantXml.Text.Blank
import TolerantXml.Tree.Document

/-!
# Namespaces and schema hints

Namespaces are declared by attributes of an element, and hold for it and everything in it. The
document element may name the schemas of its namespaces.
-/

namespace TolerantXml

/-- The attribute that declares the default namespace. -/
def xmlnsName : Text := ['x', 'm', 'l', 'n', 's']

/-- The attribute that declares the namespace of a prefix. -/
def xmlnsOf (qualifier : Text) : Text := xmlnsName ++ ':' :: qualifier

/-- The namespace of the attributes that give schema hints. -/
def schemaInstanceNamespace : Text := "http://www.w3.org/2001/XMLSchema-instance".toList

/-- The local name of the hint for namespaces. -/
def schemaLocationName : Text := "schemaLocation".toList

/-- The local name of the hint for elements without a namespace. -/
def noNamespaceSchemaLocationName : Text := "noNamespaceSchemaLocation".toList

/-- The words of a list in pairs; a word without a partner is left out. -/
def pairs : List Text → List (Text × Text)
  | first :: second :: rest => (first, second) :: pairs rest
  | _ => []

namespace Document

/-- The namespace of an element: the value of the nearest declaration of its prefix, on it or on
an ancestor. -/
def namespaceUri (doc : Document) (id : Nat) : Option Text := do
  let element ← (doc.node id).kind.element?
  let declaration := (element.qualifier.map xmlnsOf).getD xmlnsName
  (doc.path id).findSome? fun node ↦ do
    Attribute.valueOf? (← (doc.node node).kind.element?).attributes declaration

/-- The attributes of the document element. -/
def rootAttributes (doc : Document) : List Attribute :=
  (doc.documentElement.map fun id ↦ (doc.node id).kind.attributes).getD []

/-- The prefix that the document element declares for schema hints. -/
def schemaInstancePrefix (doc : Document) : Option Text :=
  doc.rootAttributes.findSome? fun attr ↦
    if (xmlnsOf []).isPrefixOf attr.name ∧ attr.value = some schemaInstanceNamespace then
      some (attr.name.drop (xmlnsOf []).length)
    else none

/-- The value of a schema hint. -/
def schemaHint (doc : Document) (localName : Text) : Option Text := do
  Attribute.valueOf? doc.rootAttributes ((← doc.schemaInstancePrefix) ++ ':' :: localName)

/-- The namespaces for which the document element names a schema, and where it is. -/
def schemaLocation (doc : Document) : List (Text × Text) :=
  pairs (((doc.schemaHint schemaLocationName).map Text.words).getD [])

/-- Where the schema of elements without a namespace is. -/
def noNamespaceSchemaLocation (doc : Document) : Option Text :=
  doc.schemaHint noNamespaceSchemaLocationName

end Document

end TolerantXml
