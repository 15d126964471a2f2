import TolerantXml.Text.Lowercase
import TolerantXml.Tree.Attribute

/-!
# Elements

An element records its name, its attributes and the offsets of its tags as far as they were seen.
An element made for an end tag that matches nothing has no start tag.
-/

namespace TolerantXml

/-- An element and the offsets of its tags. -/
structure Element where
  tagName : Option Text := none
  attributes : List Attribute := []
  /-- The offset of `<` of the start tag. -/
  startTagOpen : Option Nat := none
  /-- The offset of `>` of the start tag. -/
  startTagClose : Option Nat := none
  /-- The offset of `</` of the end tag. -/
  endTagOpen : Option Nat := none
  /-- The offset of `>` of the end tag. -/
  endTagClose : Option Nat := none
  /-- Whether the start tag ended with `/>`. -/
  selfClosed : Bool := false
  deriving DecidableEq, Repr

/-- Whether two tag names match: letter case makes no difference. -/
def sameTagName (first second : Text) : Bool :=
  first == second || first.lowercase == second.lowercase

namespace Element

/-- The namespace prefix of a tag name: what comes before its first colon. -/
def qualifier (element : Element) : Option Text :=
  element.tagName.bind fun name ↦
    if ':' ∈ name then some (name.takeWhile (· != ':')) else none

/-- The tag name behind its first colon, or all of it if there is none. -/
def localName (element : Element) : Option Text :=
  element.tagName.map fun name ↦
    if ':' ∈ name then (name.dropWhile (· != ':')).drop 1 else name

/-- Whether an end tag of some name closes the element. -/
def matchesTag (element : Element) (name : Text) : Bool :=
  element.tagName.any fun tagName ↦ sameTagName tagName name

/-- Whether the start tag was seen. -/
def hasStartTag (element : Element) : Bool := element.startTagOpen.isSome

/-- Whether an end tag was seen. -/
def hasEndTag (element : Element) : Bool := element.endTagOpen.isSome

end Element

end TolerantXml
