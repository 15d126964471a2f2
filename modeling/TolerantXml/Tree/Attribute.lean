import TolerantXml.Span
import TolerantXml.Text.Quoted

/-!
# Attributes

An attribute records its name and its value, and where both stand. A list of attributes has one
entry for each name: a later attribute of the same name takes the place of the earlier one.
-/

namespace TolerantXml

/-- An attribute of an element or of the prolog. -/
structure Attribute where
  name : Text
  nameSpan : Span
  /-- The value without its quotation marks. -/
  value : Option Text
  /-- Where the value stands, with its quotation marks. -/
  valueSpan : Option Span
  deriving DecidableEq, Repr

namespace Attribute

/-- An attribute that has no value yet. -/
def named (name : Text) (nameSpan : Span) : Attribute := ⟨name, nameSpan, none, none⟩

/-- Gives an attribute the value that is written as `raw`. -/
def withValue (attr : Attribute) (raw : Text) (span : Span) : Attribute :=
  { attr with value := some raw.unquote, valueSpan := some span }

/-- From the start of the name to the end of the value, or of the name if there is no value. -/
def span (attr : Attribute) : Span :=
  ⟨attr.nameSpan.start, (attr.valueSpan.getD attr.nameSpan).stop⟩

/-- Whether an offset lies in an attribute or right after it. -/
def includes (attr : Attribute) (offset : Nat) : Bool := attr.span.touches offset

/-- The place of the attribute of some name, which is the end of the list if there is none. -/
def indexOf (attributes : List Attribute) (name : Text) : Nat :=
  attributes.findIdx fun attr ↦ attr.name == name

/-- Puts an attribute in the place of the one of the same name, or at the end. -/
def put (attributes : List Attribute) (attr : Attribute) : List Attribute :=
  if indexOf attributes attr.name < attributes.length then
    attributes.set (indexOf attributes attr.name) attr
  else attributes ++ [attr]

/-- The attribute of some name. -/
def find? (attributes : List Attribute) (name : Text) : Option Attribute :=
  List.find? (fun attr ↦ attr.name == name) attributes

/-- The value of the attribute of some name. -/
def valueOf? (attributes : List Attribute) (name : Text) : Option Text :=
  (find? attributes name).bind (·.value)

end Attribute

end TolerantXml
