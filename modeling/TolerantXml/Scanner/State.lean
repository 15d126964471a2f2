import TolerantXml.Mode

/-!
# States of the scanner

Between two tokens the scanner is in a state that says what may come next. Inside a declaration
the state also holds the slot of the declaration that the next word fills.
-/

namespace TolerantXml

/-- What the header of a document type declaration lacks next. -/
inductive DoctypeSlot where
  | name
  /-- The keyword that announces the external identifiers. -/
  | keyword
  | publicId
  /-- The system identifier that follows `SYSTEM`. -/
  | systemId
  /-- The system identifier that follows a public one. -/
  | publicSystemId
  | nothing
  deriving DecidableEq, Repr

/-- What an element declaration lacks next. -/
inductive ElementSlot where
  | name
  /-- A category or a content model. -/
  | content
  | nothing
  deriving DecidableEq, Repr

/-- What an attribute list declaration lacks next. -/
inductive AttlistSlot where
  /-- The name of the element. -/
  | element
  | name
  | type
  /-- The default of the attribute, or the name of the next one. -/
  | defaultValue
  deriving DecidableEq, Repr

/-- What an entity declaration lacks next. -/
inductive EntitySlot where
  /-- The name, or the mark of a parameter entity. -/
  | name
  /-- A literal value, or the keyword that announces the external identifiers. -/
  | definition
  | publicId
  | systemId
  | nothing
  deriving DecidableEq, Repr

namespace Scanner

/-- What the scanner is about to read. -/
inductive State where
  /-- Element content. -/
  | content
  /-- The name in a start tag. -/
  | startTagName
  /-- The attributes and the end of a start tag. -/
  | tag
  /-- The assignment sign after the name of an attribute. -/
  | assign
  /-- The value of an attribute. -/
  | attributeValue
  /-- The text and the end of a comment. -/
  | comment
  /-- The text and the end of a character data section. -/
  | cdata
  /-- The target of a processing instruction or of the prolog. -/
  | instructionTarget
  /-- The data and the end of a processing instruction. -/
  | instructionData
  /-- The name in an end tag. -/
  | endTagName
  /-- The end of an end tag. -/
  | endTag
  /-- The header of a document type declaration. -/
  | doctype (slot : DoctypeSlot)
  /-- Declarations, in an internal subset or a file of their own. -/
  | subset
  /-- The end of a document type declaration after its internal subset. -/
  | afterSubset
  /-- An element declaration. -/
  | elementDecl (slot : ElementSlot)
  /-- An attribute list declaration. -/
  | attlistDecl (slot : AttlistSlot)
  /-- An entity declaration. -/
  | entityDecl (slot : EntitySlot)
  deriving DecidableEq, Repr

/-- Everything that the scanner carries from one token to the next besides its place. -/
structure Config where
  /-- How the text is read. -/
  mode : Mode
  /-- What is read next. -/
  state : State
  /-- The state that follows the end of a comment, an instruction or the prolog. -/
  markupReturn : State
  /-- Whether white space came since the last part of the tag. -/
  spaceSeen : Bool
  /-- Whether the tag is that of the prolog. -/
  inProlog : Bool
  deriving DecidableEq, Repr

/-- The state in which a text of each mode starts. -/
def State.initial : Mode → State
  | .xml => .content
  | .dtd => .subset

namespace Config

/-- The configuration in which a text starts. -/
def initial (mode : Mode) : Config where
  mode := mode
  state := .initial mode
  markupReturn := .initial mode
  spaceSeen := false
  inProlog := false

/-- Goes on in another state. -/
def moveTo (config : Config) (state : State) : Config := { config with state := state }

/-- Enters a comment or an instruction, which returns to the subset if it stands in one and to
element content otherwise. -/
def enterMarkup (config : Config) (state : State) : Config :=
  { config with
    markupReturn := if config.state = .subset then .subset else .content
    state := state }

/-- Goes on behind a comment or an instruction. -/
def leaveMarkup (config : Config) : Config := config.moveTo config.markupReturn

/-- Goes on behind a tag, or behind the prolog. -/
def leaveTag (config : Config) : Config :=
  { config with
    state := if config.inProlog then config.markupReturn else .content
    inProlog := false }

end Config

end Scanner

end TolerantXml
