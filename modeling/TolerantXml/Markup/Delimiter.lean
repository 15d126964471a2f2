import TolerantXml.Text.Basic

/-!
# Fixed texts of markup

The delimiters that open and close the constructs of XML and DTD text, and the keywords of
declarations.
-/

namespace TolerantXml.Delimiter

/-- The opening of a comment. -/
def commentOpen : Text := ['<', '!', '-', '-']

/-- The end of a comment. -/
def commentClose : Text := ['-', '-', '>']

/-- The opening of a character data section. -/
def cdataOpen : Text := ['<', '!', '[', 'C', 'D', 'A', 'T', 'A', '[']

/-- The end of a character data section. -/
def cdataClose : Text := [']', ']', '>']

/-- The opening of a processing instruction or of the prolog. -/
def instructionOpen : Text := ['<', '?']

/-- The end of a processing instruction or of the prolog. -/
def instructionClose : Text := ['?', '>']

/-- The opening of a document type declaration. -/
def doctypeOpen : Text := ['<', '!', 'D', 'O', 'C', 'T', 'Y', 'P', 'E']

/-- The opening of an end tag. -/
def endTagOpen : Text := ['<', '/']

/-- The end of the tag of an element without content. -/
def emptyTagClose : Text := ['/', '>']

/-- The opening of any declaration. -/
def declOpen : Text := ['<', '!']

end TolerantXml.Delimiter

namespace TolerantXml.Keyword

/-- The target of the prolog. -/
def xml : Text := ['x', 'm', 'l']

/-- The keyword of an element declaration. -/
def element : Text := ['E', 'L', 'E', 'M', 'E', 'N', 'T']

/-- The keyword of an attribute list declaration. -/
def attlist : Text := ['A', 'T', 'T', 'L', 'I', 'S', 'T']

/-- The keyword of an entity declaration. -/
def entity : Text := ['E', 'N', 'T', 'I', 'T', 'Y']

/-- Announces a public identifier. -/
def publicId : Text := ['P', 'U', 'B', 'L', 'I', 'C']

/-- Announces a system identifier. -/
def systemId : Text := ['S', 'Y', 'S', 'T', 'E', 'M']

/-- The content category of elements without content. -/
def empty : Text := ['E', 'M', 'P', 'T', 'Y']

/-- The content category of elements with any content. -/
def any : Text := ['A', 'N', 'Y']

/-- The attribute type that an enumeration of notations follows. -/
def notationType : Text := ['N', 'O', 'T', 'A', 'T', 'I', 'O', 'N']

/-- The attribute default that a fixed value follows. -/
def fixed : Text := ['#', 'F', 'I', 'X', 'E', 'D']

end TolerantXml.Keyword
