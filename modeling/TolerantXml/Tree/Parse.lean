import TolerantXml.Scanner.Stream
import TolerantXml.Tree.Builder.Declaration
import TolerantXml.Tree.Builder.Markup

/-!
# Reading documents

A builder takes the tokens of a text one after another. Any sequence of tokens is accepted, and
what is still open after the last one reaches to the end of the text.
-/

namespace TolerantXml

namespace Builder

/-- Takes one token. -/
def apply (b : Builder) (token : Token) : Builder :=
  match token.kind with
  | .startTagOpen => b.openElement token.span
  | .startTag => b.nameElement token
  | .startTagClose => b.endStartTag token.span
  | .emptyTagClose => b.endEmptyTag token.span
  | .endTagOpen => b.openEndTag token.span
  | .endTag => b.nameEndTag token
  | .endTagClose => b.endEndTag token.span
  | .attributeName => b.nameAttribute token
  | .attributeValue => b.setAttributeValue token
  | .content => b.addText token
  | .commentOpen => b.openComment token.start
  | .comment => b.setComment token.span
  | .commentClose => b.closeIf (·.isComment) token.stop
  | .cdataOpen => b.openToEnd (.cdata {}) token.start
  | .cdata => b.setCdata token.span
  | .cdataClose => b.closeIf (·.isCdata) token.stop
  | .instructionOpen => b.openInstruction token.start
  | .prologTarget => b.setTarget token true
  | .instructionTarget => b.setTarget token false
  | .instructionData => b.setInstructionData token.span
  | .prologClose | .instructionClose => b.closeIf (·.instruction?.isSome) token.stop
  | .doctypeOpen => b.openToEnd (.doctype {}) token.start
  | .doctypeName => b.addDoctypeParameter token fun p d ↦ { d with name := some p }
  | .doctypePublic | .doctypeSystem =>
    b.addDoctypeParameter token fun p d ↦ { d with externalId.keyword := some p }
  | .doctypePublicId =>
    b.addDoctypeParameter token fun p d ↦ { d with externalId.publicId := some p }
  | .doctypeSystemId =>
    b.addDoctypeParameter token fun p d ↦ { d with externalId.systemId := some p }
  | .subsetOpen => b.openSubset token.start
  | .subsetClose => b.closeSubset token.start
  | .doctypeClose => b.closeDoctype token.span
  | .elementDeclOpen =>
    b.openDeclaration token.start Keyword.element fun keyword ↦ .elementDecl { keyword }
  | .attlistOpen =>
    b.openDeclaration token.start Keyword.attlist fun keyword ↦ .attlistDecl { keyword }
  | .entityOpen =>
    b.openDeclaration token.start Keyword.entity fun keyword ↦ .entityDecl { keyword }
  | .elementDeclName | .elementDeclCategory | .elementDeclContent | .attlistElement
  | .attlistName | .attlistType | .attlistDefault | .entityPercent | .entityName
  | .entityValue | .entityPublic | .entitySystem | .entityPublicId | .entitySystemId
  | .unrecognized => b.addParameter token
  | .declClose => b.closeIf (·.isDeclaration) token.stop
  | .assign | .whitespace | .unknown | .eos => b

/-- Takes tokens in order. -/
def applyAll (b : Builder) (tokens : List Token) : Builder := tokens.foldl apply b

/-- The document, in which everything still open reaches to the end of the text. -/
def finish (b : Builder) : Document :=
  ((b.doc.path b.current).foldl (fun b id ↦ b.setStop b.doc.length id) b).doc

end Builder

/-- Reads a text into a document. Every text has one. -/
def Document.parse (text uri : Text) (mode : Mode) : Document :=
  ((Builder.start text uri mode).applyAll (Scanner.tokenize text mode)).finish

end TolerantXml
