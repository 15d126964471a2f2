import TolerantXml.Span

/-!
# Tokens

A token is a classified piece of the source text. White space and misplaced text are tokens too,
so the tokens of a text cover all of it.
-/

namespace TolerantXml

/-- What a token is in XML or DTD text. -/
inductive TokenKind where
  /-- The delimiter `<` of a start tag. -/
  | startTagOpen
  /-- The name in a start tag. -/
  | startTag
  /-- The delimiter `>` of a start tag. -/
  | startTagClose
  /-- The delimiter `/>` of the tag of an element without content. -/
  | emptyTagClose
  /-- The delimiter `</`. -/
  | endTagOpen
  /-- The name in an end tag. -/
  | endTag
  /-- The delimiter `>` of an end tag. -/
  | endTagClose
  /-- The name of an attribute. -/
  | attributeName
  /-- The delimiter `=` between the name and the value of an attribute. -/
  | assign
  /-- The value of an attribute, with its quotation marks. -/
  | attributeValue
  /-- Character data between tags. -/
  | content
  /-- White space between the parts of markup. -/
  | whitespace
  /-- Text that has no place in a tag. -/
  | unknown
  /-- The delimiter `<!--`. -/
  | commentOpen
  /-- The text of a comment. -/
  | comment
  /-- The delimiter `-->`. -/
  | commentClose
  /-- The delimiter `<![CDATA[`. -/
  | cdataOpen
  /-- The text of a character data section. -/
  | cdata
  /-- The delimiter `]]>`. -/
  | cdataClose
  /-- The delimiter `<?`. -/
  | instructionOpen
  /-- The target `xml` of the prolog. -/
  | prologTarget
  /-- The target of a processing instruction. -/
  | instructionTarget
  /-- The data of a processing instruction. -/
  | instructionData
  /-- The delimiter `?>` of the prolog. -/
  | prologClose
  /-- The delimiter `?>` of a processing instruction. -/
  | instructionClose
  /-- The delimiter `<!DOCTYPE`. -/
  | doctypeOpen
  /-- The name of the document type. -/
  | doctypeName
  /-- The keyword `PUBLIC` in a document type declaration. -/
  | doctypePublic
  /-- The keyword `SYSTEM` in a document type declaration. -/
  | doctypeSystem
  /-- The public identifier of the document type. -/
  | doctypePublicId
  /-- The system identifier of the document type. -/
  | doctypeSystemId
  /-- The delimiter `[` of the internal subset. -/
  | subsetOpen
  /-- The delimiter `]` of the internal subset. -/
  | subsetClose
  /-- The delimiter `>` of a document type declaration. -/
  | doctypeClose
  /-- The delimiter `<!ELEMENT`. -/
  | elementDeclOpen
  /-- The name of a declared element. -/
  | elementDeclName
  /-- The category `EMPTY` or `ANY`. -/
  | elementDeclCategory
  /-- The content model of a declared element. -/
  | elementDeclContent
  /-- The delimiter `<!ATTLIST`. -/
  | attlistOpen
  /-- The element that an attribute list is for. -/
  | attlistElement
  /-- The name of a declared attribute. -/
  | attlistName
  /-- The type, or a part of it, of a declared attribute. -/
  | attlistType
  /-- The default, or a part of it, of a declared attribute. -/
  | attlistDefault
  /-- The delimiter `<!ENTITY`. -/
  | entityOpen
  /-- The delimiter `%` of a parameter entity. -/
  | entityPercent
  /-- The name of a declared entity. -/
  | entityName
  /-- The literal value of a declared entity. -/
  | entityValue
  /-- The keyword `PUBLIC` in an entity declaration. -/
  | entityPublic
  /-- The keyword `SYSTEM` in an entity declaration. -/
  | entitySystem
  /-- The public identifier of a declared entity. -/
  | entityPublicId
  /-- The system identifier of a declared entity. -/
  | entitySystemId
  /-- Text that has no place in a declaration. -/
  | unrecognized
  /-- The delimiter `>` of a declaration. -/
  | declClose
  /-- The end of the text. -/
  | eos
  deriving DecidableEq, Repr

/-- The name of a token kind in listings. -/
def TokenKind.label : TokenKind → String
  | .startTagOpen => "StartTagOpen"
  | .startTag => "StartTag"
  | .startTagClose => "StartTagClose"
  | .emptyTagClose => "StartTagSelfClose"
  | .endTagOpen => "EndTagOpen"
  | .endTag => "EndTag"
  | .endTagClose => "EndTagClose"
  | .attributeName => "AttributeName"
  | .assign => "DelimiterAssign"
  | .attributeValue => "AttributeValue"
  | .content => "Content"
  | .whitespace => "Whitespace"
  | .unknown => "Unknown"
  | .commentOpen => "StartCommentTag"
  | .comment => "Comment"
  | .commentClose => "EndCommentTag"
  | .cdataOpen => "CDataTagOpen"
  | .cdata => "CDataContent"
  | .cdataClose => "CDataTagClose"
  | .instructionOpen => "StartPrologOrPi"
  | .prologTarget => "PrologName"
  | .instructionTarget => "PiName"
  | .instructionData => "PiContent"
  | .prologClose => "PrologEnd"
  | .instructionClose => "PiEnd"
  | .doctypeOpen => "DtdStartDoctypeTag"
  | .doctypeName => "DtdDoctypeName"
  | .doctypePublic => "DtdDoctypeKindPublic"
  | .doctypeSystem => "DtdDoctypeKindSystem"
  | .doctypePublicId => "DtdDoctypePublicId"
  | .doctypeSystemId => "DtdDoctypeSystemId"
  | .subsetOpen => "DtdStartInternalSubset"
  | .subsetClose => "DtdEndInternalSubset"
  | .doctypeClose => "DtdEndDoctypeTag"
  | .elementDeclOpen => "DtdStartElementDecl"
  | .elementDeclName => "DtdElementDeclName"
  | .elementDeclCategory => "DtdElementCategory"
  | .elementDeclContent => "DtdElementContent"
  | .attlistOpen => "DtdStartAttlistDecl"
  | .attlistElement => "DtdAttlistElementName"
  | .attlistName => "DtdAttlistAttributeName"
  | .attlistType => "DtdAttlistAttributeType"
  | .attlistDefault => "DtdAttlistAttributeValue"
  | .entityOpen => "DtdStartEntity"
  | .entityPercent => "DtdEntityPercent"
  | .entityName => "DtdEntityName"
  | .entityValue => "DtdEntityValue"
  | .entityPublic => "DtdEntityKindPublic"
  | .entitySystem => "DtdEntityKindSystem"
  | .entityPublicId => "DtdEntityPublicId"
  | .entitySystemId => "DtdEntitySystemId"
  | .unrecognized => "DtdUnrecognizedParameters"
  | .declClose => "DtdEndTag"
  | .eos => "Eos"

/-- A classified piece of the source text. -/
structure Token where
  /-- What the token is. -/
  kind : TokenKind
  /-- Where the token stands. -/
  span : Span
  /-- The characters of the token. -/
  text : Text
  deriving DecidableEq, Repr

namespace Token

/-- The offset at which the token starts. -/
def start (token : Token) : Nat := token.span.start

/-- The offset after the token. -/
def stop (token : Token) : Nat := token.span.stop

end Token

end TolerantXml
