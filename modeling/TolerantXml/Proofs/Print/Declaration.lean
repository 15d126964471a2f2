import TolerantXml.Scanner.Lexeme
import TolerantXml.Tree.Document

/-!
# Declarations and how they are printed

Declarations of elements, attribute lists and entities as data, with the white space between their
parts. Here is how they are printed, what makes them well formed, and which node each is read to:
one that covers the printed text and holds every part where it is printed (`Declaration.nodeAt`).
-/

namespace TolerantXml

/-! ### Declarations -/

/-- A text and the quotation mark it is printed in. -/
structure Literal where
  mark : Char
  content : Text
  deriving DecidableEq, Repr

/-- What may stand in an element. -/
inductive ContentSpec where
  | empty
  | any
  /-- A group, and how often it occurs. -/
  | group (content : Text) (mark : Option Char)
  deriving DecidableEq, Repr

/-- The type of an attribute. -/
inductive AttributeType where
  | word (text : Text)
  | group (content : Text)
  /-- The word `NOTATION` and a group. -/
  | notations (gap content : Text)
  deriving DecidableEq, Repr

/-- The default of an attribute. -/
inductive AttributeDefault where
  | required
  | implied
  | literal (value : Literal)
  /-- The word `#FIXED` and a literal. -/
  | fixed (gap : Text) (value : Literal)
  deriving DecidableEq, Repr

/-- An attribute in an attribute list, with the white space in front of each part. -/
structure AttributeItem where
  nameGap : Text
  name : Text
  typeGap : Text
  type : AttributeType
  defaultGap : Text
  default : AttributeDefault
  deriving DecidableEq, Repr

/-- What an entity stands for. -/
inductive EntityDefinition where
  | value (literal : Literal)
  | publicId (publicGap : Text) (first : Literal) (systemGap : Text) (second : Literal)
  | systemId (systemGap : Text) (literal : Literal)
  deriving DecidableEq, Repr

/-- What a declaration says, with the white space in front of each part. -/
inductive DeclarationBody where
  | element (nameGap name contentGap : Text) (content : ContentSpec)
  | attlist (elementGap elementName : Text) (attributes : List AttributeItem)
  /-- An entity, which is a parameter entity if there is white space in front of a percent sign. -/
  | entity (percentGap : Option Text) (nameGap name definitionGap : Text)
    (definition : EntityDefinition)
  deriving DecidableEq, Repr

/-- A declaration with the white space in front of it and in front of its end, if there is any. -/
structure Declaration where
  gap : Text
  body : DeclarationBody
  endGap : Text
  deriving DecidableEq, Repr

/-! ### Parts -/

/-- A part of a declaration, and the white space in front of it. -/
structure Part where
  gap : Text
  kind : TokenKind
  text : Text
  deriving DecidableEq, Repr

namespace Part

def print (part : Part) : Text := part.gap ++ part.text

/-- The token that a part is read to where it is printed at an offset. -/
def tokenAt (offset : Nat) (part : Part) : Token where
  kind := part.kind
  span := ⟨offset + part.gap.byteSize, offset + part.gap.byteSize + part.text.byteSize⟩
  text := part.text

/-- The text of parts one behind the other. -/
def printAll (parts : List Part) : Text := parts.flatMap print

/-- The tokens of parts that are printed one behind the other. -/
def tokensAt (offset : Nat) : List Part → List Token
  | [] => []
  | part :: parts => part.tokenAt offset :: tokensAt (offset + part.print.byteSize) parts

end Part

/-- What a token is as a part of a declaration. -/
def Token.parameter (token : Token) : Parameter := ⟨token.span, token.text⟩

/-- The parameter that is a token of some kind. -/
def Parameter.ofKind (kind : TokenKind) (tokens : List Token) : Option Parameter :=
  (tokens.find? fun token ↦ token.kind = kind).map Token.parameter

def Literal.print (literal : Literal) : Text := Text.quote literal.mark literal.content

/-- A group in round brackets. -/
def printGroup (content : Text) : Text := ['('] ++ content ++ [')']

namespace ContentSpec

def kind : ContentSpec → TokenKind
  | .empty | .any => .elementDeclCategory
  | .group _ _ => .elementDeclContent

def print : ContentSpec → Text
  | .empty => Keyword.empty
  | .any => Keyword.any
  | .group content mark => printGroup content ++ mark.toList

end ContentSpec

def AttributeType.parts (gap : Text) : AttributeType → List Part
  | .word text => [⟨gap, .attlistType, text⟩]
  | .group content => [⟨gap, .attlistType, printGroup content⟩]
  | .notations groupGap content =>
    [⟨gap, .attlistType, Keyword.notationType⟩, ⟨groupGap, .attlistType, printGroup content⟩]

/-- The default of an attribute that has to be given. -/
def AttributeDefault.requiredWord : Text := ['#', 'R', 'E', 'Q', 'U', 'I', 'R', 'E', 'D']

/-- The default of an attribute that may be left out. -/
def AttributeDefault.impliedWord : Text := ['#', 'I', 'M', 'P', 'L', 'I', 'E', 'D']

def AttributeDefault.parts (gap : Text) : AttributeDefault → List Part
  | .required => [⟨gap, .attlistDefault, requiredWord⟩]
  | .implied => [⟨gap, .attlistDefault, impliedWord⟩]
  | .literal value => [⟨gap, .attlistDefault, value.print⟩]
  | .fixed literalGap value =>
    [⟨gap, .attlistDefault, Keyword.fixed⟩, ⟨literalGap, .attlistDefault, value.print⟩]

namespace AttributeItem

def namePart (item : AttributeItem) : Part := ⟨item.nameGap, .attlistName, item.name⟩

def parts (item : AttributeItem) : List Part :=
  item.namePart :: (item.type.parts item.typeGap ++ item.default.parts item.defaultGap)

end AttributeItem

def EntityDefinition.parts (gap : Text) : EntityDefinition → List Part
  | .value literal => [⟨gap, .entityValue, literal.print⟩]
  | .publicId publicGap first systemGap second =>
    [⟨gap, .entityPublic, Keyword.publicId⟩, ⟨publicGap, .entityPublicId, first.print⟩,
      ⟨systemGap, .entitySystemId, second.print⟩]
  | .systemId systemGap literal =>
    [⟨gap, .entitySystem, Keyword.systemId⟩, ⟨systemGap, .entitySystemId, literal.print⟩]

namespace DeclarationBody

def keyword : DeclarationBody → Text
  | .element .. => Keyword.element
  | .attlist .. => Keyword.attlist
  | .entity .. => Keyword.entity

def parts : DeclarationBody → List Part
  | .element nameGap name contentGap content =>
    [⟨nameGap, .elementDeclName, name⟩, ⟨contentGap, content.kind, content.print⟩]
  | .attlist elementGap elementName attributes =>
    ⟨elementGap, .attlistElement, elementName⟩ :: attributes.flatMap AttributeItem.parts
  | .entity percentGap nameGap name definitionGap definition =>
    (percentGap.map fun gap ↦ Part.mk gap .entityPercent ['%']).toList ++
      ⟨nameGap, .entityName, name⟩ :: definition.parts definitionGap

end DeclarationBody

namespace Declaration

def opening (declaration : Declaration) : Text := Delimiter.declOpen ++ declaration.body.keyword

/-- The text of a declaration, without the white space in front of it. -/
def print (declaration : Declaration) : Text :=
  declaration.opening ++ Part.printAll declaration.body.parts ++ declaration.endGap ++ ['>']

/-- The text of declarations one behind the other, each with the white space in front of it. -/
def printAll (declarations : List Declaration) : Text :=
  declarations.flatMap fun declaration ↦ declaration.gap ++ declaration.print

end Declaration

/-! ### Well-formed declarations -/

/-- Whether a text is white space. -/
def Text.isSpacing (text : Text) : Bool := text.all isSpace

/-- Whether a text sets off a part from what is in front of it. -/
def Text.isGap (text : Text) : Bool := text != [] && text.isSpacing

/-- Whether a text is a word: it is not empty and has no white space, quotation marks, angle
brackets, square brackets or round brackets in it. -/
def Text.isWord (text : Text) : Bool := text != [] && text.all fun c ↦ !Lexeme.isWordBreak c

/-- Whether the round brackets of a text match each other and those that are open in front of it,
and there are no angle brackets in it. -/
def Text.isBalanced : Nat → Text → Bool
  | depth, [] => depth == 0
  | depth, c :: rest =>
    if c = '(' then isBalanced (depth + 1) rest
    else if c = ')' then depth != 0 && isBalanced (depth - 1) rest
    else c != '<' && c != '>' && isBalanced depth rest

def Literal.isWellFormed (literal : Literal) : Bool :=
  Text.isQuote literal.mark && !literal.content.contains literal.mark

def ContentSpec.isWellFormed : ContentSpec → Bool
  | .empty | .any => true
  | .group content mark =>
    content.isBalanced 0 && mark.all fun c ↦ c == '?' || c == '*' || c == '+'

def AttributeType.isWellFormed : AttributeType → Bool
  | .word text => text.isWord && text != Keyword.notationType
  | .group content => content.isBalanced 0
  | .notations gap content => gap.isGap && content.isBalanced 0

def AttributeDefault.isWellFormed : AttributeDefault → Bool
  | .required | .implied => true
  | .literal value => value.isWellFormed
  | .fixed gap value => gap.isGap && value.isWellFormed

def AttributeItem.isWellFormed (item : AttributeItem) : Bool :=
  item.nameGap.isGap && item.name.isWord && item.typeGap.isGap && item.type.isWellFormed &&
    item.defaultGap.isGap && item.default.isWellFormed

def EntityDefinition.isWellFormed : EntityDefinition → Bool
  | .value literal => literal.isWellFormed
  | .publicId publicGap first systemGap second =>
    publicGap.isGap && first.isWellFormed && systemGap.isGap && second.isWellFormed
  | .systemId systemGap literal => systemGap.isGap && literal.isWellFormed

/-- Names are words, of which that of an entity does not start with a percent sign. -/
def DeclarationBody.isWellFormed : DeclarationBody → Bool
  | .element nameGap name contentGap content =>
    nameGap.isGap && name.isWord && contentGap.isGap && content.isWellFormed
  | .attlist elementGap elementName attributes =>
    elementGap.isGap && elementName.isWord && attributes.all (·.isWellFormed)
  | .entity percentGap nameGap name definitionGap definition =>
    percentGap.all (·.isGap) && nameGap.isGap && name.isWord && name.head? != some '%' &&
      definitionGap.isGap && definition.isWellFormed

def Declaration.isWellFormed (declaration : Declaration) : Bool :=
  declaration.gap.isSpacing && declaration.body.isWellFormed && declaration.endGap.isSpacing

/-! ### The nodes of declarations -/

/-- The attributes of a list that is printed at an offset. The type of an attribute is the group
behind the word `NOTATION`, and its default the literal behind the word `#FIXED`. -/
def AttributeItem.attributesAt (offset : Nat) : List AttributeItem → List AttributeDecl
  | [] => []
  | item :: items =>
    let typeOffset := offset + item.namePart.print.byteSize
    let typeParts := item.type.parts item.typeGap
    let defaultOffset := typeOffset + (Part.printAll typeParts).byteSize
    let defaultParts := item.default.parts item.defaultGap
    { name := (item.namePart.tokenAt offset).parameter
      type := ((Part.tokensAt typeOffset typeParts).getLast?).map Token.parameter
      defaultValue := ((Part.tokensAt defaultOffset defaultParts).getLast?).map Token.parameter } ::
      attributesAt (offset + (Part.printAll item.parts).byteSize) items

namespace DeclarationBody

/-- What the node of a declaration stands for that is printed at an offset. -/
def kindAt (offset : Nat) (body : DeclarationBody) : NodeKind :=
  let keywordStart := offset + Delimiter.declOpen.byteSize
  let keywordStop := keywordStart + body.keyword.byteSize
  let keyword : Parameter := ⟨⟨keywordStart, keywordStop⟩, body.keyword⟩
  let tokens := Part.tokensAt keywordStop body.parts
  let parameters := tokens.map Token.parameter
  match body with
  | .element .. =>
    .elementDecl
      { keyword
        name := Parameter.ofKind .elementDeclName tokens
        category := Parameter.ofKind .elementDeclCategory tokens
        content := Parameter.ofKind .elementDeclContent tokens
        parameters }
  | .attlist elementGap elementName attributes =>
    .attlistDecl
      { keyword
        elementName := Parameter.ofKind .attlistElement tokens
        attributes := AttributeItem.attributesAt
          (keywordStop + (elementGap ++ elementName).byteSize) attributes
        parameters }
  | .entity .. =>
    .entityDecl
      { keyword
        percent := Parameter.ofKind .entityPercent tokens
        name := Parameter.ofKind .entityName tokens
        value := Parameter.ofKind .entityValue tokens
        externalId :=
          { keyword :=
              (Parameter.ofKind .entityPublic tokens).or (Parameter.ofKind .entitySystem tokens)
            publicId := Parameter.ofKind .entityPublicId tokens
            systemId := Parameter.ofKind .entitySystemId tokens }
        parameters }

end DeclarationBody

namespace Declaration

/-- The node of a declaration that is printed at an offset. -/
def nodeAt (offset : Nat) (declaration : Declaration) : Node where
  kind := declaration.body.kindAt offset
  start := offset
  stop := offset + declaration.print.byteSize
  closed := true
  parent := some 1

/-- The nodes of declarations that are printed one behind the other from an offset on. -/
def nodesAt (offset : Nat) : List Declaration → List Node
  | [] => []
  | declaration :: others =>
    declaration.nodeAt (offset + declaration.gap.byteSize) ::
      nodesAt (offset + (declaration.gap ++ declaration.print).byteSize) others

end Declaration

/-- The document type around declarations that are nodes. -/
def Document.declarationsType (text : Text) (count : Nat) : Node where
  kind := .doctype {}
  start := 0
  stop := text.byteSize
  parent := some root
  children := List.range' 2 count

/-- A document of declarations only: the root, the document type and the declarations in it. -/
def Document.ofDeclarations (text uri : Text) (nodes : List Node) : Document where
  text := text
  uri := uri
  mode := .dtd
  nodes :=
    ({ kind := .document, start := 0, stop := text.byteSize, children := [1] } ::
      declarationsType text nodes.length :: nodes).toArray

end TolerantXml
