import TolerantXml.Scanner.Lexeme
import TolerantXml.Scanner.State
import TolerantXml.Token

/-!
# One step of the scanner

A step looks at the text ahead in one state. It either reads a token or changes the state without
reading. Each state is a list of alternatives, and the first one that recognises something wins.
-/

namespace TolerantXml.Scanner

open Lexeme

/-- What a step does. -/
inductive Step where
  /-- A token is read. -/
  | emit (kind : TokenKind) (taken : Text) (next : Config)
  /-- Only the state changes. -/
  | rescan (next : Config)
  deriving DecidableEq, Repr

/-- Emits a lexeme if it is not empty, and takes the next alternative otherwise. -/
@[macro_inline] def attempt (taken : Text) (kind : TokenKind) (next : Config)
    (otherwise : Step) : Step :=
  if taken.isEmpty then otherwise else .emit kind taken next

/-- Whether an opening angle bracket is ahead. -/
def atMarkup (rest : Text) : Bool := rest.head? == some '<'

/-! ### Element content -/

/-- A step in element content. -/
def stepContent (config : Config) (rest : Text) : Step :=
  attempt (literal Delimiter.commentOpen rest) .commentOpen (config.enterMarkup .comment) <|
  attempt (literal Delimiter.cdataOpen rest) .cdataOpen (config.moveTo .cdata) <|
  attempt (literalAnyCase Delimiter.doctypeOpen rest) .doctypeOpen
    (config.moveTo (.doctype .name)) <|
  attempt (literal Delimiter.endTagOpen rest) .endTagOpen (config.moveTo .endTagName) <|
  attempt (literal Delimiter.instructionOpen rest) .instructionOpen
    (config.enterMarkup .instructionTarget) <|
  attempt (literal ['<'] rest) .startTagOpen
    { config with state := .startTagName, spaceSeen := false } <|
  .emit .content (run (· != '<') rest) config

/-! ### Start tags and attributes -/

/-- A step before the name in a start tag. -/
def stepStartTagName (config : Config) (rest : Text) : Step :=
  attempt (name rest) .startTag (config.moveTo .tag) <|
  attempt (space rest) .whitespace config <|
  attempt (run (fun c ↦ !isSpace c && c != '>' && c != '<' && c != '/') rest) .unknown
    (config.moveTo .tag) <|
  .rescan (config.moveTo .tag)

/-- A step in a start tag or in the prolog. -/
def stepTag (config : Config) (rest : Text) : Step :=
  attempt (space rest) .whitespace { config with spaceSeen := true } <|
  attempt (if config.inProlog then literal Delimiter.instructionClose rest else []) .prologClose
    config.leaveTag <|
  attempt (if config.spaceSeen then attributeName config.inProlog rest else []) .attributeName
    { config with state := .assign, spaceSeen := false } <|
  attempt (literal Delimiter.emptyTagClose rest) .emptyTagClose config.leaveTag <|
  attempt (literal ['>'] rest) .startTagClose config.leaveTag <|
  if atMarkup rest then .rescan config.leaveTag
  else .emit .unknown (anyChar rest) config

/-- A step behind the name of an attribute. -/
def stepAssign (config : Config) (rest : Text) : Step :=
  attempt (space rest) .whitespace { config with spaceSeen := true } <|
  attempt (literal ['='] rest) .assign (config.moveTo .attributeValue) <|
  .rescan (config.moveTo .tag)

/-- A step before the value of an attribute. -/
def stepAttributeValue (config : Config) (rest : Text) : Step :=
  let next := { config with state := .tag, spaceSeen := false }
  attempt (space rest) .whitespace config <|
  attempt (bareValue rest) .attributeValue next <|
  attempt (quoted rest) .attributeValue next <|
  .rescan next

/-! ### End tags -/

/-- A step before the name in an end tag. -/
def stepEndTagName (config : Config) (rest : Text) : Step :=
  attempt (name rest) .endTag (config.moveTo .endTag) <|
  attempt (space rest) .whitespace config <|
  attempt (run (fun c ↦ !isSpace c && c != '>' && c != '<') rest) .unknown
    (config.moveTo .endTag) <|
  .rescan (config.moveTo .endTag)

/-- A step behind the name in an end tag. -/
def stepEndTag (config : Config) (rest : Text) : Step :=
  attempt (space rest) .whitespace config <|
  attempt (literal ['>'] rest) .endTagClose (config.moveTo .content) <|
  if atMarkup rest then .rescan (config.moveTo .content)
  else
    .emit .unknown
      (anyChar rest ++ run (fun c ↦ !isSpace c && c != '>' && c != '<') (rest.drop 1)) config

/-! ### Comments, character data sections and processing instructions -/

/-- A step in a comment. -/
def stepComment (config : Config) (rest : Text) : Step :=
  attempt (literal Delimiter.commentClose rest) .commentClose config.leaveMarkup <|
  .emit .comment (upTo Delimiter.commentClose rest) config

/-- A step in a character data section. -/
def stepCdata (config : Config) (rest : Text) : Step :=
  attempt (literal Delimiter.cdataClose rest) .cdataClose (config.moveTo .content) <|
  .emit .cdata (upTo Delimiter.cdataClose rest) config

/-- A step before the target of an instruction. -/
def stepInstructionTarget (config : Config) (rest : Text) : Step :=
  attempt (prologTarget rest) .prologTarget
    { config with state := .tag, inProlog := true, spaceSeen := false } <|
  attempt (name rest) .instructionTarget (config.moveTo .instructionData) <|
  .rescan (config.moveTo .instructionData)

/-- A step behind the target of an instruction. -/
def stepInstructionData (config : Config) (rest : Text) : Step :=
  attempt (space rest) .whitespace config <|
  attempt (literal Delimiter.instructionClose rest) .instructionClose config.leaveMarkup <|
  .emit .instructionData (upTo Delimiter.instructionClose rest) config

/-! ### The document type declaration -/

/-- Whether a character may stand in the name of a document type. -/
def isDoctypeNameChar (c : Char) : Bool :=
  !isSpace c && c != '[' && c != ']' && c != '<' && c != '>' && !Text.isQuote c

/-- The alternative that a slot of the header adds to those of every slot. -/
def stepDoctypeSlot (config : Config) (rest : Text) : DoctypeSlot → Step → Step
  | .name, otherwise =>
    attempt (run isDoctypeNameChar rest) .doctypeName (config.moveTo (.doctype .keyword)) otherwise
  | .keyword, otherwise =>
    attempt (keyword Keyword.publicId rest) .doctypePublic (config.moveTo (.doctype .publicId)) <|
    attempt (keyword Keyword.systemId rest) .doctypeSystem (config.moveTo (.doctype .systemId))
      otherwise
  | .publicId, otherwise =>
    attempt (quoted rest) .doctypePublicId (config.moveTo (.doctype .publicSystemId)) otherwise
  | .systemId, otherwise | .publicSystemId, otherwise =>
    attempt (quoted rest) .doctypeSystemId (config.moveTo (.doctype .nothing)) otherwise
  | .nothing, otherwise => otherwise

/-- A step in the header of a document type declaration. -/
def stepDoctype (config : Config) (slot : DoctypeSlot) (rest : Text) : Step :=
  attempt (space rest) .whitespace config <|
  attempt (literal ['['] rest) .subsetOpen
    { config with state := .subset, markupReturn := .subset } <|
  attempt (literal ['>'] rest) .doctypeClose (config.moveTo .content) <|
  if atMarkup rest then .rescan (config.moveTo .content)
  else stepDoctypeSlot config rest slot (.emit .unrecognized (unrecognized rest) config)

/-- A step behind an internal subset. -/
def stepAfterSubset (config : Config) (rest : Text) : Step :=
  attempt (space rest) .whitespace config <|
  attempt (literal ['>'] rest) .doctypeClose (config.moveTo .content) <|
  if atMarkup rest then .rescan (config.moveTo .content)
  else .emit .unrecognized (unrecognized rest) config

/-! ### Declarations -/

/-- The opening of a declaration with a keyword. -/
def declOpen (keyword rest : Text) : Text := literal (Delimiter.declOpen ++ keyword) rest

/-- A step between declarations. -/
def stepSubset (config : Config) (rest : Text) : Step :=
  attempt (space rest) .whitespace config <|
  attempt (if config.mode = .xml then literal [']'] rest else []) .subsetClose
    { config with state := .afterSubset, markupReturn := .content } <|
  attempt (declOpen Keyword.element rest) .elementDeclOpen
    (config.moveTo (.elementDecl .name)) <|
  attempt (declOpen Keyword.attlist rest) .attlistOpen (config.moveTo (.attlistDecl .element)) <|
  attempt (declOpen Keyword.entity rest) .entityOpen (config.moveTo (.entityDecl .name)) <|
  attempt (literal Delimiter.commentOpen rest) .commentOpen (config.enterMarkup .comment) <|
  attempt (literal Delimiter.instructionOpen rest) .instructionOpen
    (config.enterMarkup .instructionTarget) <|
  .emit .unrecognized (unrecognized rest) config

/-- Whether a declaration that is not closed ends here: another one starts, or the internal
subset ends. -/
def abandonsDecl (config : Config) (rest : Text) : Bool :=
  atMarkup rest || (rest.head? == some ']' && config.mode == .xml)

/-- A step in a declaration, of which `parts` are the alternatives of its slot. -/
@[macro_inline] def stepDecl (config : Config) (rest : Text) (parts : Step → Step) : Step :=
  attempt (space rest) .whitespace config <|
  attempt (literal ['>'] rest) .declClose (config.moveTo .subset) <|
  if abandonsDecl config rest then .rescan (config.moveTo .subset)
  else parts (.emit .unrecognized (unrecognized rest) config)

/-- The alternatives of a slot of an element declaration. -/
def stepElementSlot (config : Config) (rest : Text) : ElementSlot → Step → Step
  | .name, otherwise =>
    attempt (word rest) .elementDeclName (config.moveTo (.elementDecl .content)) otherwise
  | .content, otherwise =>
    let next := config.moveTo (.elementDecl .nothing)
    attempt (keyword Keyword.empty rest) .elementDeclCategory next <|
    attempt (keyword Keyword.any rest) .elementDeclCategory next <|
    attempt (contentModel rest) .elementDeclContent next otherwise
  | .nothing, otherwise => otherwise

/-- The alternatives of a slot of an attribute list declaration. The type word `NOTATION` and the
default word `#FIXED` leave the slot open, because another part of it follows; they are told by
the word that ends right behind the lexeme. -/
def stepAttlistSlot (config : Config) (before rest : Text) : AttlistSlot → Step → Step
  | .element, otherwise =>
    attempt (word rest) .attlistElement (config.moveTo (.attlistDecl .name)) otherwise
  | .name, otherwise =>
    attempt (word rest) .attlistName (config.moveTo (.attlistDecl .type)) otherwise
  | .type, otherwise =>
    attempt (group rest) .attlistType (config.moveTo (.attlistDecl .defaultValue)) <|
    attempt (word rest) .attlistType
      (if lastWord ((word rest).reverseAux before) = Keyword.notationType then config
        else config.moveTo (.attlistDecl .defaultValue))
      otherwise
  | .defaultValue, otherwise =>
    attempt (quoted rest) .attlistDefault (config.moveTo (.attlistDecl .name)) <|
    attempt (if rest.head? = some '#' then word rest else []) .attlistDefault
      (if lastWord ((word rest).reverseAux before) = Keyword.fixed then config
        else config.moveTo (.attlistDecl .name)) <|
    attempt (word rest) .attlistName (config.moveTo (.attlistDecl .type)) otherwise

/-- The percent sign of a parameter entity, which white space or the end follows. -/
def percentSign (rest : Text) : Text :=
  if rest.head? = some '%' ∧ rest[1]?.all isSpace then ['%'] else []

/-- The alternatives of a slot of an entity declaration. -/
def stepEntitySlot (config : Config) (rest : Text) : EntitySlot → Step → Step
  | .name, otherwise =>
    attempt (percentSign rest) .entityPercent config <|
    attempt (word rest) .entityName (config.moveTo (.entityDecl .definition)) otherwise
  | .definition, otherwise =>
    attempt (quoted rest) .entityValue (config.moveTo (.entityDecl .nothing)) <|
    attempt (keyword Keyword.publicId rest) .entityPublic
      (config.moveTo (.entityDecl .publicId)) <|
    attempt (keyword Keyword.systemId rest) .entitySystem
      (config.moveTo (.entityDecl .systemId)) otherwise
  | .publicId, otherwise =>
    attempt (quoted rest) .entityPublicId (config.moveTo (.entityDecl .systemId)) otherwise
  | .systemId, otherwise =>
    attempt (quoted rest) .entitySystemId (config.moveTo (.entityDecl .nothing)) otherwise
  | .nothing, otherwise => otherwise

/-! ### The step -/

/-- A step of the scanner, where `before` is the text already read, the nearest character
first. -/
def step (config : Config) (before rest : Text) : Step :=
  match config.state with
  | .content => stepContent config rest
  | .startTagName => stepStartTagName config rest
  | .tag => stepTag config rest
  | .assign => stepAssign config rest
  | .attributeValue => stepAttributeValue config rest
  | .comment => stepComment config rest
  | .cdata => stepCdata config rest
  | .instructionTarget => stepInstructionTarget config rest
  | .instructionData => stepInstructionData config rest
  | .endTagName => stepEndTagName config rest
  | .endTag => stepEndTag config rest
  | .doctype slot => stepDoctype config slot rest
  | .subset => stepSubset config rest
  | .afterSubset => stepAfterSubset config rest
  | .elementDecl slot => stepDecl config rest (stepElementSlot config rest slot)
  | .attlistDecl slot => stepDecl config rest (stepAttlistSlot config before rest slot)
  | .entityDecl slot => stepDecl config rest (stepEntitySlot config rest slot)

end TolerantXml.Scanner
