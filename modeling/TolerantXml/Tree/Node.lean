import TolerantXml.Tree.Declaration
import TolerantXml.Tree.Element

/-!
# Nodes

A node is a stretch of the text that forms one construct, and records whether the end of the
construct was seen. Nodes are numbered in the order in which they were made; a node refers to its
parent and its children by their numbers.
-/

namespace TolerantXml

/-- A comment or a character data section. -/
structure CharacterData where
  /-- The text between the delimiters. -/
  content : Option Span := none
  /-- Whether a comment starts on the line where the element closed last ended. -/
  sameLine : Bool := false
  deriving DecidableEq, Repr

/-- A processing instruction, or the prolog, whose data is read as attributes. -/
structure Instruction where
  target : Option Text := none
  isProlog : Bool := false
  attributes : List Attribute := []
  content : Option Span := none
  /-- Whether a lone `>` was seen in the prolog. -/
  closedAsTag : Bool := false
  deriving DecidableEq, Repr

/-- What a node stands for. -/
inductive NodeKind where
  | document
  | element (element : Element)
  | text
  | comment (data : CharacterData)
  | cdata (data : CharacterData)
  | instruction (instruction : Instruction)
  | doctype (doctype : Doctype)
  | elementDecl (decl : ElementDecl)
  | attlistDecl (decl : AttlistDecl)
  | entityDecl (decl : EntityDecl)
  deriving DecidableEq, Repr, Inhabited

/-- A stretch of the text that forms one construct. -/
structure Node where
  kind : NodeKind
  /-- The offset at which the construct starts. -/
  start : Nat
  /-- The offset after the construct. -/
  stop : Nat
  /-- Whether the end of the construct was seen. -/
  closed : Bool := false
  parent : Option Nat := none
  children : List Nat := []
  deriving DecidableEq, Repr, Inhabited

namespace NodeKind

/-- The element of an element node. -/
def element? : NodeKind → Option Element
  | .element e => some e
  | _ => none

/-- The document type of a document type node. -/
def doctype? : NodeKind → Option Doctype
  | .doctype d => some d
  | _ => none

/-- The instruction of an instruction node or of the prolog. -/
def instruction? : NodeKind → Option Instruction
  | .instruction i => some i
  | _ => none

def isDocument (kind : NodeKind) : Bool := kind matches .document
def isElement (kind : NodeKind) : Bool := kind matches .element _
def isText (kind : NodeKind) : Bool := kind matches .text
def isComment (kind : NodeKind) : Bool := kind matches .comment _
def isCdata (kind : NodeKind) : Bool := kind matches .cdata _
def isDoctype (kind : NodeKind) : Bool := kind matches .doctype _

/-- Whether the node is a processing instruction and not the prolog. -/
def isInstruction (kind : NodeKind) : Bool := kind.instruction?.any fun i ↦ !i.isProlog

/-- Whether the node is the prolog. -/
def isProlog (kind : NodeKind) : Bool := kind.instruction?.any (·.isProlog)

/-- Whether the node declares an element, an attribute list or an entity. -/
def isDeclaration : NodeKind → Bool
  | .elementDecl _ | .attlistDecl _ | .entityDecl _ => true
  | _ => false

/-- The name of a construct: that of a tag, a target or a declaration. -/
def name : NodeKind → Option Text
  | .element e => e.tagName
  | .instruction i => i.target
  | .doctype d => d.name.map (·.value)
  | .elementDecl decl => decl.name.map (·.value)
  | .attlistDecl decl => decl.elementName.map (·.value)
  | .entityDecl decl => decl.name.map (·.value)
  | .document | .text | .comment _ | .cdata _ => none

/-- What stands between the delimiters of a comment, a character data section or an
instruction. -/
def content : NodeKind → Option Span
  | .comment data | .cdata data => data.content
  | .instruction i => i.content
  | _ => none

/-- The attributes of an element or of an instruction; no other node can have any. -/
def attributes? : NodeKind → Option (List Attribute)
  | .element e => some e.attributes
  | .instruction i => some i.attributes
  | _ => none

/-- The attributes of a node. -/
def attributes (kind : NodeKind) : List Attribute := kind.attributes?.getD []

/-- Changes the attributes of a node that can have any. -/
def modifyAttributes (change : List Attribute → List Attribute) : NodeKind → NodeKind
  | .element e => .element { e with attributes := change e.attributes }
  | .instruction i => .instruction { i with attributes := change i.attributes }
  | kind => kind

/-- Changes the element of an element node. -/
def modifyElement (change : Element → Element) : NodeKind → NodeKind
  | .element e => .element (change e)
  | kind => kind

/-- Changes the instruction of an instruction node. -/
def modifyInstruction (change : Instruction → Instruction) : NodeKind → NodeKind
  | .instruction i => .instruction (change i)
  | kind => kind

/-- Changes the document type of a document type node. -/
def modifyDoctype (change : Doctype → Doctype) : NodeKind → NodeKind
  | .doctype d => .doctype (change d)
  | kind => kind

end NodeKind

namespace Node

/-- The offsets that a node covers. -/
def span (node : Node) : Span := ⟨node.start, node.stop⟩

/-- Changes what a node stands for. -/
def modifyKind (change : NodeKind → NodeKind) (node : Node) : Node :=
  { node with kind := change node.kind }

/-- Whether an offset lies behind `<` of a start tag and at or before its `>`. -/
def inStartTag (node : Node) (offset : Nat) : Bool :=
  match node.kind.element? with
  | some { startTagOpen := some opening, startTagClose := some closing, .. } =>
    opening < offset && offset ≤ closing
  | _ => false

/-- Whether an offset lies behind `<` of an end tag and before the end of the node. -/
def inEndTag (node : Node) (offset : Nat) : Bool :=
  (node.kind.element?.bind (·.endTagOpen)).any fun opening ↦
    opening < offset && offset < node.stop

end Node

end TolerantXml
