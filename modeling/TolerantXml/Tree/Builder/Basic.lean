import TolerantXml.Tree.Document

/-!
# Builders

A builder holds a document that grows and its innermost open node. Nodes are opened below that
node and closed from it upwards; the root is never closed and always covers all of the text.
-/

namespace TolerantXml

/-- Where the builder is, as the kind of the innermost open node tells. -/
inductive BuildState where
  | atRoot
  | inElement
  | inComment
  | inCdata
  | inInstruction
  | inDoctype
  | inDeclaration
  deriving DecidableEq, Repr

/-- A document that is being built. -/
structure Builder where
  doc : Document
  /-- The innermost open node. -/
  current : Nat
  /-- The node and the place among its attributes that the next value is for. -/
  pending : Option (Nat × Nat)
  /-- The offset of the end tag that was opened last. -/
  endTagOpen : Option Nat
  /-- The element that a tag closed last. -/
  lastClosed : Option Nat
  deriving Repr

namespace Builder

/-- A builder before the first token. A document of declarations only stands in a document type
that covers all of the text. -/
def start (text uri : Text) (mode : Mode) : Builder :=
  let doc := Document.ofText text uri mode
  let empty : Builder := ⟨doc, Document.root, none, none, none⟩
  match mode with
  | .xml => empty
  | .dtd =>
    { empty with
      doc := doc.addChild Document.root
        { kind := .doctype {}, start := 0, stop := text.byteSize }
      current := doc.count }

/-- The innermost open node. -/
def currentNode (b : Builder) : Node := b.doc.node b.current

/-- Where the builder is. -/
def state (b : Builder) : BuildState :=
  match b.currentNode.kind with
  | .document => .atRoot
  | .element _ | .text => .inElement
  | .comment _ => .inComment
  | .cdata _ => .inCdata
  | .instruction _ => .inInstruction
  | .doctype _ => .inDoctype
  | .elementDecl _ | .attlistDecl _ | .entityDecl _ => .inDeclaration

/-- Moves the end of a node other than the root. -/
def setStop (b : Builder) (stop : Nat) (id : Nat) : Builder :=
  if id = Document.root then b
  else { b with doc := b.doc.modify id fun node ↦ { node with stop := stop } }

/-- Moves the end of the current node. -/
def setCurrentStop (b : Builder) (stop : Nat) : Builder := b.setStop stop b.current

/-- Changes what the current node stands for. -/
def modifyKind (b : Builder) (change : NodeKind → NodeKind) : Builder :=
  { b with doc := b.doc.modify b.current (Node.modifyKind change) }

/-- Adds a child to the current node and makes it the current one. -/
def openNode (b : Builder) (node : Node) : Builder :=
  let id := b.doc.count
  { b with doc := b.doc.addChild b.current node, current := id }

/-- Opens a node that reaches to the end of the text until it is closed. -/
def openToEnd (b : Builder) (kind : NodeKind) (start : Nat) : Builder :=
  b.openNode { kind := kind, start := start, stop := b.doc.length }

/-- Closes the current node, unless it is the root, and returns to its parent. -/
def close (b : Builder) (stop : Nat) : Builder :=
  match b.currentNode.parent with
  | none => b
  | some parent =>
    { b with
      doc := b.doc.modify b.current fun node ↦ { node with closed := true, stop := stop }
      current := parent }

/-- Closes the current node if it is of some kind. -/
def closeIf (b : Builder) (p : NodeKind → Bool) (stop : Nat) : Builder :=
  if p b.currentNode.kind then b.close stop else b

/-- Closes the current node at the end of a tag, and remembers it. -/
def closeTag (b : Builder) (stop : Nat) : Builder :=
  let closing := b.current
  let closed := b.close stop
  if closed.current = closing then closed else { closed with lastClosed := some closing }

/-- Ends a declaration that is not closed before something else that starts at `offset`. -/
def leaveDeclaration (b : Builder) (offset : Nat) : Builder :=
  match b.currentNode.parent with
  | some parent =>
    if b.currentNode.kind.isDeclaration then
      { b.setCurrentStop (max (offset - 1) b.currentNode.start) with current := parent }
    else b
  | none => b

/-- Ends a node before `offset`, not before its own start or the end of its last child. -/
def endBefore (offset : Nat) (b : Builder) (id : Nat) : Builder :=
  let node := b.doc.node id
  let lastChild := (node.children.getLast?.map fun child ↦ (b.doc.node child).stop).getD 0
  b.setStop (max (max (offset - 1) node.start) lastChild) id

/-- Returns to the innermost open document type, and ends everything open in it before
`offset`, the innermost node first. -/
def returnToDoctype (b : Builder) (offset : Nat) : Builder :=
  let isDoctype := fun id ↦ (b.doc.node id).kind.isDoctype
  let path := b.doc.path b.current
  match path.find? isDoctype with
  | none => b
  | some doctype =>
    { (path.takeWhile fun id ↦ !isDoctype id).foldl (endBefore offset) b with
      current := doctype }

end Builder

end TolerantXml
