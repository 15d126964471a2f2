import TolerantXml.Text.Blank
import TolerantXml.Token
import TolerantXml.Tree.Builder.Basic

/-!
# Building elements and character data

What a builder does with the tokens of tags, attributes, text, comments, character data sections
and instructions. An end tag that matches nothing gets an element of its own, and an element
between an end tag and its match ends where the end tag starts.
-/

namespace TolerantXml.Builder

/-! ### Elements and their attributes -/

/-- Opens an element at `<`, where the text of the current node ends so far. -/
def openElement (b : Builder) (span : Span) : Builder :=
  (b.setCurrentStop span.start).openNode
    { kind := .element { startTagOpen := some span.start }, start := span.start, stop := span.stop }

/-- Names the current element. -/
def nameElement (b : Builder) (token : Token) : Builder :=
  if b.currentNode.kind.isElement then
    (b.modifyKind (.modifyElement fun e ↦ { e with tagName := some token.text })).setCurrentStop
      token.stop
  else b

/-- Ends a start tag at `>`. -/
def endStartTag (b : Builder) (span : Span) : Builder :=
  (b.modifyKind fun kind ↦
    (kind.modifyElement fun e ↦ { e with startTagClose := some span.start }).modifyInstruction
      fun i ↦ { i with closedAsTag := true }).setCurrentStop span.stop

/-- Ends the tag of an element without content. -/
def endEmptyTag (b : Builder) (span : Span) : Builder :=
  (b.modifyKind (.modifyElement fun e ↦ { e with selfClosed := true })).closeTag span.stop

/-- Opens an end tag. -/
def openEndTag (b : Builder) (span : Span) : Builder :=
  { b with endTagOpen := some span.start }.setCurrentStop span.start

/-- Whether a node is an element that an end tag of some name closes. -/
def matchesTag (b : Builder) (name : Text) (id : Nat) : Bool :=
  (b.doc.node id).kind.element?.any (·.matchesTag name)

/-- Takes the name of an end tag. It closes the innermost open element of that name, and what is
open in that element ends where the end tag starts. If there is none, the end tag gets an element
of its own, and everything open ends where it starts. -/
def nameEndTag (b : Builder) (token : Token) : Builder :=
  let opening := b.endTagOpen.getD token.start
  let path := b.doc.path b.current
  let matched := path.find? (b.matchesTag token.text)
  let unmatched := path.takeWhile fun id ↦ !b.matchesTag token.text id
  let passed := unmatched.foldl (fun b id ↦ b.setStop opening id) b
  match matched with
  | some element =>
    { passed with
      doc := passed.doc.modify element fun node ↦
        { node with
          closed := true
          stop := token.stop
          kind := node.kind.modifyElement fun e ↦ { e with endTagOpen := some opening } }
      current := element }
  | none =>
    passed.openNode
      { kind := .element { tagName := some token.text, endTagOpen := some opening }
        start := opening
        stop := token.stop }

/-- Ends an end tag at `>`. -/
def endEndTag (b : Builder) (span : Span) : Builder :=
  (b.modifyKind (.modifyElement fun e ↦ { e with endTagClose := some span.start })).closeTag
    span.stop

/-- Takes the name of an attribute of the current node. -/
def nameAttribute (b : Builder) (token : Token) : Builder :=
  let named :=
    match b.currentNode.kind.attributes? with
    | none => b
    | some attributes =>
      let place := (b.current, Attribute.indexOf attributes token.text)
      { b.modifyKind (.modifyAttributes (Attribute.put · (.named token.text token.span))) with
        pending := some place }
  named.setCurrentStop token.stop

/-- Takes the value of the attribute that waits for one. -/
def setAttributeValue (b : Builder) (token : Token) : Builder :=
  let valued :=
    match b.pending with
    | none => b
    | some (owner, index) =>
      { b with
        doc := b.doc.modify owner <| Node.modifyKind <| .modifyAttributes fun attributes ↦
          attributes.modify index (·.withValue token.text token.span)
        pending := none }
  valued.setCurrentStop token.stop

/-! ### Text, comments, character data sections and instructions -/

/-- Adds text to the current node, unless it is blank. -/
def addText (b : Builder) (token : Token) : Builder :=
  if token.text.isBlank then b
  else
    { b with
      doc := b.doc.addChild b.current
        { kind := .text, start := token.start, stop := token.stop, closed := true } }

/-- Whether something at `offset` starts on the line where the element closed last ended. -/
def followsOnSameLine (b : Builder) (offset : Nat) : Bool :=
  match b.lastClosed with
  | none => false
  | some closed =>
    let stop := (b.doc.node closed).stop
    match b.doc.text.positionAt stop, b.doc.text.positionAt offset with
    | .ok endsAt, .ok startsAt => stop ≤ offset && endsAt.line == startsAt.line
    | _, _ => false

/-- Opens a comment. -/
def openComment (b : Builder) (start : Nat) : Builder :=
  let b := b.leaveDeclaration start
  b.openToEnd (.comment { sameLine := b.followsOnSameLine start }) start

/-- Takes the text of a comment. -/
def setComment (b : Builder) (span : Span) : Builder :=
  b.modifyKind fun
    | .comment data => .comment { data with content := some span }
    | kind => kind

/-- Takes the text of a character data section. -/
def setCdata (b : Builder) (span : Span) : Builder :=
  if b.currentNode.kind.isCdata then
    (b.modifyKind fun
      | .cdata data => .cdata { data with content := some span }
      | kind => kind).setCurrentStop span.stop
  else b

/-- Opens an instruction or the prolog. -/
def openInstruction (b : Builder) (start : Nat) : Builder :=
  (b.leaveDeclaration start).openToEnd (.instruction {}) start

/-- Takes the target of an instruction or of the prolog. -/
def setTarget (b : Builder) (token : Token) (isProlog : Bool) : Builder :=
  b.modifyKind <| .modifyInstruction fun i ↦
    { i with target := some token.text, isProlog := isProlog }

/-- Takes the data of an instruction. -/
def setInstructionData (b : Builder) (span : Span) : Builder :=
  b.modifyKind <| .modifyInstruction fun i ↦ { i with content := some span }

end TolerantXml.Builder
