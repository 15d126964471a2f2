import TolerantXml.Proofs.Tree.Declared
import TolerantXml.Proofs.Tree.Shifts

/-!
# The stages of a token

A builder that takes a token makes some shifts, writes into a node, makes more shifts, and then adds
a node or does not (`Builder.Stages`). The node that it writes into, what it writes, and what the
new node stands for are functions of the token and the builder (`Builder.subject`,
`Builder.rewrite`, `Builder.added`). Every token goes through these stages
(`Builder.hasStages_apply`), and what holds of every token follows from them.
-/

namespace TolerantXml

namespace Document

variable {doc : Document} {id : Nat}

/-- A change that makes no difference to a node. -/
private theorem modify_of_eq {change : Node → Node} (same : change (doc.node id) = doc.node id) :
    doc.modify id change = doc := by
  have nodes : doc.nodes.modify id change = doc.nodes := by
    apply Array.ext
    · rw [Array.size_modify]
    · intro i _ inside
      rw [Array.getElem_modify]
      split
      · next isPlace =>
        subst isPlace
        have isNode : doc.node id = doc.nodes[id] := by simp [node, inside]
        rw [← isNode, same]
      · rfl
  rw [modify, nodes]

/-- Changes of one node one after another. -/
private theorem modify_modify (doc : Document) (id : Nat) (first second : Node → Node) :
    (doc.modify id first).modify id second = doc.modify id fun node ↦ second (first node) := by
  have nodes : (doc.nodes.modify id first).modify id second =
      doc.nodes.modify id fun node ↦ second (first node) := by
    apply Array.ext
    · simp only [Array.size_modify]
    · intro i _ _
      simp only [Array.getElem_modify]
      split
      · rfl
      · rfl
  simp only [modify, nodes]

end Document

/-- What a token of a kind may open. -/
def TokenKind.opens : TokenKind → Option Frame
  | .startTagOpen | .endTag => some .element
  | .content => some .text
  | .commentOpen => some .comment
  | .cdataOpen => some .cdata
  | .instructionOpen => some .instruction
  | .doctypeOpen => some .doctype
  | .elementDeclOpen => some .elementDecl
  | .attlistOpen => some .attlistDecl
  | .entityOpen => some .entityDecl
  | _ => none

/-- Takes the field of a document type that a token is. -/
def Doctype.setPart (doctype : Doctype) (kind : TokenKind) (parameter : Parameter) : Doctype :=
  match kind with
  | .doctypeName => { doctype with name := some parameter }
  | .doctypePublic | .doctypeSystem => { doctype with externalId.keyword := some parameter }
  | .doctypePublicId => { doctype with externalId.publicId := some parameter }
  | .doctypeSystemId => { doctype with externalId.systemId := some parameter }
  | _ => doctype

/-- Takes a parameter of the header of a document type. -/
def Doctype.take (doctype : Doctype) (token : Token) : Doctype :=
  { doctype.setPart token.kind token.parameter with
    parameters := doctype.parameters ++ [token.parameter] }

/-- Takes a parameter into a declaration, or into the document type around one. -/
def NodeKind.takeParameter (kind : NodeKind) (token : Token) : NodeKind :=
  match kind with
  | .doctype d => if token.kind = .unrecognized then .doctype (d.take token) else .doctype d
  | kind => kind.take token

theorem NodeKind.frame_takeParameter (token : Token) (kind : NodeKind) :
    (kind.takeParameter token).frame = kind.frame := by
  cases kind with
  | doctype d =>
    rw [takeParameter]
    split
    · rfl
    · rfl
  | _ => rfl

namespace Builder

/-- The node that a token writes into. -/
def subject (b : Builder) (token : Token) : Nat :=
  match token.kind with
  | .endTag | .subsetClose => (b.apply token).current
  | .attributeValue => (b.pending.map (·.1)).getD b.current
  | _ => b.current

/-- What a token makes of the node that it writes into. -/
def rewrite (b : Builder) (token : Token) : NodeKind → NodeKind :=
  match token.kind with
  | .startTag => .modifyElement fun e ↦ { e with tagName := some token.text }
  | .startTagClose => fun kind ↦
    (kind.modifyElement fun e ↦ { e with startTagClose := some token.start }).modifyInstruction
      fun i ↦ { i with closedAsTag := true }
  | .emptyTagClose => .modifyElement fun e ↦ { e with selfClosed := true }
  | .endTag => .modifyElement fun e ↦
    { e with endTagOpen := some (b.endTagOpen.getD token.start) }
  | .endTagClose => .modifyElement fun e ↦ { e with endTagClose := some token.start }
  | .attributeName => .modifyAttributes (Attribute.put · (.named token.text token.span))
  | .attributeValue => .modifyAttributes fun attributes ↦
    (b.pending.map (·.2)).elim attributes
      (attributes.modify · (·.withValue token.text token.span))
  | .comment => fun
    | .comment data => .comment { data with content := some token.span }
    | kind => kind
  | .cdata => fun
    | .cdata data => .cdata { data with content := some token.span }
    | kind => kind
  | .prologTarget => .modifyInstruction fun i ↦
    { i with target := some token.text, isProlog := true }
  | .instructionTarget => .modifyInstruction fun i ↦
    { i with target := some token.text, isProlog := false }
  | .instructionData => .modifyInstruction fun i ↦ { i with content := some token.span }
  | .doctypeName | .doctypePublic | .doctypeSystem | .doctypePublicId | .doctypeSystemId =>
    .modifyDoctype (·.take token)
  | .subsetOpen => .modifyDoctype fun d ↦ { d with subsetStart := some token.start }
  | .subsetClose => .modifyDoctype fun d ↦ { d with subsetStop := some token.start }
  | .elementDeclName | .elementDeclCategory | .elementDeclContent | .attlistElement
  | .attlistName | .attlistType | .attlistDefault | .entityPercent | .entityName
  | .entityValue | .entityPublic | .entitySystem | .entityPublicId | .entitySystemId
  | .unrecognized => (·.takeParameter token)
  | _ => id

/-- What the node stands for that a token adds, if it adds one. -/
def added (b : Builder) (token : Token) : NodeKind :=
  match token.kind with
  | .startTagOpen => .element { startTagOpen := some token.start }
  | .endTag => (b.strayElement token).kind
  | .content => .text
  | .commentOpen =>
    .comment { sameLine := (b.leaveDeclaration token.start).followsOnSameLine token.start }
  | .cdataOpen => .cdata {}
  | .instructionOpen => .instruction {}
  | .doctypeOpen => .doctype {}
  | .elementDeclOpen =>
    .elementDecl { keyword := .keywordAt b.doc.text token.start Keyword.element }
  | .attlistOpen =>
    .attlistDecl { keyword := .keywordAt b.doc.text token.start Keyword.attlist }
  | .entityOpen =>
    .entityDecl { keyword := .keywordAt b.doc.text token.start Keyword.entity }
  | _ => .document

/-! ### What stays of a kind -/

theorem frame_rewrite (b : Builder) (token : Token) (kind : NodeKind) :
    (b.rewrite token kind).frame = kind.frame := by
  unfold rewrite
  cases token.kind with
  | startTag | emptyTagClose | endTag | endTagClose => exact NodeKind.frame_modifyElement _ kind
  | startTagClose =>
    exact (NodeKind.frame_modifyInstruction _ _).trans (NodeKind.frame_modifyElement _ kind)
  | attributeName | attributeValue => exact NodeKind.frame_modifyAttributes _ kind
  | comment | cdata => cases kind <;> rfl
  | prologTarget | instructionTarget | instructionData =>
    exact NodeKind.frame_modifyInstruction _ kind
  | doctypeName | doctypePublic | doctypeSystem | doctypePublicId | doctypeSystemId | subsetOpen
  | subsetClose => exact NodeKind.frame_modifyDoctype _ kind
  | elementDeclName | elementDeclCategory | elementDeclContent | attlistElement | attlistName
  | attlistType | attlistDefault | entityPercent | entityName | entityValue | entityPublic
  | entitySystem | entityPublicId | entitySystemId | unrecognized =>
    exact NodeKind.frame_takeParameter token kind
  | _ => rfl

/-! ### Growing -/

/-- What a token of a kind adds: nothing, or a node of its kind, as a child of the current node. A
node that is opened is not closed yet. -/
inductive Grows (kind : TokenKind) (c b' : Builder) : Prop where
  | nothing (doc : b'.doc = c.doc) (current : b'.current = c.current)
  | text (node : Node) (isLeaf : node.children = []) (isContent : kind = .content)
    (isText : node.kind = .text) (doc : b'.doc = c.doc.addChild c.current node)
    (current : b'.current = c.current)
  | child (node : Node) (isLeaf : node.children = []) (opens : kind.opens = some node.kind.frame)
    (unclosed : node.closed = false) (doc : b'.doc = c.doc.addChild c.current node)
    (current : b'.current = c.doc.count)

variable {b b' c d : Builder} {kind : TokenKind} {token : Token} {id place : Nat} {node : Node}
  {change : NodeKind → NodeKind} {isAdded : NodeKind}

private theorem Grows.linked (grows : Grows kind c b') (linked : c.Linked) : b'.Linked := by
  cases grows with
  | nothing doc current =>
    exact ⟨doc ▸ linked.doc, by rw [doc, current]; exact linked.current_lt⟩
  | text node isLeaf _ _ doc current =>
    have added := linked.addChild isLeaf
    exact ⟨doc ▸ added.doc, by rw [doc, current]; exact added.current_lt⟩
  | child node isLeaf _ _ doc current =>
    have opened := linked.openNode isLeaf
    exact ⟨doc ▸ opened.doc, by rw [doc, current]; exact opened.current_lt⟩

theorem Grows.node_eq (grows : Grows kind c b') (linked : c.Linked) (lt : id < c.doc.count) :
    (b'.doc.node id).kind = (c.doc.node id).kind ∧
      (b'.doc.node id).closed = (c.doc.node id).closed := by
  have added : ∀ node : Node,
      ((c.doc.addChild c.current node).node id).kind = (c.doc.node id).kind ∧
        ((c.doc.addChild c.current node).node id).closed = (c.doc.node id).closed := by
    intro node
    rw [Document.node_addChild node linked.current_lt, if_neg (Nat.ne_of_lt lt)]
    split
    · next same => rw [same]; exact ⟨rfl, rfl⟩
    · exact ⟨rfl, rfl⟩
  cases grows with
  | nothing doc =>
    rw [doc]
    exact ⟨rfl, rfl⟩
  | text node _ _ _ doc | child node _ _ _ doc =>
    rw [doc]
    exact added node

/-- The builder stands where it stood, or in a new node that was opened there. -/
theorem Grows.path_cases (grows : Grows kind c b') (linked : c.Linked) :
    b'.doc.path b'.current = c.doc.path c.current ∨
      b'.current = c.doc.count ∧ b'.doc.path b'.current = c.doc.count :: c.doc.path c.current ∧
        kind.opens = some (b'.doc.frame c.doc.count) ∧
        (b'.doc.node c.doc.count).closed = false := by
  cases grows with
  | nothing doc current => exact .inl (by rw [doc, current])
  | text node _ _ _ doc current =>
    left
    rw [doc, current]
    exact Document.path_addChild_of_lt linked.current_lt linked.current_lt
  | child node _ opens unclosed doc current =>
    right
    have new := Document.node_addChild node linked.current_lt c.doc.count
    rw [if_pos rfl, ← doc] at new
    refine ⟨current, ?_, ?_, ?_⟩
    · rw [doc, current]
      exact Document.path_addChild_count linked.current_lt
    · rw [Document.frame, new]
      exact opens
    · rw [new]
      exact unclosed

/-! ### Stages -/

/-- A builder before and after it takes a token of a kind, and in between: when it has moved to the
node that it writes into, when it has written, and when it is about to grow. -/
structure Stages (kind : TokenKind) (place : Nat) (change : NodeKind → NodeKind)
    (isAdded : NodeKind) (b moved written grown b' : Builder) : Prop where
  moves : Shifts kind b'.current b moved
  doc_eq : written.doc = moved.doc.modify place (Node.modifyKind change)
  current_eq : written.current = moved.current
  leaves : Shifts kind b'.current written grown
  grows : Grows kind grown b'
  kind_eq : ∀ id, grown.doc.count ≤ id → id < b'.doc.count → (b'.doc.node id).kind = isAdded

/-- Whether a builder goes through such stages. -/
def HasStages (kind : TokenKind) (place : Nat) (change : NodeKind → NodeKind) (isAdded : NodeKind)
    (b b' : Builder) : Prop :=
  ∃ moved written grown, Stages kind place change isAdded b moved written grown b'

/-- A token that adds nothing. -/
private theorem hasStages_of_leaves (moves : Shifts kind b'.current b c)
    (leaves : Shifts kind b'.current d b')
    (doc : d.doc = c.doc.modify place (Node.modifyKind change)) (current : d.current = c.current) :
    HasStages kind place change isAdded b b' :=
  ⟨c, d, b', moves, doc, current, leaves, .nothing rfl rfl,
    fun _ ge lt ↦ absurd lt (Nat.not_lt_of_le ge)⟩

section Fixed

variable (fixed : change (b.doc.node place).kind = (b.doc.node place).kind)
include fixed

/-- Where nothing is written, what would be written is there. -/
private theorem hasStages_of_fixed (leaves : Shifts kind b'.current b c) (grows : Grows kind c b')
    (kind_eq : ∀ id, c.doc.count ≤ id → id < b'.doc.count → (b'.doc.node id).kind = isAdded) :
    HasStages kind place change isAdded b b' := by
  have same : Node.modifyKind change (b.doc.node place) = b.doc.node place := by
    rw [Node.modifyKind, fixed]
  exact ⟨b, b, c, .refl, (Document.modify_of_eq same).symm, rfl, leaves, grows, kind_eq⟩

private theorem hasStages_of_shifts (shifts : Shifts kind b'.current b b') :
    HasStages kind place change isAdded b b' :=
  hasStages_of_fixed fixed shifts (.nothing rfl rfl)
    fun _ ge lt ↦ absurd lt (Nat.not_lt_of_le ge)

private theorem hasStages_of_addChild (lt : c.current < c.doc.count)
    (leaves : Shifts kind b'.current b c) (grows : Grows kind c b')
    (doc : b'.doc = c.doc.addChild c.current node) (isKind : node.kind = isAdded) :
    HasStages kind place change isAdded b b' := by
  refine hasStages_of_fixed fixed leaves grows fun id ge less ↦ ?_
  rw [doc, Document.count_addChild] at less
  rw [doc, Document.node_addChild node lt, if_pos (by omega), isKind]

private theorem hasStages_openNode (lt : c.current < c.doc.count)
    (leaves : Shifts kind (c.openNode node).current b c) (isLeaf : node.children = [])
    (opens : kind.opens = some node.kind.frame) (unclosed : node.closed = false)
    (isKind : node.kind = isAdded) :
    HasStages kind place change isAdded b (c.openNode node) :=
  hasStages_of_addChild fixed lt leaves (.child node isLeaf opens unclosed rfl rfl) rfl isKind

private theorem hasStages_openDeclaration {start : Nat} {keyword : Text}
    {declares : Parameter → NodeKind} (linked : b.Linked)
    (opens : ∀ parameter, kind.opens = some (declares parameter).frame)
    (isKind : declares (.keywordAt b.doc.text start keyword) = isAdded) :
    HasStages kind place change isAdded b (b.openDeclaration start keyword declares) := by
  rw [openDeclaration]
  split
  · refine hasStages_openNode fixed (linked.returnToDoctype start).current_lt
      (shifts_returnToDoctype b start) rfl (opens _) rfl ?_
    rw [(returned_returnToDoctype b start).doc.text_eq, isKind]
  · exact hasStages_of_shifts fixed (shifts_returnToDoctype b start)

end Fixed

/-! ### The stages of every token -/

/-- What the current node stands for changes, and nothing else. -/
private theorem hasStages_modifyKind {change' : NodeKind → NodeKind} (b : Builder)
    (same : ∀ node, change' node = change node) :
    HasStages kind b.current change isAdded b (b.modifyKind change') := by
  obtain rfl : change' = change := funext same
  exact hasStages_of_leaves .refl .refl rfl rfl

private theorem hasStages_nameAttribute (b : Builder) (token : Token) :
    HasStages kind b.current (.modifyAttributes (Attribute.put · (.named token.text token.span)))
      isAdded b (b.nameAttribute token) := by
  simp only [nameAttribute]
  split
  · next none =>
    refine hasStages_of_shifts ?_ (shifts_setCurrentStop b token.stop)
    rw [currentNode] at none
    cases isKind : (b.doc.node b.current).kind with
    | element | instruction =>
      rw [isKind] at none
      cases none
    | _ => rfl
  · exact hasStages_of_leaves .refl (shifts_setCurrentStop _ _) rfl rfl

private theorem hasStages_setAttributeValue (b : Builder) (token : Token) :
    HasStages kind ((b.pending.map (·.1)).getD b.current)
      (.modifyAttributes fun attributes ↦ (b.pending.map (·.2)).elim attributes
        (attributes.modify · (·.withValue token.text token.span))) isAdded b
      (b.setAttributeValue token) := by
  simp only [setAttributeValue]
  split
  · next none =>
    refine hasStages_of_shifts ?_ (shifts_setCurrentStop b token.stop)
    rw [none]
    cases (b.doc.node _).kind <;> rfl
  · next owner index waits =>
    rw [waits]
    exact hasStages_of_leaves .refl (shifts_setCurrentStop _ _) rfl rfl

private theorem hasStages_addDoctypeParameter (b : Builder) (token : Token)
    {set : Parameter → Doctype → Doctype}
    (same : ∀ d : Doctype, set token.parameter
      { d with parameters := d.parameters ++ [token.parameter] } = d.take token) :
    HasStages kind b.current (.modifyDoctype (·.take token)) isAdded b
      (b.addDoctypeParameter token set) := by
  refine hasStages_modifyKind b fun node ↦ ?_
  cases node with
  | doctype d =>
    simp only [NodeKind.modifyDoctype, ← same]
    rfl
  | _ => rfl

private theorem hasStages_addParameter (b : Builder) (token : Token) :
    HasStages kind b.current (·.takeParameter token) isAdded b (b.addParameter token) := by
  refine hasStages_modifyKind b fun node ↦ ?_
  cases node with
  | doctype d =>
    simp only [NodeKind.takeParameter]
    split
    · next isUnrecognized =>
      simp only [Doctype.take, isUnrecognized, Doctype.setPart]
      rfl
    · rfl
  | _ => rfl

/-- A builder moves to the element that an end tag matches, writes where the tag was opened, and
marks the element as closed. -/
private theorem hasStages_closeMatch {before after : List Nat} {element opening : Nat}
    (path : b.doc.path b.current = before ++ element :: after)
    (isElement : b.doc.frame element = .element) (stop : Nat) :
    HasStages .endTag element (.modifyElement fun e ↦ { e with endTagOpen := some opening }) isAdded
      b { b.endAll opening before with
        doc := (b.endAll opening before).doc.modify element fun node ↦
          { node with
            closed := true
            stop := stop
            kind := node.kind.modifyElement fun e ↦ { e with endTagOpen := some opening } }
        current := element } := by
  have inside : before ⊆ b.doc.path b.current := path ▸ List.subset_append_left _ _
  have ended := retouched_endAll inside opening
  have moves : Shifts .endTag element b { b.endAll opening before with current := element } :=
    (shifts_foldl_setStop _ inside).moveTo ended (path ▸ List.mem_append_right _ List.mem_cons_self)
  have written := retouched_modifyKind
    (NodeKind.frame_modifyElement fun e ↦ { e with endTagOpen := some opening })
    { b.endAll opening before with current := element }
  refine hasStages_of_leaves moves (.single (.mark stop rfl ?_ ?_ ?_ ?_)) rfl written.current_eq
  · exact written.current_eq
  · exact (written.doc.frame_eq element).trans ((ended.doc.frame_eq element).trans isElement)
  · exact (Document.modify_modify _ _
      (Node.modifyKind <| .modifyElement fun e ↦ { e with endTagOpen := some opening })
      fun node ↦ { node with closed := true, stop := stop }).symm
  · rfl

/-- The name of an end tag marks the element that it matches, or opens one. -/
private theorem hasStages_nameEndTag (linked : b.Linked) (token : Token) :
    HasStages .endTag (b.nameEndTag token).current
      (.modifyElement fun e ↦ { e with endTagOpen := some (b.endTagOpen.getD token.start) })
      (b.strayElement token).kind b (b.nameEndTag token) := by
  rcases nameEndTag_cases b token with ⟨before, element, after, path, isMatch, -, eq⟩ | ⟨-, eq⟩
  · rw [eq]
    exact hasStages_closeMatch path (frame_of_matchesTag isMatch) token.stop
  · have ended := retouched_endAll (List.Subset.refl (b.doc.path b.current))
      (b.endTagOpen.getD token.start)
    have outside : (b.nameEndTag token).current = b.doc.count := by
      rw [eq]
      exact ended.doc.count_eq
    rw [outside, eq]
    refine hasStages_openNode ?_ (ended.linked linked).current_lt
      (shifts_foldl_setStop _ (List.Subset.refl _)) rfl rfl rfl rfl
    rw [Document.node_of_count_le (Nat.le_refl _)]
    rfl

/-- Every token goes through the stages. -/
theorem hasStages_apply (linked : b.Linked) (token : Token) :
    HasStages token.kind (b.subject token) (b.rewrite token) (b.added token) b
      (b.apply token) := by
  cases isKind : token.kind with
  | startTagOpen =>
    have ended := retouched_setCurrentStop b token.span.start
    simp only [apply, subject, rewrite, added, isKind, openElement]
    exact hasStages_openNode rfl (ended.linked linked).current_lt (shifts_setCurrentStop b _)
      rfl rfl rfl rfl
  | startTag =>
    simp only [apply, subject, rewrite, added, isKind, nameElement]
    split
    · exact hasStages_of_leaves .refl (shifts_setCurrentStop _ _) rfl rfl
    · next notElement =>
      refine hasStages_of_shifts ?_ .refl
      rw [currentNode] at notElement
      cases isElement : (b.doc.node b.current).kind with
      | element => exact absurd (by rw [isElement]; rfl) notElement
      | _ => rfl
  | startTagClose =>
    simp only [apply, subject, rewrite, added, isKind, endStartTag]
    exact hasStages_of_leaves .refl (shifts_setCurrentStop _ _) rfl rfl
  | emptyTagClose =>
    simp only [apply, subject, rewrite, added, isKind]
    exact hasStages_of_leaves .refl (shifts_closeTag .emptyTag _) rfl rfl
  | endTagOpen =>
    simp only [apply, subject, rewrite, added, isKind, openEndTag]
    refine hasStages_of_shifts rfl (.trans ?_ (shifts_setCurrentStop _ _))
    exact .single (.move rfl Document.Linked.mem_path_self)
  | endTag =>
    simp only [apply, subject, rewrite, added, isKind]
    exact hasStages_nameEndTag linked token
  | endTagClose =>
    simp only [apply, subject, rewrite, added, isKind]
    exact hasStages_of_leaves .refl (shifts_closeTag .endTag _) rfl rfl
  | attributeName =>
    simp only [apply, subject, rewrite, added, isKind]
    exact hasStages_nameAttribute b token
  | attributeValue =>
    simp only [apply, subject, rewrite, added, isKind]
    exact hasStages_setAttributeValue b token
  | content =>
    simp only [apply, subject, rewrite, added, isKind, addText]
    split
    · exact hasStages_of_shifts rfl .refl
    · exact hasStages_of_addChild rfl linked.current_lt .refl (.text _ rfl rfl rfl rfl rfl) rfl rfl
  | commentOpen | instructionOpen =>
    simp only [apply, subject, rewrite, added, isKind, openComment, openInstruction, openToEnd]
    exact hasStages_openNode rfl (linked.leaveDeclaration _).current_lt
      (shifts_leaveDeclaration linked _) rfl rfl rfl rfl
  | cdataOpen | doctypeOpen =>
    simp only [apply, subject, rewrite, added, isKind, openToEnd]
    exact hasStages_openNode rfl linked.current_lt .refl rfl rfl rfl rfl
  | cdata =>
    simp only [apply, subject, rewrite, added, isKind, setCdata]
    split
    · exact hasStages_of_leaves .refl (shifts_setCurrentStop _ _) rfl rfl
    · next notCdata =>
      refine hasStages_of_shifts ?_ .refl
      rw [currentNode] at notCdata
      cases isCdata : (b.doc.node b.current).kind with
      | cdata => exact absurd (by rw [isCdata]; rfl) notCdata
      | _ => rfl
  | commentClose | cdataClose | prologClose | instructionClose | declClose =>
    simp only [apply, subject, rewrite, added, isKind]
    exact hasStages_of_shifts rfl (shifts_closeIf (fun _ ↦ rfl) _)
  | comment | prologTarget | instructionTarget | instructionData | subsetOpen =>
    simp only [apply, subject, rewrite, added, isKind]
    exact hasStages_modifyKind b fun _ ↦ rfl
  | doctypeName | doctypePublic | doctypeSystem | doctypePublicId | doctypeSystemId =>
    simp only [apply, subject, rewrite, added, isKind]
    refine hasStages_addDoctypeParameter b token fun d ↦ ?_
    simp only [Doctype.take, Doctype.setPart, isKind]
  | subsetClose =>
    simp only [apply, subject, rewrite, added, isKind]
    exact hasStages_of_leaves (shifts_returnToDoctype b _) .refl rfl rfl
  | doctypeClose =>
    simp only [apply, subject, rewrite, added, isKind]
    exact hasStages_of_shifts rfl
      ((shifts_returnToDoctype b _).trans (shifts_closeIf (fun _ ↦ rfl) _))
  | elementDeclOpen | attlistOpen | entityOpen =>
    simp only [apply, subject, rewrite, added, isKind]
    exact hasStages_openDeclaration rfl linked (fun _ ↦ rfl) rfl
  | elementDeclName | elementDeclCategory | elementDeclContent | attlistElement | attlistName
  | attlistType | attlistDefault | entityPercent | entityName | entityValue | entityPublic
  | entitySystem | entityPublicId | entitySystemId | unrecognized =>
    simp only [apply, subject, rewrite, added, isKind]
    exact hasStages_addParameter b token
  | assign | whitespace | unknown | eos =>
    simp only [apply, subject, rewrite, added, isKind]
    exact hasStages_of_shifts rfl .refl

/-! ### What follows for every token -/

namespace Stages

variable {moved written grown : Builder}
  (stages : Stages kind place change isAdded b moved written grown b')
  (frame : ∀ kind, (change kind).frame = kind.frame) (linked : b.Linked)
include stages

theorem node_written (lt : id < moved.doc.count) : written.doc.node id =
    if id = place then (moved.doc.node id).modifyKind change else moved.doc.node id := by
  rw [stages.doc_eq]
  rcases Nat.lt_or_ge place moved.doc.count with inside | outside
  · rw [Document.node_modify _ inside]
    split
    · next isPlace => rw [isPlace]
    · rfl
  · rw [Document.modify_of_count_le outside, if_neg (by omega)]

/-- What is written closes nothing. -/
private theorem closed_written (id : Nat) :
    (written.doc.node id).closed = (moved.doc.node id).closed := by
  rw [stages.doc_eq]
  rcases Nat.lt_or_ge place moved.doc.count with inside | outside
  · rw [Document.node_modify _ inside]
    split
    · next isPlace => rw [isPlace, Node.modifyKind]
    · rfl
  · rw [Document.modify_of_count_le outside]

include frame

theorem writes : moved.Retouched written := by
  have retouched := retouched_modifyAt frame moved place
  exact ⟨stages.doc_eq ▸ retouched.doc, stages.current_eq⟩

include linked

theorem written_linked : written.Linked :=
  (stages.writes frame).linked ((stages.moves.returned linked).linked linked)

theorem returned : b.Returned grown := by
  have moves := stages.moves.returned linked
  have leaves := stages.leaves.returned (stages.written_linked frame linked)
  exact (moves.trans linked (stages.writes frame).returned).trans linked leaves

theorem grown_linked : grown.Linked := (stages.returned frame linked).linked linked

/-- What nodes stand for is what is written. -/
theorem kind_grown (lt : id < b.doc.count) : (grown.doc.node id).kind =
    if id = place then change (b.doc.node id).kind else (b.doc.node id).kind := by
  have moves := stages.moves.returned linked
  rw [(stages.leaves.endsAs (stages.written_linked frame linked) id).kind_eq,
    stages.node_written (moves.doc.count_eq ▸ lt), ← (stages.moves.endsAs linked id).kind_eq]
  split
  · rfl
  · rfl

theorem closed_mono (closed : (b.doc.node id).closed = true) :
    (grown.doc.node id).closed = true := by
  apply (stages.leaves.endsAs (stages.written_linked frame linked) id).closed_mono
  rw [stages.closed_written]
  exact (stages.moves.endsAs linked id).closed_mono closed

/-- Of the nodes that stay open, only the element that an end tag matches is closed. -/
theorem closed_eq (mem : id ∈ grown.doc.path grown.current)
    (unmatched : ¬ (kind = .endTag ∧ id = b'.current ∧ b.doc.frame id = .element)) :
    (grown.doc.node id).closed = (b.doc.node id).closed := by
  have moves := stages.moves.returned linked
  have writes := stages.writes frame
  have linked' := stages.written_linked frame linked
  have memMoved : id ∈ moved.doc.path moved.current := by
    have memWritten := (stages.leaves.returned linked').mem_path linked' mem
    rwa [writes.doc.path_eq, writes.current_eq] at memWritten
  rw [stages.leaves.closed_eq linked' mem, stages.closed_written,
    stages.moves.closed_eq linked memMoved unmatched]
  rwa [writes.doc.frame_eq, moves.doc.frame_eq]

/-- An element is closed by the end of a tag or by the name of an end tag only. -/
theorem closed_eq_of_element (isElement : b.doc.frame id = .element) (notEnd : ¬ kind.Closes)
    (notName : kind ≠ .endTag) : (grown.doc.node id).closed = (b.doc.node id).closed := by
  have moves := stages.moves.returned linked
  have isWritten : written.doc.frame id = .element := by
    rw [(stages.writes frame).doc.frame_eq, moves.doc.frame_eq, isElement]
  rw [stages.leaves.closed_eq_of_element (stages.written_linked frame linked) isWritten notEnd
      notName, stages.closed_written,
    stages.moves.closed_eq_of_element linked isElement notEnd notName]

end Stages

/-- Whatever the tokens are, the document stays linked. -/
theorem Linked.apply (linked : b.Linked) (token : Token) : (b.apply token).Linked := by
  obtain ⟨moved, written, grown, stages⟩ := hasStages_apply linked token
  exact stages.grows.linked (stages.grown_linked (frame_rewrite b token) linked)

/-- A token of a kind that opens nothing changes open nodes at most, and returns to one of them. -/
theorem returned_apply (linked : b.Linked) (h : token.kind.opens = none) :
    b.Returned (b.apply token) := by
  obtain ⟨moved, written, grown, stages⟩ := hasStages_apply linked token
  have returned := stages.returned (frame_rewrite b token) linked
  cases stages.grows with
  | nothing doc current => exact ⟨doc ▸ returned.doc, current ▸ returned.current_mem⟩
  | text _ _ isContent =>
    rw [isContent] at h
    cases h
  | child _ _ opens =>
    rw [opens] at h
    cases h

end Builder

end TolerantXml
