import TolerantXml.Proofs.Print.Forest
import TolerantXml.Proofs.Tree.AttributeList
import TolerantXml.Proofs.Tree.Moves

/-!
# Builders that take a forest

A builder that took the tokens of a forest has its nodes as children of the current node, and is
otherwise as before (`Builder.Grown`). While an item is read its node is open, with what was read of
its children below it (`Builder.Opened`). Both leave the end of the node around open.
-/

namespace TolerantXml

/-- A change of the last item. -/
theorem modify_concat {α : Type} (items : List α) (last : α) (change : α → α) :
    (items ++ [last]).modify items.length change = items ++ [change last] := by
  induction items with
  | nil => rfl
  | cons item items ih => simp [ih]

namespace Builder

variable {b b' b'' : Builder} {forest other : Forest} {kind : NodeKind} {start stop offset : Nat}

/-- A builder behind a forest that was printed at an offset. -/
structure Grown (forest : Forest) (offset : Nat) (b b' : Builder) : Prop where
  current_eq : b'.current = b.current
  text_eq : b'.doc.text = b.doc.text
  count_eq : b'.doc.count = b.doc.count + forest.size
  around : ∃ stop, b'.doc.node b.current =
    { b.currentNode with
      children := b.currentNode.children ++ forest.roots b.doc.count, stop := stop }
  node_eq : ∀ id < b.doc.count, id ≠ b.current → b'.doc.node id = b.doc.node id
  laid : forest.Laid b'.doc b.current b.doc.count offset

/-- A builder with a node open in the current node of another, and a forest in the open node. -/
structure Opened (b : Builder) (kind : NodeKind) (start : Nat) (forest : Forest) (offset : Nat)
    (b' : Builder) : Prop where
  current_eq : b'.current = b.doc.count
  text_eq : b'.doc.text = b.doc.text
  count_eq : b'.doc.count = b.doc.count + 1 + forest.size
  kind_eq : b'.currentNode.kind = kind
  start_eq : b'.currentNode.start = start
  parent_eq : b'.currentNode.parent = some b.current
  children_eq : b'.currentNode.children = forest.roots (b.doc.count + 1)
  around : ∃ stop, b'.doc.node b.current =
    { b.currentNode with children := b.currentNode.children ++ [b.doc.count], stop := stop }
  node_eq : ∀ id < b.doc.count, id ≠ b.current → b'.doc.node id = b.doc.node id
  laid : forest.Laid b'.doc b.doc.count (b.doc.count + 1) offset

/-! ### Forests one behind the other -/

theorem Grown.refl (b : Builder) (offset : Nat) : Grown .nil offset b b where
  current_eq := rfl
  text_eq := rfl
  count_eq := rfl
  around := ⟨b.currentNode.stop, by rw [Forest.roots, List.append_nil]; rfl⟩
  node_eq _ _ _ := rfl
  laid := trivial

/-- Besides the document only the place of the builder matters. -/
theorem Grown.of_eq (grown : Grown forest offset b b') (doc : b''.doc = b'.doc)
    (current : b''.current = b'.current) : Grown forest offset b b'' where
  current_eq := current.trans grown.current_eq
  text_eq := doc ▸ grown.text_eq
  count_eq := doc ▸ grown.count_eq
  around := doc ▸ grown.around
  node_eq := doc ▸ grown.node_eq
  laid := doc ▸ grown.laid

theorem Grown.kind_eq (grown : Grown forest offset b b') :
    b'.currentNode.kind = b.currentNode.kind := by
  obtain ⟨stop, node⟩ := grown.around
  rw [currentNode, grown.current_eq, node]

theorem Grown.current_lt (grown : Grown forest offset b b') (lt : b.current < b.doc.count) :
    b'.current < b'.doc.count := by
  rw [grown.current_eq, grown.count_eq]
  omega

theorem Grown.append (first : Grown forest offset b b')
    (second : Grown other (offset + forest.print.byteSize) b' b'')
    (lt : b.current < b.doc.count) : Grown (forest.append other) offset b b'' := by
  have current := first.current_eq
  have count := first.count_eq
  constructor
  case current_eq =>
    rw [second.current_eq, current]
  case text_eq =>
    rw [second.text_eq, first.text_eq]
  case count_eq =>
    rw [second.count_eq, count, Forest.size_append]
    omega
  case around =>
    obtain ⟨stop₁, node₁⟩ := first.around
    obtain ⟨stop₂, node₂⟩ := second.around
    refine ⟨stop₂, ?_⟩
    rw [← current, node₂, currentNode, current, node₁, count, Forest.roots_append,
      List.append_assoc]
  case node_eq =>
    intro id less notCurrent
    rw [second.node_eq id (by omega) (by omega), first.node_eq id less notCurrent]
  case laid =>
    rw [Forest.laid_append]
    constructor
    · refine first.laid.congr _ fun id ge less ↦ ?_
      rw [second.node_eq id (by omega) (by omega)]
    · have laid := second.laid
      rwa [current, count] at laid

theorem grown_setCurrentStop (lt : b.current < b.doc.count) (stop offset : Nat) :
    Grown .nil offset b (b.setCurrentStop stop) := by
  rw [setCurrentStop, setStop]
  split
  · exact .refl b offset
  · constructor
    · rfl
    · rfl
    · exact Document.count_modify _ _ _
    · refine ⟨stop, ?_⟩
      rw [Document.node_modify _ lt, if_pos rfl, Forest.roots, List.append_nil]
      rfl
    · intro id _ notCurrent
      rw [Document.node_modify _ lt, if_neg notCurrent]
    · trivial

/-! ### Open nodes -/

theorem Grown.openNode (grown : Grown .nil offset b b') (lt : b.current < b.doc.count)
    (kind : NodeKind) (start stop inner : Nat) :
    Opened b kind start .nil inner
      (b'.openNode { kind := kind, start := start, stop := stop }) := by
  have current := grown.current_eq
  have count := grown.count_eq
  have current_lt := grown.current_lt lt
  rw [Forest.size, Nat.add_zero] at count
  obtain ⟨stop', node⟩ := grown.around
  rw [Forest.roots, List.append_nil] at node
  have new : (b'.openNode { kind := kind, start := start, stop := stop }).currentNode =
      { kind := kind, start := start, stop := stop, parent := some b'.current } := by
    rw [currentNode, Builder.openNode, Document.node_addChild _ current_lt, if_pos rfl]
  constructor
  case current_eq =>
    exact count
  case text_eq =>
    exact grown.text_eq
  case count_eq =>
    rw [Builder.openNode, Document.count_addChild, count]
    rfl
  case kind_eq =>
    rw [new]
  case start_eq =>
    rw [new]
  case parent_eq =>
    rw [new, current]
  case children_eq =>
    rw [new]
    rfl
  case around =>
    refine ⟨stop', ?_⟩
    rw [Builder.openNode, Document.node_addChild _ current_lt, if_neg (by omega),
      if_pos current.symm, current, node, count]
  case node_eq =>
    intro id less notCurrent
    rw [Builder.openNode, Document.node_addChild _ current_lt, if_neg (by omega),
      if_neg (by omega), grown.node_eq id less notCurrent]
  case laid =>
    trivial

namespace Opened

/-- The root is never open as an item. -/
private theorem ne_root (opened : Opened b kind start forest offset b')
    (lt : b.current < b.doc.count) : b'.current ≠ Document.root := by
  rw [opened.current_eq]
  exact Nat.ne_of_gt (Nat.lt_of_le_of_lt (Nat.zero_le _) lt)

theorem current_lt (opened : Opened b kind start forest offset b') :
    b'.current < b'.doc.count := by
  rw [opened.current_eq, opened.count_eq]
  omega

/-- Besides the document only the place of the builder matters. -/
theorem of_eq (opened : Opened b kind start forest offset b') (doc : b''.doc = b'.doc)
    (current : b''.current = b'.current) : Opened b kind start forest offset b'' := by
  have node : b''.currentNode = b'.currentNode := by rw [currentNode, currentNode, doc, current]
  constructor
  case current_eq =>
    exact current.trans opened.current_eq
  case text_eq =>
    exact doc ▸ opened.text_eq
  case count_eq =>
    exact doc ▸ opened.count_eq
  case kind_eq =>
    exact node ▸ opened.kind_eq
  case start_eq =>
    exact node ▸ opened.start_eq
  case parent_eq =>
    exact node ▸ opened.parent_eq
  case children_eq =>
    exact node ▸ opened.children_eq
  case around =>
    exact doc ▸ opened.around
  case node_eq =>
    exact doc ▸ opened.node_eq
  case laid =>
    exact doc ▸ opened.laid

/-- The open node may become one of another kind, and end anywhere. -/
theorem modify (opened : Opened b kind start forest offset b') {change : Node → Node}
    {kind' : NodeKind} (lt : b.current < b.doc.count)
    (isKind : (change b'.currentNode).kind = kind')
    (starts : (change b'.currentNode).start = b'.currentNode.start)
    (parent : (change b'.currentNode).parent = b'.currentNode.parent)
    (children : (change b'.currentNode).children = b'.currentNode.children) :
    Opened b kind' start forest offset
      { b' with doc := b'.doc.modify b'.current change } := by
  have current := opened.current_eq
  have current_lt := opened.current_lt
  have node : currentNode { b' with doc := b'.doc.modify b'.current change } =
      change b'.currentNode := by
    rw [currentNode, Document.node_modify _ current_lt, if_pos rfl, currentNode]
  constructor
  case current_eq =>
    exact current
  case text_eq =>
    exact opened.text_eq
  case count_eq =>
    rw [Document.count_modify, opened.count_eq]
  case kind_eq =>
    rw [node, isKind]
  case start_eq =>
    rw [node, starts, opened.start_eq]
  case parent_eq =>
    rw [node, parent, opened.parent_eq]
  case children_eq =>
    rw [node, children, opened.children_eq]
  case around =>
    rw [Document.node_modify _ current_lt, if_neg (by omega)]
    exact opened.around
  case node_eq =>
    intro id less notCurrent
    rw [Document.node_modify _ current_lt, if_neg (by omega), opened.node_eq id less notCurrent]
  case laid =>
    refine opened.laid.congr _ fun id ge less ↦ ?_
    rw [Document.node_modify _ current_lt, if_neg (by omega)]

theorem setCurrentStop (opened : Opened b kind start forest offset b')
    (lt : b.current < b.doc.count) (stop : Nat) :
    Opened b kind start forest offset (b'.setCurrentStop stop) := by
  rw [Builder.setCurrentStop, setStop, if_neg (opened.ne_root lt)]
  exact opened.modify lt opened.kind_eq rfl rfl rfl

theorem modifyKind (opened : Opened b kind start forest offset b')
    (lt : b.current < b.doc.count) {change : NodeKind → NodeKind} {kind' : NodeKind}
    (becomes : change kind = kind') :
    Opened b kind' start forest offset (b'.modifyKind change) :=
  opened.modify lt ((congrArg change opened.kind_eq).trans becomes) rfl rfl rfl

/-- A forest is read in the open node. -/
theorem grown (opened : Opened b kind start forest offset b')
    (grown : Grown other (offset + forest.print.byteSize) b' b'')
    (lt : b.current < b.doc.count) :
    Opened b kind start (forest.append other) offset b'' := by
  have current := opened.current_eq
  have count := opened.count_eq
  obtain ⟨stop, node⟩ := grown.around
  rw [← grown.current_eq, ← currentNode] at node
  constructor
  case current_eq =>
    rw [grown.current_eq, current]
  case text_eq =>
    rw [grown.text_eq, opened.text_eq]
  case count_eq =>
    rw [grown.count_eq, count, Forest.size_append]
    omega
  case kind_eq =>
    rw [node, opened.kind_eq]
  case start_eq =>
    rw [node, opened.start_eq]
  case parent_eq =>
    rw [node, opened.parent_eq]
  case children_eq =>
    rw [node, opened.children_eq, count, Forest.roots_append]
  case around =>
    obtain ⟨stop, around⟩ := opened.around
    exact ⟨stop, by rw [grown.node_eq _ (by omega) (by omega), around]⟩
  case node_eq =>
    intro id less notCurrent
    rw [grown.node_eq id (by omega) (by omega), opened.node_eq id less notCurrent]
  case laid =>
    rw [Forest.laid_append]
    constructor
    · refine opened.laid.congr _ fun id ge less ↦ ?_
      rw [grown.node_eq id (by omega) (by omega)]
    · have laid := grown.laid
      rwa [current, count] at laid

/-! ### Closing -/

/-- The open node is closed and becomes an item. -/
theorem grown_close (opened : Opened b kind start forest offset b') (lt : b.current < b.doc.count)
    {item : Forest} (size : item.size = 1 + forest.size) (roots : ∀ id, item.roots id = [id])
    (laid : ∀ doc : Document,
      doc.node b.doc.count =
        ⟨kind, start, stop, true, some b.current, forest.roots (b.doc.count + 1)⟩ →
      forest.Laid doc b.doc.count (b.doc.count + 1) offset →
      item.Laid doc b.current b.doc.count start) :
    Grown item start b (b'.close stop) := by
  have current := opened.current_eq
  have current_lt := opened.current_lt
  have closed : b'.close stop =
      { b' with
        doc := b'.doc.modify b'.current fun node ↦ { node with closed := true, stop := stop }
        current := b.current } := by
    simp only [close, opened.parent_eq]
  rw [closed]
  constructor
  case current_eq =>
    rfl
  case text_eq =>
    exact opened.text_eq
  case count_eq =>
    rw [Document.count_modify, opened.count_eq, size]
    omega
  case around =>
    obtain ⟨stop, around⟩ := opened.around
    refine ⟨stop, ?_⟩
    rw [Document.node_modify _ current_lt, if_neg (by omega), around, roots]
  case node_eq =>
    intro id less notCurrent
    rw [Document.node_modify _ current_lt, if_neg (by omega), opened.node_eq id less notCurrent]
  case laid =>
    apply laid
    · rw [Document.node_modify _ current_lt, if_pos current.symm, ← currentNode]
      simp only [← opened.kind_eq, ← opened.start_eq, ← opened.parent_eq, ← opened.children_eq]
    · refine opened.laid.congr _ fun id ge less ↦ ?_
      rw [Document.node_modify _ current_lt, if_neg (by omega)]

end Opened

/-- A tag closes a node as anything does. -/
private theorem closeTag_eq (b : Builder) (stop : Nat) :
    (b.closeTag stop).doc = (b.close stop).doc ∧
      (b.closeTag stop).current = (b.close stop).current := by
  rw [closeTag]
  split
  · exact ⟨rfl, rfl⟩
  · exact ⟨rfl, rfl⟩

/-- An element whose tags were read is closed where the last of them ends. -/
theorem Opened.grown_closeTag {tag : Tag} {children : Forest}
    (opened : Opened b (.element (tag.element start children)) start children
      (start + tag.opening.byteSize + 1) b')
    (lt : b.current < b.doc.count) :
    Grown (.element tag children .nil) start b
      (b'.closeTag (start + (Forest.element tag children .nil).print.byteSize)) := by
  obtain ⟨doc, current⟩ :=
    closeTag_eq b' (start + (Forest.element tag children .nil).print.byteSize)
  apply Grown.of_eq _ doc current
  exact opened.grown_close lt rfl (fun _ ↦ rfl) fun doc node inner ↦ ⟨node, inner, trivial⟩

/-! ### Leaves -/

/-- A leaf that was opened and got its contents is closed where it ends. -/
theorem Opened.grown_leaf {leaf : Leaf} {sameLine : Bool}
    (opened : Opened b (leaf.kind start sameLine) start .nil offset b')
    (lt : b.current < b.doc.count) :
    Grown (.leaf leaf .nil) start b (b'.close (start + leaf.print.byteSize)) := by
  refine opened.grown_close lt rfl (fun _ ↦ rfl) fun doc node _ ↦ ?_
  exact ⟨⟨sameLine, node⟩, trivial⟩

theorem grown_addText {content : Text} (lt : b.current < b.doc.count)
    (notBlank : content.isBlank = false) (start : Nat) :
    Grown (.leaf (.text content) .nil) start b
      (b.addText ⟨.content, ⟨start, start + content.byteSize⟩, content⟩) := by
  rw [addText, if_neg (by rw [notBlank]; decide)]
  constructor
  case current_eq =>
    rfl
  case text_eq =>
    rfl
  case count_eq =>
    exact Document.count_addChild _ _ _
  case around =>
    refine ⟨b.currentNode.stop, ?_⟩
    rw [Document.node_addChild _ lt, if_neg (by omega), if_pos rfl]
    rfl
  case node_eq =>
    intro id less notCurrent
    rw [Document.node_addChild _ lt, if_neg (by omega), if_neg notCurrent]
  case laid =>
    refine ⟨⟨false, ?_⟩, trivial⟩
    rw [Document.node_addChild _ lt, if_pos rfl]
    rfl

/-- Where no declaration is open none is left. -/
theorem leaveDeclaration_eq (notDecl : b.currentNode.kind.isDeclaration = false) (offset : Nat) :
    b.leaveDeclaration offset = b := by
  unfold leaveDeclaration
  split
  · rw [if_neg (by rw [notDecl]; decide)]
  · rfl

theorem opened_openToEnd (lt : b.current < b.doc.count) (kind : NodeKind) (start : Nat) :
    Opened b kind start .nil start (b.openToEnd kind start) :=
  (Grown.refl b start).openNode lt kind start _ _

theorem Opened.setComment {data : CharacterData}
    (opened : Opened b (.comment data) start forest offset b') (lt : b.current < b.doc.count)
    (span : Span) :
    Opened b (.comment { data with content := some span }) start forest offset
      (b'.setComment span) :=
  opened.modifyKind lt rfl

theorem Opened.setCdata {data : CharacterData}
    (opened : Opened b (.cdata data) start forest offset b') (lt : b.current < b.doc.count)
    (span : Span) :
    Opened b (.cdata { data with content := some span }) start forest offset
      (b'.setCdata span) := by
  have isCdata : b'.currentNode.kind.isCdata = true := by
    rw [opened.kind_eq]
    rfl
  rw [Builder.setCdata, if_pos isCdata]
  apply Opened.setCurrentStop _ lt
  exact opened.modifyKind lt rfl

theorem Opened.setTarget {i : Instruction}
    (opened : Opened b (.instruction i) start forest offset b') (lt : b.current < b.doc.count)
    (token : Token) (isProlog : Bool) :
    Opened b (.instruction { i with target := some token.text, isProlog := isProlog }) start
      forest offset (b'.setTarget token isProlog) :=
  opened.modifyKind lt rfl

theorem Opened.setInstructionData {i : Instruction}
    (opened : Opened b (.instruction i) start forest offset b') (lt : b.current < b.doc.count)
    (span : Span) :
    Opened b (.instruction { i with content := some span }) start forest offset
      (b'.setInstructionData span) :=
  opened.modifyKind lt rfl

/-! ### Tags -/

theorem Opened.nameElement {e : Element}
    (opened : Opened b (.element e) start forest offset b') (lt : b.current < b.doc.count)
    (token : Token) :
    Opened b (.element { e with tagName := some token.text }) start forest offset
      (b'.nameElement token) := by
  have isElement : b'.currentNode.kind.isElement = true := by
    rw [opened.kind_eq]
    rfl
  rw [Builder.nameElement, if_pos isElement]
  apply Opened.setCurrentStop _ lt
  exact opened.modifyKind lt rfl

theorem Opened.endStartTag {e : Element}
    (opened : Opened b (.element e) start forest offset b') (lt : b.current < b.doc.count)
    (span : Span) :
    Opened b (.element { e with startTagClose := some span.start }) start forest offset
      (b'.endStartTag span) := by
  apply Opened.setCurrentStop _ lt
  exact opened.modifyKind lt rfl

theorem Opened.openEndTag (opened : Opened b kind start forest offset b')
    (lt : b.current < b.doc.count) (span : Span) :
    Opened b kind start forest offset (b'.openEndTag span) := by
  have recorded : Opened b kind start forest offset { b' with endTagOpen := some span.start } :=
    opened.of_eq rfl rfl
  exact recorded.setCurrentStop lt _

/-- The end tag of the open element matches it at once. -/
theorem Opened.nameEndTag {e : Element} {opening : Nat}
    (opened : Opened b (.element e) start forest offset b') (lt : b.current < b.doc.count)
    (token : Token) (atOpening : b'.endTagOpen = some opening)
    (isName : e.tagName = some token.text) :
    Opened b (.element { e with endTagOpen := some opening }) start forest offset
      (b'.nameEndTag token) := by
  have isMatch : b'.matchesTag token.text b'.current = true := by
    rw [matchesTag, ← currentNode, opened.kind_eq]
    simp [NodeKind.element?, Element.matchesTag, isName, sameTagName]
  rcases nameEndTag_cases b' token with
    ⟨before, element, after, path, -, others, eq⟩ | ⟨others, -⟩
  · rw [Document.path] at path
    cases before with
    | cons first before =>
      obtain ⟨rfl, -⟩ := List.cons.inj path
      have notMatch := others b'.current List.mem_cons_self
      rw [isMatch] at notMatch
      cases notMatch
    | nil =>
      obtain ⟨rfl, -⟩ := List.cons.inj path
      rw [eq, atOpening]
      refine opened.modify lt ?_ rfl rfl rfl
      show NodeKind.modifyElement _ b'.currentNode.kind = _
      rw [opened.kind_eq]
      rfl
  · have notMatch := others b'.current Document.Linked.mem_path_self
    rw [isMatch] at notMatch
    cases notMatch

/-! ### Attributes -/

/-- A new name waits for its value behind the other attributes. -/
theorem Opened.nameAttribute {e : Element}
    (opened : Opened b (.element e) start forest offset b') (lt : b.current < b.doc.count)
    (token : Token) (new : token.text ∉ e.attributes.map (·.name)) :
    Opened b
        (.element { e with attributes := e.attributes ++ [.named token.text token.span] })
        start forest offset (b'.nameAttribute token) ∧
      (b'.nameAttribute token).pending = some (b'.current, e.attributes.length) := by
  have attributes : b'.currentNode.kind.attributes? = some e.attributes := by
    rw [opened.kind_eq]
    rfl
  obtain ⟨atEnd, put⟩ :=
    Attribute.put_of_not_mem e.attributes (.named token.text token.span) new
  have becomes : NodeKind.modifyAttributes (Attribute.put · (.named token.text token.span))
      (.element e) =
      .element { e with attributes := e.attributes ++ [.named token.text token.span] } := by
    rw [← put]
    rfl
  constructor
  · simp only [Builder.nameAttribute, attributes]
    apply Opened.setCurrentStop _ lt
    exact (opened.modifyKind lt becomes).of_eq rfl rfl
  · simp only [Builder.nameAttribute, attributes, pending_setCurrentStop]
    rw [← atEnd]
    rfl

theorem Opened.setAttributeValue {token : Token} {kind' : NodeKind} {index : Nat}
    (opened : Opened b kind start forest offset b') (lt : b.current < b.doc.count)
    (pending : b'.pending = some (b'.current, index))
    (becomes : kind.modifyAttributes
      (fun attributes ↦ attributes.modify index (·.withValue token.text token.span)) = kind') :
    Opened b kind' start forest offset (b'.setAttributeValue token) := by
  simp only [Builder.setAttributeValue, pending]
  apply Opened.setCurrentStop _ lt
  exact (opened.modifyKind lt becomes).of_eq rfl rfl

end Builder

end TolerantXml
