import TolerantXml.Proofs.Tree.Linked
import TolerantXml.Proofs.Tree.Memory
import TolerantXml.Tree.Builder.Basic

/-!
# The spine of a builder

The spine of a builder is what its open nodes stand for, the innermost first. A builder moves in
three ways: it changes open nodes without moving (`Retouched`), it opens a child of the current
node (`spine_openNode`), and it leaves the current node for its parent (`Left`). Each keeps the
document linked, and their effects on the spine are those on a stack.
-/

namespace TolerantXml

/-- Where a builder is in a node of some frame. -/
def Frame.state : Frame → BuildState
  | .document => .atRoot
  | .element | .text => .inElement
  | .comment => .inComment
  | .cdata => .inCdata
  | .instruction => .inInstruction
  | .doctype => .inDoctype
  | .elementDecl | .attlistDecl | .entityDecl => .inDeclaration

/-- Whether a frame is that of a declaration of an element, an attribute list or an entity. -/
def Frame.isDeclaration : Frame → Bool
  | .elementDecl | .attlistDecl | .entityDecl => true
  | _ => false

/-- Whether a node of a frame may stand in the subset of a document type and not be ended. -/
def Frame.standsInSubset : Frame → Bool
  | .instruction | .elementDecl | .attlistDecl | .entityDecl => true
  | _ => false

theorem Frame.standsInSubset_of_isDeclaration {frame : Frame} (h : frame.isDeclaration = true) :
    frame.standsInSubset = true := by
  revert h
  cases frame <;> simp [isDeclaration, standsInSubset]

namespace NodeKind

variable (kind : NodeKind)

theorem isElement_eq : kind.isElement = decide (kind.frame = .element) := by cases kind <;> rfl

theorem isComment_eq : kind.isComment = decide (kind.frame = .comment) := by cases kind <;> rfl

theorem isCdata_eq : kind.isCdata = decide (kind.frame = .cdata) := by cases kind <;> rfl

theorem isDoctype_eq : kind.isDoctype = decide (kind.frame = .doctype) := by cases kind <;> rfl

theorem instruction?_isSome_eq :
    kind.instruction?.isSome = decide (kind.frame = .instruction) := by
  cases kind <;> rfl

theorem attributes?_isSome_eq :
    kind.attributes?.isSome = decide (kind.frame = .element ∨ kind.frame = .instruction) := by
  cases kind <;> rfl

theorem isDeclaration_eq : kind.isDeclaration = kind.frame.isDeclaration := by cases kind <;> rfl

end NodeKind

namespace Builder

variable {b b' b'' : Builder} {id stop : Nat} {node : Node} {frame : Frame} {outer : List Frame}

/-- The document is linked, and the current node is in it. -/
structure Linked (b : Builder) : Prop where
  doc : b.doc.Linked
  current_lt : b.current < b.doc.count

/-- Whether a node is open: the current one or one around it, but not the root. -/
def IsOpen (b : Builder) (id : Nat) : Prop := id ∈ b.doc.path b.current ∧ id ≠ Document.root

/-- The frames of the current node and of the nodes around it, the innermost first. -/
def spine (b : Builder) : List Frame := (b.doc.path b.current).map b.doc.frame

/-- Open nodes exist. -/
theorem Linked.lt_of_mem_path (linked : b.Linked) (mem : id ∈ b.doc.path b.current) :
    id < b.doc.count :=
  Nat.lt_of_le_of_lt (Document.Linked.le_of_mem_path mem) linked.current_lt

theorem spine_ne_nil (b : Builder) : b.spine ≠ [] := by
  simp [spine, Document.path]

theorem head_spine (h : b.spine = frame :: outer) : b.currentNode.kind.frame = frame := by
  rw [spine, Document.path, List.map_cons] at h
  exact (List.cons.inj h).1

theorem state_eq_of_spine (h : b.spine = frame :: outer) : b.state = frame.state := by
  rw [← head_spine h, state]
  cases b.currentNode.kind <;> rfl

theorem Linked.ne_root_of_spine (linked : b.Linked) (h : b.spine = frame :: outer)
    (notDocument : frame ≠ .document) : b.current ≠ Document.root :=
  linked.doc.ne_root_of_frame fun isDocument ↦ notDocument ((head_spine h).symm.trans isDocument)

/-! ### Changes of open nodes -/

/-- A builder after changes of open nodes that keep their links, frames and starts. -/
structure Retouched (b b' : Builder) : Prop where
  doc : Document.Retouched b.IsOpen b.doc b'.doc
  current_eq : b'.current = b.current

namespace Retouched

theorem refl (b : Builder) : b.Retouched b := ⟨.refl _, rfl⟩

private theorem isOpen_iff (h : b.Retouched b') (id : Nat) : b'.IsOpen id ↔ b.IsOpen id := by
  rw [IsOpen, IsOpen, h.current_eq, h.doc.path_eq]

theorem trans (first : b.Retouched b') (second : b'.Retouched b'') : b.Retouched b'' where
  doc := first.doc.trans (second.doc.mono fun id isOpen ↦ (first.isOpen_iff id).1 isOpen)
  current_eq := second.current_eq.trans first.current_eq

theorem linked (h : b.Retouched b') (linked : b.Linked) : b'.Linked where
  doc := h.doc.linked linked.doc
  current_lt := by
    rw [h.current_eq, h.doc.count_eq]
    exact linked.current_lt

theorem spine_eq (h : b.Retouched b') : b'.spine = b.spine := by
  rw [spine, spine, h.current_eq, h.doc.path_eq]
  exact List.map_congr_left fun id _ ↦ h.doc.frame_eq id

end Retouched

theorem count_setStop (b : Builder) (stop id : Nat) :
    (b.setStop stop id).doc.count = b.doc.count := by
  unfold setStop
  split
  · rfl
  · exact Document.count_modify _ _ _

/-- The end of a node moves, unless it is the document. -/
theorem node_setStop (b : Builder) (lt : id < b.doc.count) (stop other : Nat) :
    (b.setStop stop id).doc.node other =
      if other = id ∧ other ≠ Document.root then { b.doc.node other with stop := stop }
      else b.doc.node other := by
  unfold setStop
  split
  · next isRoot =>
    rw [if_neg]
    rintro ⟨rfl, notRoot⟩
    exact notRoot isRoot
  · next notRoot =>
    rw [Document.node_modify _ lt]
    split
    · next same => rw [if_pos ⟨same, same ▸ notRoot⟩, same]
    · next differ => rw [if_neg fun h ↦ differ h.1]

/-- The end of an open node may move. -/
theorem retouched_setStop (stop : Nat) (h : id ∈ b.doc.path b.current) :
    b.Retouched (b.setStop stop id) := by
  unfold setStop
  split
  · exact .refl b
  · next notRoot =>
    refine ⟨Document.retouched_modify _ _ ?_ ?_ ?_ ?_ (.inl ⟨h, notRoot⟩), rfl⟩
    all_goals exact fun _ ↦ rfl

theorem retouched_setCurrentStop (b : Builder) (stop : Nat) :
    b.Retouched (b.setCurrentStop stop) :=
  retouched_setStop stop Document.Linked.mem_path_self

/-- The ends of several open nodes may move, each depending on those moved before. -/
theorem retouched_foldl_setStop (stopOf : Builder → Nat → Nat) {ids : List Nat}
    (h : ids ⊆ b.doc.path b.current) :
    b.Retouched (ids.foldl (fun b id ↦ b.setStop (stopOf b id) id) b) := by
  induction ids generalizing b with
  | nil => exact .refl b
  | cons id ids ih =>
    have first : b.Retouched (b.setStop (stopOf b id) id) :=
      retouched_setStop _ (h List.mem_cons_self)
    refine first.trans (ih ?_)
    rw [first.doc.path_eq, first.current_eq]
    exact fun other mem ↦ h (List.mem_cons_of_mem _ mem)

/-- What a node stands for may change if its frame stays. -/
theorem retouched_modifyAt {change : NodeKind → NodeKind}
    (frame : ∀ kind, (change kind).frame = kind.frame) (b : Builder) (id : Nat) :
    b.Retouched { b with doc := b.doc.modify id (Node.modifyKind change) } := by
  refine ⟨Document.retouched_modify _ _ ?_ ?_ ?_ ?_ (.inr ?_), rfl⟩
  · exact fun _ ↦ rfl
  · exact fun _ ↦ rfl
  · exact fun node ↦ frame node.kind
  · exact fun _ ↦ rfl
  · exact fun _ ↦ rfl

theorem retouched_modifyKind {change : NodeKind → NodeKind}
    (frame : ∀ kind, (change kind).frame = kind.frame) (b : Builder) :
    b.Retouched (b.modifyKind change) :=
  retouched_modifyAt frame b b.current

/-! ### A child more -/

theorem Linked.openNode (linked : b.Linked) (leaf : node.children = []) :
    (b.openNode node).Linked := by
  refine ⟨Document.linked_addChild linked.doc linked.current_lt leaf, ?_⟩
  rw [Builder.openNode, Document.count_addChild]
  exact Nat.lt_succ_self _

theorem path_openNode (linked : b.Linked) (node : Node) :
    (b.openNode node).doc.path (b.openNode node).current =
      b.doc.count :: b.doc.path b.current :=
  Document.path_addChild_count linked.current_lt

/-- An added node leaves the frames of the others. -/
private theorem map_frame_addChild (linked : b.Linked) (node : Node) :
    (b.doc.path b.current).map (b.doc.addChild b.current node).frame = b.spine := by
  refine List.map_congr_left fun id mem ↦ ?_
  have := Document.Linked.le_of_mem_path mem
  have := linked.current_lt
  rw [Document.frame_addChild linked.current_lt, if_neg (by omega)]

/-- Opening a node puts its frame on the spine. -/
theorem spine_openNode (linked : b.Linked) (node : Node) :
    (b.openNode node).spine = node.kind.frame :: b.spine := by
  rw [spine, path_openNode linked, List.map_cons]
  congr 1
  · rw [openNode, Document.frame_addChild linked.current_lt, if_pos rfl]
  · exact map_frame_addChild linked node

/-- A node that is added and not opened. -/
theorem Linked.addChild (linked : b.Linked) (leaf : node.children = []) :
    Linked { b with doc := b.doc.addChild b.current node } := by
  refine ⟨Document.linked_addChild linked.doc linked.current_lt leaf, ?_⟩
  rw [Document.count_addChild]
  exact Nat.lt_succ_of_lt linked.current_lt

theorem spine_addChild (linked : b.Linked) (node : Node) :
    spine { b with doc := b.doc.addChild b.current node } = b.spine := by
  rw [spine, Document.path_addChild_of_lt linked.current_lt linked.current_lt]
  exact map_frame_addChild linked node

/-! ### The first builders -/

section Start

variable (text uri : Text) (mode : Mode)

/-- A builder in a document without nodes besides the root. -/
def empty : Builder := ⟨.ofText text uri mode, Document.root, none, none, none⟩

theorem start_dtd :
    start text uri .dtd =
      (empty text uri .dtd).openNode
        { kind := .doctype {}, start := 0, stop := text.byteSize } := rfl

theorem empty_linked : (empty text uri mode).Linked :=
  ⟨Document.linked_ofText text uri mode, Nat.one_pos⟩

theorem spine_empty : (empty text uri mode).spine = [.document] := by
  have linked := Document.linked_ofText text uri mode
  rw [spine, empty, linked.path_root, List.map_singleton, linked.root_frame]

theorem start_linked : (start text uri mode).Linked := by
  cases mode with
  | xml => exact empty_linked text uri .xml
  | dtd =>
    rw [start_dtd]
    exact (empty_linked text uri .dtd).openNode rfl

end Start

/-! ### Returning to nodes around -/

/-- A builder that went back to one of its open nodes, or to the root. -/
structure Returned (b b' : Builder) : Prop where
  doc : Document.Retouched b.IsOpen b.doc b'.doc
  current_mem : b'.current ∈ b.doc.path b.current

theorem Retouched.returned (h : b.Retouched b') : b.Returned b' :=
  ⟨h.doc, h.current_eq ▸ Document.Linked.mem_path_self⟩

theorem Returned.linked (h : b.Returned b') (linked : b.Linked) : b'.Linked where
  doc := h.doc.linked linked.doc
  current_lt := by
    rw [h.doc.count_eq]
    exact linked.lt_of_mem_path h.current_mem

/-- The spine behind a return is the part of the spine from that node on. -/
theorem Returned.spine_eq (h : b.Returned b') (linked : b.Linked) {before after : List Nat}
    (path : b.doc.path b.current = before ++ b'.current :: after) :
    b'.spine = (b'.current :: after).map b.doc.frame := by
  rw [spine, h.doc.path_eq, linked.doc.path_eq_of_append linked.current_lt path]
  exact List.map_congr_left fun id _ ↦ h.doc.frame_eq id

theorem Returned.spine_suffix (h : b.Returned b') (linked : b.Linked) :
    b'.spine <:+ b.spine := by
  obtain ⟨before, after, path⟩ := List.append_of_mem h.current_mem
  rw [h.spine_eq linked path, spine, path, List.map_append]
  exact List.suffix_append _ _

/-- A builder that left its current node for the parent of that node. -/
structure Left (stop : Nat) (b b' : Builder) : Prop where
  doc : Document.Retouched b.IsOpen b.doc b'.doc
  parent_eq : b.currentNode.parent = some b'.current
  stop_eq : (b'.doc.node b.current).stop = stop

namespace Left

theorem path_eq (h : Left stop b b') (linked : b.Linked) :
    b.doc.path b.current = b.current :: b'.doc.path b'.current := by
  rw [linked.doc.path_cons h.parent_eq, h.doc.path_eq]

theorem returned (h : Left stop b b') (linked : b.Linked) : b.Returned b' := by
  refine ⟨h.doc, ?_⟩
  rw [linked.doc.path_cons h.parent_eq]
  exact List.mem_cons_of_mem _ Document.Linked.mem_path_self

/-- Leaving a node takes its frame off the spine. -/
theorem spine_eq (h : Left stop b b') (linked : b.Linked) :
    b.spine = b.doc.frame b.current :: b'.spine := by
  have same : b'.spine = (b'.doc.path b'.current).map b.doc.frame :=
    List.map_congr_left fun id _ ↦ h.doc.frame_eq id
  rw [same, spine, h.path_eq linked, List.map_cons]

end Left

/-- A node other than the root is left when it gets an end and its parent is the current one. -/
theorem left_modify {change : Node → Node} {parent : Nat} (linked : b.Linked)
    (hasParent : b.currentNode.parent = some parent)
    (links : ∀ node, (change node).parent = node.parent)
    (children : ∀ node, (change node).children = node.children)
    (frame : ∀ node, (change node).kind.frame = node.kind.frame)
    (start : ∀ node, (change node).start = node.start)
    (stops : ∀ node, (change node).stop = stop) :
    Left stop b { b with doc := b.doc.modify b.current change, current := parent } := by
  have notRoot : b.current ≠ Document.root := by
    intro isRoot
    rw [currentNode, isRoot, linked.doc.root_parent] at hasParent
    cases hasParent
  constructor
  · exact Document.retouched_modify _ _ links children frame start
      (.inl ⟨Document.Linked.mem_path_self, notRoot⟩)
  · exact hasParent
  · rw [Document.node_modify change linked.current_lt, if_pos rfl, stops]

theorem left_setStop {parent : Nat} (linked : b.Linked)
    (hasParent : b.currentNode.parent = some parent) (stop : Nat) :
    Left stop b { b.setStop stop b.current with current := parent } := by
  have notRoot : b.current ≠ Document.root := by
    intro isRoot
    rw [currentNode, isRoot, linked.doc.root_parent] at hasParent
    cases hasParent
  rw [setStop, if_neg notRoot]
  apply left_modify linked hasParent
  all_goals exact fun _ ↦ rfl

/-- Closing leaves the current node, unless it is the root. -/
theorem close_cases (linked : b.Linked) (stop : Nat) :
    b.current = Document.root ∧ b.close stop = b ∨ Left stop b (b.close stop) := by
  unfold close
  split
  · next noParent =>
    rcases linked.doc.path_cases linked.current_lt with ⟨isRoot, -⟩ | ⟨-, parent, -, hasParent, -⟩
    · exact .inl ⟨isRoot, rfl⟩
    · rw [currentNode, hasParent] at noParent
      cases noParent
  · next parent hasParent =>
    right
    apply left_modify linked hasParent
    all_goals exact fun _ ↦ rfl

theorem exists_close_eq (linked : b.Linked) (notRoot : b.current ≠ Document.root)
    (stop : Nat) : ∃ parent < b.current,
      b.close stop =
        { b with
          doc := b.doc.modify b.current fun node ↦ { node with closed := true, stop := stop }
          current := parent } := by
  obtain ⟨parent, lt, hasParent⟩ := linked.doc.exists_parent _ linked.current_lt notRoot
  refine ⟨parent, lt, ?_⟩
  simp only [close, currentNode, hasParent]

theorem left_close (linked : b.Linked) (notRoot : b.current ≠ Document.root) (stop : Nat) :
    Left stop b (b.close stop) := by
  rcases close_cases linked stop with ⟨isRoot, -⟩ | left
  · exact absurd isRoot notRoot
  · exact left

/-- A tag closes the current node as any closing does. -/
theorem closeTag_cases (linked : b.Linked) (stop : Nat) :
    b.current = Document.root ∧ b.closeTag stop = b ∨ Left stop b (b.closeTag stop) := by
  rcases close_cases linked stop with ⟨isRoot, eq⟩ | left
  · left
    refine ⟨isRoot, ?_⟩
    rw [closeTag, eq]
    exact if_pos rfl
  · right
    rw [closeTag]
    split
    · exact left
    · exact ⟨left.doc, left.parent_eq, left.stop_eq⟩

/-- A declaration is left before something else that starts. -/
theorem leaveDeclaration_cases (linked : b.Linked) (offset : Nat) :
    b.currentNode.kind.frame.isDeclaration = false ∧ b.leaveDeclaration offset = b ∨
      b.currentNode.kind.frame.isDeclaration = true ∧
        Left (max (offset - 1) b.currentNode.start) b (b.leaveDeclaration offset) := by
  rw [leaveDeclaration]
  cases isDecl : b.currentNode.kind.frame.isDeclaration with
  | false =>
    left
    refine ⟨rfl, ?_⟩
    simp only [NodeKind.isDeclaration_eq, isDecl, Bool.false_eq_true, ↓reduceIte]
    split
    · rfl
    · rfl
  | true =>
    right
    refine ⟨rfl, ?_⟩
    have notRoot : b.current ≠ Document.root := by
      intro isRoot
      have frame := linked.doc.root_frame
      rw [Document.frame, ← isRoot] at frame
      rw [currentNode, frame] at isDecl
      cases isDecl
    rcases linked.doc.path_cases linked.current_lt with ⟨isRoot, -⟩ | ⟨-, parent, -, hasParent, -⟩
    · exact absurd isRoot notRoot
    · have hasParent : b.currentNode.parent = some parent := hasParent
      simp only [hasParent, NodeKind.isDeclaration_eq, isDecl, ↓reduceIte]
      exact left_setStop linked hasParent _

end Builder

end TolerantXml
