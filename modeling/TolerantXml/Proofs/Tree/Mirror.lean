import TolerantXml.Proofs.Tree.Moved
import TolerantXml.Proofs.Tree.Moves

/-!
# A document that stands in another

The nodes that a builder adds below an open node are those that it would add in a document of their
own: only their offsets and their numbers are moved. The outer builder mirrors the inner one
(`Builder.Mirrors`) if its nodes do and its path goes on with nodes that the inner document does not
have. Each token that both take keeps it so (`Mirrors.apply`).
-/

namespace TolerantXml

/-- The place of one document in another. -/
structure Inset where
  /-- How far the text is moved. -/
  distance : Nat
  /-- How far the numbers of the nodes are moved. -/
  shift : Nat
  /-- The first node that is the same in both documents. The nodes before it are document types
  that have their children in common. -/
  first : Nat
  /-- Whether lines are told alike in both texts. -/
  lines : Bool

/-- A node of the outer document mirrors one of the inner document. The ends of open nodes are yet
to be found. -/
structure Node.Mirrors (m : Inset) (id : Nat) (isOpen : Prop) (outer inner : Node) : Prop where
  frame : outer.kind.frame = inner.kind.frame
  children : outer.children = inner.children.map (· + m.shift)
  parent : 2 ≤ id → outer.parent = inner.parent.map (· + m.shift)
  below : 2 ≤ id → inner.parent ≠ some Document.root
  isDoctype : id < m.first → inner.kind.frame = .doctype
  kind : m.first ≤ id → outer.kind.seen m.lines = (inner.kind.moved m.distance).seen m.lines
  start : m.first ≤ id → outer.start = inner.start + m.distance
  closed : m.first ≤ id → outer.closed = inner.closed
  stop : ¬ isOpen → outer.stop = inner.stop + m.distance
  unclosed : isOpen → inner.kind.frame ≠ .element → inner.closed = false

/-- The nodes of the outer document mirror those of the inner document, but for the root. -/
structure Document.Mirrors (m : Inset) (isOpen : Nat → Prop) (outer inner : Document) : Prop where
  count_eq : outer.count = inner.count + m.shift
  first_le : m.first ≤ inner.count
  node : ∀ id, 1 ≤ id → id < inner.count →
    Node.Mirrors m id (isOpen id) (outer.node (id + m.shift)) (inner.node id)

theorem NodeKind.frame_seen (lines : Bool) (kind : NodeKind) :
    (kind.seen lines).frame = kind.frame := by
  cases kind <;> rfl

theorem NodeKind.frame_moved (distance : Nat) (kind : NodeKind) :
    (kind.moved distance).frame = kind.frame := by
  cases kind <;> rfl

private theorem NodeKind.frame_of_seen {lines : Bool} {distance : Nat} {first second : NodeKind}
    (alike : first.seen lines = (second.moved distance).seen lines) :
    first.frame = second.frame := by
  rw [← frame_seen lines first, alike, frame_seen, frame_moved]

private theorem NodeKind.seen_of_frame_ne {lines : Bool} {kind : NodeKind}
    (h : kind.frame ≠ .comment) : kind.seen lines = kind := by
  cases kind with
  | comment => exact absurd rfl h
  | _ => rfl

namespace Node.Mirrors

variable {m : Inset} {id : Nat} {isOpen isOpen' : Prop} {outer inner : Node}

/-- Only nodes that are the same in both documents are not document types. -/
private theorem first_le (h : Mirrors m id isOpen outer inner)
    (notDoctype : inner.kind.frame ≠ .doctype) : m.first ≤ id := by
  rcases Nat.lt_or_ge id m.first with lt | ge
  · exact absurd (h.isDoctype lt) notDoctype
  · exact ge

theorem congr (h : Mirrors m id isOpen outer inner) (same : isOpen' ↔ isOpen) :
    Mirrors m id isOpen' outer inner := by
  rwa [propext same]

/-- What both nodes stand for changes alike. -/
private theorem modifyKind (h : Mirrors m id isOpen outer inner)
    {changed change : NodeKind → NodeKind}
    (follows : NodeKind.Follows m.distance m.lines changed change)
    (frame : ∀ kind, (change kind).frame = kind.frame)
    (frame' : ∀ kind, (changed kind).frame = kind.frame) :
    Mirrors m id isOpen (outer.modifyKind changed) (inner.modifyKind change) where
  frame := (frame' _).trans (h.frame.trans (frame _).symm)
  children := h.children
  parent := h.parent
  below := h.below
  isDoctype lt := (frame _).trans (h.isDoctype lt)
  kind ge := follows.apply (h.kind ge)
  start := h.start
  closed := h.closed
  stop := h.stop
  unclosed isOpen notElement := h.unclosed isOpen ((frame inner.kind).symm ▸ notElement)

/-- The ends of open nodes may move in any way. -/
private theorem setStop (h : Mirrors m id isOpen outer inner) (still : isOpen) (stop stop' : Nat) :
    Mirrors m id isOpen { outer with stop := stop } { inner with stop := stop' } :=
  { h with stop := fun notOpen ↦ absurd still notOpen }

/-- A node ends at the same place in both documents. -/
private theorem ends (h : Mirrors m id isOpen outer inner) (le : isOpen' → isOpen) (stop : Nat) :
    Mirrors m id isOpen' { outer with stop := stop + m.distance } { inner with stop := stop } :=
  { h with
    stop := fun _ ↦ rfl
    unclosed := fun isOpen ↦ h.unclosed (le isOpen) }

/-- A node is closed at the same place in both documents. -/
private theorem closes (h : Mirrors m id isOpen outer inner) (left : ¬ isOpen') (stop : Nat) :
    Mirrors m id isOpen' { outer with closed := true, stop := stop + m.distance }
      { inner with closed := true, stop := stop } :=
  { h with
    closed := fun _ ↦ rfl
    stop := fun _ ↦ rfl
    unclosed := fun isOpen ↦ absurd isOpen left }

/-- A node that was left is the one of the inner document, moved. -/
theorem seen_eq (h : Mirrors m id isOpen outer inner) (first : m.first ≤ id) (le : 2 ≤ id)
    (notOpen : ¬ isOpen) :
    outer.seen m.lines = (inner.moved m.distance m.shift).seen m.lines := by
  simp only [Node.seen, Node.moved, Node.mk.injEq]
  exact ⟨h.kind first, h.start first, h.stop notOpen, h.closed first, h.parent le, h.children⟩

/-- Apart from comments nothing is left out of sight, but the parents may differ. -/
theorem eq_moved (h : Mirrors m id isOpen outer inner) (first : m.first ≤ id)
    (notOpen : ¬ isOpen) (notComment : inner.kind.frame ≠ .comment) :
    outer = { inner.moved m.distance m.shift with parent := outer.parent } := by
  have kind := h.kind first
  rw [NodeKind.seen_of_frame_ne (h.frame.symm ▸ notComment),
    NodeKind.seen_of_frame_ne ((NodeKind.frame_moved _ _).symm ▸ notComment)] at kind
  have start := h.start first
  have stop := h.stop notOpen
  have closed := h.closed first
  have children := h.children
  cases outer
  simp only [Node.moved, Node.mk.injEq] at *
  exact ⟨kind, start, stop, closed, trivial, children⟩

end Node.Mirrors

/-- Where children are moved, so is all that is below. -/
theorem Document.descendants_moved {outer inner : Document} {shift first : Nat}
    (linked : inner.Linked) (le : inner.count + shift ≤ outer.count)
    (children : ∀ id, first ≤ id → id < inner.count →
      outer.children (id + shift) = (inner.children id).map (· + shift))
    {id : Nat} (pos : first ≤ id) (lt : id < inner.count) :
    outer.descendants (id + shift) = (inner.descendants id).map (· + shift) := by
  induction size : inner.count - id using Nat.strongRecOn generalizing id with
  | ind size ih =>
    have below : ∀ child ∈ inner.children id,
        (if _h : id + shift < child + shift ∧ child + shift < outer.count then
          outer.descendants (child + shift) else []) =
        (if _h : id < child ∧ child < inner.count then inner.descendants child else []).map
          (· + shift) := by
      intro child mem
      obtain ⟨less, childLt⟩ := linked.lt_of_mem_children mem
      rw [dif_pos ⟨by omega, by omega⟩, dif_pos ⟨less, childLt⟩]
      exact ih _ (by omega) (by omega) childLt rfl
    rw [descendants, descendants, children id pos lt, List.map_cons, List.flatMap_map,
      List.map_flatMap]
    rw [List.flatMap_def, List.flatMap_def, List.map_congr_left below]

namespace Document.Mirrors

variable {m : Inset} {isOpen isOpen' : Nat → Prop} {outer inner : Document} {id parent : Nat}
  {changed change : Node → Node} {node node' : Node}

/-- The same node changes in both documents. -/
private theorem modify (h : Mirrors m isOpen outer inner) (pos : 1 ≤ id)
    (others : ∀ other ≠ id, isOpen' other ↔ isOpen other)
    (same : Node.Mirrors m id (isOpen id) (outer.node (id + m.shift)) (inner.node id) →
      Node.Mirrors m id (isOpen' id) (changed (outer.node (id + m.shift)))
        (change (inner.node id))) :
    Mirrors m isOpen' (outer.modify (id + m.shift) changed) (inner.modify id change) := by
  have count := h.count_eq
  constructor
  · rw [count_modify, count_modify, count]
  · rw [count_modify]
    exact h.first_le
  · intro other otherPos lt
    rw [count_modify] at lt
    by_cases isSame : other = id
    · subst isSame
      rw [node_modify _ (by omega), node_modify _ lt, if_pos rfl, if_pos rfl]
      exact same (h.node other pos lt)
    · have outerNode : (outer.modify (id + m.shift) changed).node (other + m.shift) =
          outer.node (other + m.shift) := by
        rcases Nat.lt_or_ge (id + m.shift) outer.count with less | ge
        · rw [node_modify _ less, if_neg (by omega)]
        · rw [modify_of_count_le ge]
      have innerNode : (inner.modify id change).node other = inner.node other := by
        rcases Nat.lt_or_ge id inner.count with less | ge
        · rw [node_modify _ less, if_neg isSame]
        · rw [modify_of_count_le ge]
      rw [outerNode, innerNode]
      exact (h.node other otherPos lt).congr (others other isSame)

/-- A node of the outer document changes that the inner one does not have. -/
private theorem modify_outer (h : Mirrors m isOpen outer inner) (outside : id ≤ m.shift) :
    Mirrors m isOpen (outer.modify id changed) inner where
  count_eq := by rw [count_modify, h.count_eq]
  first_le := h.first_le
  node other pos lt := by
    have count := h.count_eq
    have same :
        (outer.modify id changed).node (other + m.shift) = outer.node (other + m.shift) := by
      rw [node_modify _ (by omega), if_neg (by omega)]
    rw [same]
    exact h.node other pos lt

/-- The same node gets a child more in both documents. -/
private theorem addChild (h : Mirrors m isOpen outer inner) (pos : 1 ≤ parent)
    (lt : parent < inner.count) (others : ∀ other < inner.count, isOpen' other ↔ isOpen other)
    (added : Node.Mirrors m inner.count (isOpen' inner.count)
      { node' with parent := some (parent + m.shift) } { node with parent := some parent }) :
    Mirrors m isOpen' (outer.addChild (parent + m.shift) node') (inner.addChild parent node) := by
  have count := h.count_eq
  constructor
  · rw [count_addChild, count_addChild, count]
    omega
  · rw [count_addChild]
    exact Nat.le_succ_of_le h.first_le
  · intro other otherPos less
    rw [count_addChild] at less
    rw [node_addChild node' (by omega), node_addChild node lt]
    by_cases isNew : other = inner.count
    · subst isNew
      rw [if_pos count.symm, if_pos rfl]
      exact added
    · have old := (h.node other otherPos (by omega)).congr (others other (by omega))
      rw [if_neg (by omega), if_neg isNew]
      by_cases isParent : other = parent
      · subst isParent
        rw [if_pos rfl, if_pos rfl]
        exact { old with children := by simp [old.children, count] }
      · rw [if_neg (by omega), if_neg isParent]
        exact old

end Document.Mirrors

/-- A builder mirrors another one if its nodes do, and its path is the moved path of the other one,
without the root, and then goes on with nodes that the other one does not have. -/
structure Builder.Mirrors (m : Inset) (above ids : List Nat) (outer inner : Builder) : Prop where
  outer_linked : outer.Linked
  inner_linked : inner.Linked
  outer_path : outer.doc.path outer.current = ids.map (· + m.shift) ++ above
  inner_path : inner.doc.path inner.current = ids ++ [Document.root]
  above_le : ∀ id ∈ above, id ≤ m.shift
  doc : Document.Mirrors m (· ∈ ids) outer.doc inner.doc
  lastClosed : m.lines = true → outer.lastClosed = inner.lastClosed.map (· + m.shift) ∧
    ∀ id ∈ inner.lastClosed, 1 ≤ id ∧ id < inner.doc.count ∧ id ∉ ids

namespace Builder.Mirrors

variable {m : Inset} {above ids rest : List Nat} {id : Nat} {outer inner outer' inner' : Builder}
  {changed change : Node → Node}

theorem pairwise (h : Mirrors m above ids outer inner) :
    (ids ++ [Document.root]).Pairwise (· > ·) :=
  h.inner_path ▸ h.inner_linked.doc.pairwise_path h.inner_linked.current_lt

theorem pos (h : Mirrors m above ids outer inner) (mem : id ∈ ids) : 1 ≤ id :=
  (List.pairwise_append.1 h.pairwise).2.2 id mem Document.root (List.mem_singleton_self _)

theorem lt_count (h : Mirrors m above ids outer inner) (mem : id ∈ ids) : id < inner.doc.count := by
  have inPath : id ∈ inner.doc.path inner.current := by
    rw [h.inner_path]
    exact List.mem_append_left _ mem
  exact h.inner_linked.lt_of_mem_path inPath

/-- What is open and not the document itself is open in both. -/
theorem mem_ids (h : Mirrors m above ids outer inner) (mem : id ∈ inner.doc.path inner.current)
    (notDocument : inner.doc.frame id ≠ .document) : id ∈ ids := by
  rw [h.inner_path, List.mem_append, List.mem_singleton] at mem
  refine mem.resolve_right fun isRoot ↦ notDocument ?_
  rw [isRoot]
  exact h.inner_linked.doc.root_frame

theorem lt_of_mem_rest (h : Mirrors m above (id :: rest) outer inner) {other : Nat}
    (mem : other ∈ rest) : other < id :=
  (List.pairwise_cons.1 (List.pairwise_append.1 h.pairwise).1).1 other mem

private theorem not_mem_rest (h : Mirrors m above (id :: rest) outer inner) : id ∉ rest :=
  fun mem ↦ Nat.lt_irrefl id (h.lt_of_mem_rest mem)

theorem inner_current (h : Mirrors m above (id :: rest) outer inner) : inner.current = id :=
  (List.cons.inj h.inner_path).1

private theorem outer_current (h : Mirrors m above (id :: rest) outer inner) :
    outer.current = id + m.shift :=
  (List.cons.inj h.outer_path).1

private theorem pos_current (h : Mirrors m above (id :: rest) outer inner) : 1 ≤ id :=
  h.pos List.mem_cons_self

private theorem lt_current (h : Mirrors m above (id :: rest) outer inner) : id < inner.doc.count :=
  h.lt_count List.mem_cons_self

/-- The current nodes mirror each other. -/
theorem currentNode (h : Mirrors m above (id :: rest) outer inner) :
    Node.Mirrors m id True outer.currentNode inner.currentNode := by
  rw [Builder.currentNode, Builder.currentNode, h.outer_current, h.inner_current]
  exact (h.doc.node id h.pos_current h.lt_current).congr (by simp)

theorem frame_eq (h : Mirrors m above ids outer inner) (pos : 1 ≤ id) (lt : id < inner.doc.count) :
    outer.doc.frame (id + m.shift) = inner.doc.frame id :=
  (h.doc.node id pos lt).frame

/-- Changes that keep all links. -/
theorem retouched (h : Mirrors m above ids outer inner) (first : outer.Retouched outer')
    (second : inner.Retouched inner')
    (doc : Document.Mirrors m (· ∈ ids) outer'.doc inner'.doc)
    (lastClosed : outer'.lastClosed = outer.lastClosed)
    (lastClosed' : inner'.lastClosed = inner.lastClosed) :
    Mirrors m above ids outer' inner' where
  outer_linked := first.linked h.outer_linked
  inner_linked := second.linked h.inner_linked
  outer_path := by rw [first.current_eq, first.doc.path_eq, h.outer_path]
  inner_path := by rw [second.current_eq, second.doc.path_eq, h.inner_path]
  above_le := h.above_le
  doc := doc
  lastClosed lines := by
    rw [lastClosed, lastClosed', second.doc.count_eq]
    exact h.lastClosed lines

/-- The current nodes are left for their parents. -/
private theorem left (h : Mirrors m above (id :: rest) outer inner) {stop stop' : Nat}
    (first : Left stop outer outer') (second : Left stop' inner inner')
    (doc : Document.Mirrors m (· ∈ rest) outer'.doc inner'.doc)
    (lastClosed : m.lines = true → outer'.lastClosed = inner'.lastClosed.map (· + m.shift) ∧
      ∀ other ∈ inner'.lastClosed, other = id ∨ inner'.lastClosed = inner.lastClosed) :
    Mirrors m above rest outer' inner' where
  outer_linked := (first.returned h.outer_linked).linked h.outer_linked
  inner_linked := (second.returned h.inner_linked).linked h.inner_linked
  outer_path := by
    have path := first.path_eq h.outer_linked
    rw [h.outer_path] at path
    exact (List.cons.inj path).2.symm
  inner_path := by
    have path := second.path_eq h.inner_linked
    rw [h.inner_path] at path
    exact (List.cons.inj path).2.symm
  above_le := h.above_le
  doc := doc
  lastClosed lines := by
    obtain ⟨same, closed⟩ := lastClosed lines
    refine ⟨same, fun other mem ↦ ?_⟩
    rw [second.doc.count_eq]
    rcases closed other mem with rfl | old
    · exact ⟨h.pos_current, h.lt_current, h.not_mem_rest⟩
    · rw [old] at mem
      obtain ⟨pos, lt, notOpen⟩ := (h.lastClosed lines).2 other mem
      exact ⟨pos, lt, fun mem ↦ notOpen (List.mem_cons_of_mem _ mem)⟩

/-! ### Changes of the current node -/

/-- Both current nodes change alike. -/
theorem modifyKind (h : Mirrors m above (id :: rest) outer inner)
    {changed change : NodeKind → NodeKind}
    (follows : NodeKind.Follows m.distance m.lines changed change)
    (frame : ∀ kind, (change kind).frame = kind.frame)
    (frame' : ∀ kind, (changed kind).frame = kind.frame) :
    Mirrors m above (id :: rest) (outer.modifyKind changed) (inner.modifyKind change) := by
  refine h.retouched (retouched_modifyKind frame' outer) (retouched_modifyKind frame inner) ?_
    rfl rfl
  simp only [Builder.modifyKind, h.outer_current, h.inner_current]
  exact h.doc.modify h.pos_current (fun _ _ ↦ .rfl) fun node ↦ node.modifyKind follows frame frame'

private theorem setStop_eq (notRoot : id ≠ Document.root) (b : Builder) (stop : Nat) :
    b.setStop stop id =
      { b with doc := b.doc.modify id fun node ↦ { node with stop := stop } } := by
  rw [setStop, if_neg notRoot]

/-- The ends of the current nodes may move in any way. -/
theorem setCurrentStop (h : Mirrors m above (id :: rest) outer inner) (stop stop' : Nat) :
    Mirrors m above (id :: rest) (outer.setCurrentStop stop) (inner.setCurrentStop stop') := by
  refine h.retouched (retouched_setCurrentStop outer stop) (retouched_setCurrentStop inner stop') ?_
    (lastClosed_setStop _ _ _) (lastClosed_setStop _ _ _)
  have pos := h.pos_current
  rw [Builder.setCurrentStop, Builder.setCurrentStop, h.outer_current, h.inner_current,
    setStop_eq (by rw [Document.root]; omega), setStop_eq (by rw [Document.root]; omega)]
  exact h.doc.modify pos (fun _ _ ↦ .rfl) fun node ↦ node.setStop List.mem_cons_self stop stop'

/-- A node is opened in both documents. -/
theorem openNode (h : Mirrors m above (id :: rest) outer inner) {kind kind' : NodeKind}
    (alike : kind'.seen m.lines = (kind.moved m.distance).seen m.lines) (start stop stop' : Nat) :
    Mirrors m above (inner.doc.count :: id :: rest)
      (outer.openNode { kind := kind', start := start + m.distance, stop := stop' })
      (inner.openNode { kind := kind, start := start, stop := stop }) where
  outer_linked := h.outer_linked.openNode rfl
  inner_linked := h.inner_linked.openNode rfl
  outer_path := by
    rw [path_openNode h.outer_linked, h.outer_path, h.doc.count_eq]
    rfl
  inner_path := by
    rw [path_openNode h.inner_linked, h.inner_path]
    rfl
  above_le := h.above_le
  doc := by
    simp only [Builder.openNode, h.outer_current, h.inner_current]
    refine h.doc.addChild h.pos_current h.lt_current (fun other lt ↦ ?_) ?_
    · rw [List.mem_cons, or_iff_right (Nat.ne_of_lt lt)]
    · constructor
      · exact NodeKind.frame_of_seen alike
      · rfl
      · exact fun _ ↦ rfl
      · exact fun _ isRoot ↦ absurd h.pos_current (by simp [Option.some.inj isRoot, Document.root])
      · exact fun lt ↦ absurd h.doc.first_le (Nat.not_le_of_lt lt)
      · exact fun _ ↦ alike
      · exact fun _ ↦ rfl
      · exact fun _ ↦ rfl
      · exact fun notOpen ↦ absurd List.mem_cons_self notOpen
      · exact fun _ _ ↦ rfl
  lastClosed lines := by
    obtain ⟨same, closed⟩ := h.lastClosed lines
    refine ⟨same, fun other mem ↦ ?_⟩
    obtain ⟨pos, lt, notOpen⟩ := closed other mem
    refine ⟨pos, ?_, ?_⟩
    · rw [Builder.openNode, Document.count_addChild]
      exact Nat.lt_succ_of_lt lt
    · rw [List.mem_cons, or_iff_right (Nat.ne_of_lt lt)]
      exact notOpen

/-- A text is added in both documents. -/
theorem addText (h : Mirrors m above (id :: rest) outer inner) (token : Token) :
    Mirrors m above (id :: rest) (outer.addText (token.moved m.distance))
      (inner.addText token) := by
  have blank : (token.moved m.distance).text.isBlank = token.text.isBlank := rfl
  rw [Builder.addText, Builder.addText, blank]
  split
  · exact h
  · have notOpen : inner.doc.count ∉ id :: rest := fun mem ↦ Nat.lt_irrefl _ (h.lt_count mem)
    constructor
    · exact h.outer_linked.addChild rfl
    · exact h.inner_linked.addChild rfl
    · rw [Document.path_addChild_of_lt h.outer_linked.current_lt h.outer_linked.current_lt]
      exact h.outer_path
    · rw [Document.path_addChild_of_lt h.inner_linked.current_lt h.inner_linked.current_lt]
      exact h.inner_path
    · exact h.above_le
    · simp only [h.outer_current, h.inner_current]
      refine h.doc.addChild h.pos_current h.lt_current (fun _ _ ↦ .rfl) ?_
      constructor
      · rfl
      · rfl
      · exact fun _ ↦ rfl
      · exact fun _ isRoot ↦ absurd h.pos_current (by simp [Option.some.inj isRoot, Document.root])
      · exact fun lt ↦ absurd h.doc.first_le (Nat.not_le_of_lt lt)
      · exact fun _ ↦ rfl
      · exact fun _ ↦ rfl
      · exact fun _ ↦ rfl
      · exact fun _ ↦ rfl
      · exact fun isOpen ↦ absurd isOpen notOpen
    · intro lines
      obtain ⟨same, closed⟩ := h.lastClosed lines
      refine ⟨same, fun other mem ↦ ?_⟩
      obtain ⟨pos, lt, notOpen⟩ := closed other mem
      rw [Document.count_addChild]
      exact ⟨pos, Nat.lt_succ_of_lt lt, notOpen⟩

/-! ### Leaving the current node -/

private theorem outer_ne_root (h : Mirrors m above (id :: rest) outer inner) :
    outer.current ≠ Document.root := by
  have pos := h.pos_current
  rw [h.outer_current, Document.root]
  omega

private theorem inner_ne_root (h : Mirrors m above (id :: rest) outer inner) :
    inner.current ≠ Document.root := by
  have pos := h.pos_current
  rw [h.inner_current, Document.root]
  omega

/-- Both current nodes are changed and left. -/
private theorem leave (h : Mirrors m above (id :: rest) outer inner) {stop stop' : Nat}
    {next next' : Option Nat} {outerNext innerNext : Nat}
    (first : Left stop' outer
      { outer with doc := outer.doc.modify outer.current changed, current := outerNext })
    (second : Left stop inner
      { inner with doc := inner.doc.modify inner.current change, current := innerNext })
    (same : ∀ node' node : Node, Node.Mirrors m id True node' node →
      Node.Mirrors m id False (changed node') (change node))
    (lastClosed : next' = outer.lastClosed ∧ next = inner.lastClosed ∨
      next' = some (id + m.shift) ∧ next = some id) :
    Mirrors m above rest
      { outer with
        doc := outer.doc.modify outer.current changed
        current := outerNext
        lastClosed := next' }
      { inner with
        doc := inner.doc.modify inner.current change
        current := innerNext
        lastClosed := next } := by
  refine h.left ⟨first.doc, first.parent_eq, first.stop_eq⟩
    ⟨second.doc, second.parent_eq, second.stop_eq⟩ ?_ ?_
  · simp only [h.outer_current, h.inner_current]
    refine h.doc.modify h.pos_current (fun other isOther ↦ ?_) fun node ↦ ?_
    · rw [List.mem_cons, or_iff_right isOther]
    · exact (same _ _ (node.congr (by simp))).congr (iff_of_false h.not_mem_rest not_false)
  · intro lines
    rcases lastClosed with ⟨rfl, rfl⟩ | ⟨rfl, rfl⟩
    · exact ⟨(h.lastClosed lines).1, fun _ _ ↦ .inr rfl⟩
    · refine ⟨rfl, fun other mem ↦ .inl ?_⟩
      exact (Option.some.inj mem).symm

private theorem close (h : Mirrors m above (id :: rest) outer inner) (stop : Nat) :
    Mirrors m above rest (outer.close (stop + m.distance)) (inner.close stop) := by
  have first := left_close h.outer_linked h.outer_ne_root (stop + m.distance)
  have second := left_close h.inner_linked h.inner_ne_root stop
  obtain ⟨outerNext, -, eq'⟩ := exists_close_eq h.outer_linked h.outer_ne_root (stop + m.distance)
  obtain ⟨innerNext, -, eq⟩ := exists_close_eq h.inner_linked h.inner_ne_root stop
  rw [eq'] at first ⊢
  rw [eq] at second ⊢
  exact h.leave first second (fun _ _ node ↦ node.closes not_false stop) (.inl ⟨rfl, rfl⟩)

/-- A tag closes both current nodes, which are remembered. -/
theorem closeTag (h : Mirrors m above (id :: rest) outer inner) (stop : Nat) :
    Mirrors m above rest (outer.closeTag (stop + m.distance)) (inner.closeTag stop) := by
  have first := left_close h.outer_linked h.outer_ne_root (stop + m.distance)
  have second := left_close h.inner_linked h.inner_ne_root stop
  obtain ⟨outerNext, lt', eq'⟩ := exists_close_eq h.outer_linked h.outer_ne_root (stop + m.distance)
  obtain ⟨innerNext, lt, eq⟩ := exists_close_eq h.inner_linked h.inner_ne_root stop
  rw [eq'] at first
  rw [eq] at second
  rw [Builder.closeTag, Builder.closeTag, eq', eq]
  simp only [Nat.ne_of_lt lt', Nat.ne_of_lt lt, ↓reduceIte]
  refine h.leave first second (fun _ _ node ↦ node.closes not_false stop) (.inr ?_)
  rw [h.outer_current, h.inner_current]
  exact ⟨rfl, rfl⟩

theorem closeIf (h : Mirrors m above (id :: rest) outer inner) {p : NodeKind → Bool}
    (byFrame : ∀ kind kind' : NodeKind, kind.frame = kind'.frame → p kind = p kind') (stop : Nat) :
    ∃ ids, Mirrors m above ids (outer.closeIf p (stop + m.distance)) (inner.closeIf p stop) := by
  rw [Builder.closeIf, Builder.closeIf, byFrame _ _ h.currentNode.frame]
  split
  · exact ⟨rest, h.close stop⟩
  · exact ⟨id :: rest, h⟩

private theorem exists_leaveDeclaration_eq {b : Builder} (linked : b.Linked)
    (isDecl : b.currentNode.kind.frame.isDeclaration = true) (offset : Nat) : ∃ parent,
      b.leaveDeclaration offset =
        { b with
          doc := b.doc.modify b.current fun node ↦
            { node with stop := max (offset - 1) b.currentNode.start }
          current := parent } := by
  have notRoot : b.current ≠ Document.root := by
    apply linked.doc.ne_root_of_frame
    intro isRoot
    rw [Builder.currentNode, ← Document.frame, isRoot] at isDecl
    cases isDecl
  obtain ⟨parent, -, hasParent⟩ := linked.doc.exists_parent _ linked.current_lt notRoot
  have hasParent : b.currentNode.parent = some parent := hasParent
  refine ⟨parent, ?_⟩
  simp only [Builder.leaveDeclaration, hasParent, NodeKind.isDeclaration_eq, isDecl, ↓reduceIte,
    Builder.setCurrentStop, setStop_eq notRoot]

/-- Declarations are left in both documents. -/
theorem leaveDeclaration (h : Mirrors m above (id :: rest) outer inner) (offset : Nat) :
    inner.currentNode.kind.frame.isDeclaration = false ∧
        Mirrors m above (id :: rest) (outer.leaveDeclaration (offset + m.distance))
          (inner.leaveDeclaration offset) ∨
      inner.currentNode.kind.frame.isDeclaration = true ∧
        Mirrors m above rest (outer.leaveDeclaration (offset + m.distance))
          (inner.leaveDeclaration offset) := by
  have node := h.currentNode
  rcases leaveDeclaration_cases h.inner_linked offset with ⟨notDecl, eq⟩ | ⟨isDecl, second⟩
  · left
    rcases leaveDeclaration_cases h.outer_linked (offset + m.distance) with ⟨-, eq'⟩ | ⟨isDecl, -⟩
    · rw [eq, eq']
      exact ⟨notDecl, h⟩
    · rw [node.frame, notDecl] at isDecl
      cases isDecl
  · right
    refine ⟨isDecl, ?_⟩
    rcases leaveDeclaration_cases h.outer_linked (offset + m.distance) with
      ⟨notDecl, -⟩ | ⟨isDecl', first⟩
    · rw [node.frame, isDecl] at notDecl
      cases notDecl
    · have notDoctype : inner.currentNode.kind.frame ≠ .doctype := by
        intro isDoctype
        rw [isDoctype] at isDecl
        cases isDecl
      have stop : max (offset + m.distance - 1) outer.currentNode.start =
          max (offset - 1) inner.currentNode.start + m.distance := by
        rw [node.start (node.first_le notDoctype)]
        omega
      obtain ⟨outerNext, eq'⟩ :=
        exists_leaveDeclaration_eq h.outer_linked isDecl' (offset + m.distance)
      obtain ⟨innerNext, eq⟩ := exists_leaveDeclaration_eq h.inner_linked isDecl offset
      rw [eq', stop] at first
      rw [eq] at second
      rw [eq, eq', stop]
      exact h.leave first second (fun _ _ node ↦ node.ends (fun isOpen ↦ isOpen.elim) _)
        (.inl ⟨rfl, rfl⟩)

/-! ### Returning to a document type -/

private theorem retouched_endBefore (b : Builder) (offset id : Nat) :
    Document.Retouched (fun _ ↦ True) b.doc (endBefore offset b id).doc := by
  simp only [endBefore, setStop]
  split
  · exact .refl _
  · refine Document.retouched_modify _ _ ?_ ?_ ?_ ?_ (.inl trivial)
    all_goals exact fun _ ↦ rfl

/-- An open node ends before an offset, which is behind its children. -/
private theorem endBefore_mirrors {isOpen isOpen' : Nat → Prop} (linked : inner.doc.Linked)
    (h : Document.Mirrors m isOpen outer.doc inner.doc) (pos : 1 ≤ id)
    (lt : id < inner.doc.count) (notDoctype : inner.doc.frame id ≠ .doctype)
    (inside : ∀ child, id < child → ¬ isOpen child) (le : isOpen' id → isOpen id)
    (others : ∀ other ≠ id, isOpen' other ↔ isOpen other) (offset : Nat) :
    Document.Mirrors m isOpen' (endBefore (offset + m.distance) outer (id + m.shift)).doc
      (endBefore offset inner id).doc := by
  have node := h.node id pos lt
  have first := node.first_le notDoctype
  have stop : max (max (offset + m.distance - 1) (outer.doc.node (id + m.shift)).start)
        (((outer.doc.node (id + m.shift)).children.getLast?.map fun child ↦
          (outer.doc.node child).stop).getD 0) =
      max (max (offset - 1) (inner.doc.node id).start)
        (((inner.doc.node id).children.getLast?.map fun child ↦
          (inner.doc.node child).stop).getD 0) + m.distance := by
    rw [node.start first, node.children, List.getLast?_map]
    cases last : (inner.doc.node id).children.getLast? with
    | none =>
      simp only [Option.map_none, Option.getD_none]
      omega
    | some child =>
      obtain ⟨less, childLt⟩ := linked.lt_of_mem_children (List.mem_of_getLast? last)
      have childNode := h.node child (by omega) childLt
      simp only [Option.map_some, Option.getD_some, childNode.stop (inside child less)]
      omega
  simp only [endBefore]
  rw [stop, setStop_eq (by rw [Document.root]; omega), setStop_eq (by rw [Document.root]; omega)]
  exact h.modify pos others fun node ↦ node.ends le _

/-- Open nodes end one after another, the innermost first. -/
private theorem foldl_endBefore_mirrors {before after : List Nat} (linked : inner.doc.Linked)
    (h : Document.Mirrors m (· ∈ before ++ after) outer.doc inner.doc)
    (sorted : (before ++ after).Pairwise (· > ·))
    (inside : ∀ id ∈ before, 1 ≤ id ∧ id < inner.doc.count ∧ inner.doc.frame id ≠ .doctype)
    (offset : Nat) :
    Document.Mirrors m (· ∈ after)
      ((before.map (· + m.shift)).foldl (endBefore (offset + m.distance)) outer).doc
      (before.foldl (endBefore offset) inner).doc := by
  induction before generalizing outer inner with
  | nil => exact h
  | cons id before ih =>
    obtain ⟨pos, lt, notDoctype⟩ := inside id List.mem_cons_self
    obtain ⟨greatest, sorted⟩ := List.pairwise_cons.1 sorted
    have retouched := retouched_endBefore inner offset id
    rw [List.map_cons, List.foldl_cons, List.foldl_cons]
    refine ih (retouched.linked linked) ?_ sorted fun other mem ↦ ?_
    · refine endBefore_mirrors linked h pos lt notDoctype (fun child less mem ↦ ?_)
        (List.mem_cons_of_mem id) (fun other isOther ↦ ?_) offset
      · rcases List.mem_cons.1 mem with rfl | mem
        · exact Nat.lt_irrefl _ less
        · exact Nat.lt_asymm less (greatest child mem)
      · exact (List.mem_cons.trans (or_iff_right isOther)).symm
    · rw [retouched.count_eq, retouched.frame_eq]
      exact inside other (List.mem_cons_of_mem id mem)

/-- Both builders return to the same node around. -/
private theorem returned {before after : List Nat}
    (h : Mirrors m above (before ++ id :: after) outer inner) (first : outer.Returned outer')
    (second : inner.Returned inner') (outerNext : outer'.current = id + m.shift)
    (innerNext : inner'.current = id)
    (doc : Document.Mirrors m (· ∈ id :: after) outer'.doc inner'.doc)
    (lastClosed : outer'.lastClosed = outer.lastClosed)
    (lastClosed' : inner'.lastClosed = inner.lastClosed) :
    Mirrors m above (id :: after) outer' inner' where
  outer_linked := first.linked h.outer_linked
  inner_linked := second.linked h.inner_linked
  outer_path := by
    have path := h.outer_path
    rw [List.map_append, List.map_cons, List.append_assoc, List.cons_append] at path
    rw [first.doc.path_eq, outerNext,
      h.outer_linked.doc.path_eq_of_append h.outer_linked.current_lt path]
    rfl
  inner_path := by
    have path := h.inner_path
    rw [List.append_assoc, List.cons_append] at path
    rw [second.doc.path_eq, innerNext,
      h.inner_linked.doc.path_eq_of_append h.inner_linked.current_lt path]
    rfl
  above_le := h.above_le
  doc := doc
  lastClosed lines := by
    rw [lastClosed, lastClosed', second.doc.count_eq]
    obtain ⟨same, closed⟩ := h.lastClosed lines
    refine ⟨same, fun other mem ↦ ?_⟩
    obtain ⟨pos, lt, notOpen⟩ := closed other mem
    exact ⟨pos, lt, fun mem ↦ notOpen (List.mem_append_right _ mem)⟩

theorem returnToDoctype {before after : List Nat}
    (h : Mirrors m above (before ++ id :: after) outer inner)
    (isDoctype : inner.doc.frame id = .doctype)
    (others : ∀ other ∈ before, inner.doc.frame other ≠ .doctype) (offset : Nat) :
    Mirrors m above (id :: after) (outer.returnToDoctype (offset + m.distance))
      (inner.returnToDoctype offset) := by
  have outerPath := h.outer_path
  have innerPath := h.inner_path
  have sorted := (List.pairwise_append.1 h.pairwise).1
  rw [List.map_append, List.map_cons, List.append_assoc, List.cons_append] at outerPath
  rw [List.append_assoc, List.cons_append] at innerPath
  have isDoctype' : outer.doc.frame (id + m.shift) = .doctype := by
    have mem : id ∈ before ++ id :: after := List.mem_append_right _ List.mem_cons_self
    rw [h.frame_eq (h.pos mem) (h.lt_count mem), isDoctype]
  have others' : ∀ other ∈ before.map (· + m.shift), outer.doc.frame other ≠ .doctype := by
    intro other mem
    obtain ⟨place, inside, rfl⟩ := List.mem_map.1 mem
    have inIds : place ∈ before ++ id :: after := List.mem_append_left _ inside
    rw [h.frame_eq (h.pos inIds) (h.lt_count inIds)]
    exact others place inside
  rw [returnToDoctype_eq outerPath isDoctype' others',
    returnToDoctype_eq innerPath isDoctype others]
  refine h.returned (returned_foldl_endBefore outerPath _) (returned_foldl_endBefore innerPath _)
    rfl rfl ?_ (lastClosed_foldl_setStop _ _ _) (lastClosed_foldl_setStop _ _ _)
  refine foldl_endBefore_mirrors h.inner_linked.doc h.doc sorted (fun other mem ↦ ?_) offset
  have inIds : other ∈ before ++ id :: after := List.mem_append_left _ mem
  exact ⟨h.pos inIds, h.lt_count inIds, others other mem⟩

/-! ### End tags -/

/-- Nodes that were open end at one place. -/
private theorem endAll_mirrors {isOpen isOpen' : Nat → Prop} {ids : List Nat}
    (h : Document.Mirrors m isOpen outer.doc inner.doc) (pos : ∀ id ∈ ids, 1 ≤ id)
    (le : ∀ id, isOpen' id → isOpen id) (others : ∀ id ∉ ids, isOpen id → isOpen' id)
    (stop : Nat) :
    Document.Mirrors m isOpen' (outer.endAll (stop + m.distance) (ids.map (· + m.shift))).doc
      (inner.endAll stop ids).doc := by
  induction ids generalizing outer inner isOpen with
  | nil =>
    refine ⟨h.count_eq, h.first_le, fun id pos lt ↦ (h.node id pos lt).congr ?_⟩
    exact ⟨le id, others id List.not_mem_nil⟩
  | cons id ids ih =>
    have pos' := pos id List.mem_cons_self
    have ended : Document.Mirrors m (fun other ↦ isOpen other ∧ (other = id → isOpen' other))
        (outer.setStop (stop + m.distance) (id + m.shift)).doc (inner.setStop stop id).doc := by
      rw [setStop_eq (by rw [Document.root]; omega), setStop_eq (by rw [Document.root]; omega)]
      refine h.modify pos' (fun other isOther ↦ ?_) fun node ↦ node.ends And.left stop
      exact and_iff_left fun same ↦ absurd same isOther
    refine ih ended (fun other mem ↦ pos other (List.mem_cons_of_mem id mem)) ?_ ?_
    · exact fun other still ↦ ⟨le other still, fun _ ↦ still⟩
    · intro other notMem was
      by_cases same : other = id
      · exact was.2 same
      · refine others other (fun mem ↦ ?_) was.1
        exact (List.mem_cons.1 mem).elim same notMem

/-- The ends of nodes that the inner document does not have make no difference. -/
private theorem endAll_outer {isOpen : Nat → Prop} {ids : List Nat}
    (h : Document.Mirrors m isOpen outer.doc inner.doc) (outside : ∀ id ∈ ids, id ≤ m.shift)
    (stop : Nat) : Document.Mirrors m isOpen (outer.endAll stop ids).doc inner.doc := by
  induction ids generalizing outer with
  | nil => exact h
  | cons id ids ih =>
    have ended : Document.Mirrors m isOpen (outer.setStop stop id).doc inner.doc := by
      unfold setStop
      split
      · exact h
      · exact h.modify_outer (outside id List.mem_cons_self)
    exact ih ended fun other mem ↦ outside other (List.mem_cons_of_mem id mem)

theorem endAll_append (b : Builder) (stop : Nat) (first second : List Nat) :
    b.endAll stop (first ++ second) = (b.endAll stop first).endAll stop second :=
  List.foldl_append

private theorem matchesTag_eq (h : Mirrors m above ids outer inner) (first : m.first ≤ 1)
    (mem : id ∈ ids) (name : Text) :
    outer.matchesTag name (id + m.shift) = inner.matchesTag name id := by
  have node := h.doc.node id (h.pos mem) (h.lt_count mem)
  have alike := node.kind (Nat.le_trans first (h.pos mem))
  rw [matchesTag, matchesTag, NodeKind.element?_of_seen alike]
  cases (inner.doc.node id).kind.element? <;> rfl

/-- The element that the name of an end tag closes. -/
private theorem closeMatch {before after : List Nat}
    (h : Mirrors m above (before ++ id :: after) outer inner) (first : m.first ≤ 1) (token : Token)
    (opening : outer.endTagOpen.getD (token.moved m.distance).start =
      inner.endTagOpen.getD token.start + m.distance)
    (isMatch : inner.matchesTag token.text id = true)
    (others : ∀ other ∈ before, inner.matchesTag token.text other = false) :
    Mirrors m above (id :: after) (outer.nameEndTag (token.moved m.distance))
      (inner.nameEndTag token) := by
  have outerPath := h.outer_path
  have innerPath := h.inner_path
  have mem : id ∈ before ++ id :: after := List.mem_append_right _ List.mem_cons_self
  rw [List.map_append, List.map_cons, List.append_assoc, List.cons_append] at outerPath
  rw [List.append_assoc, List.cons_append] at innerPath
  have isMatch' : outer.matchesTag (token.moved m.distance).text (id + m.shift) = true :=
    (h.matchesTag_eq first mem token.text).trans isMatch
  have others' : ∀ other ∈ before.map (· + m.shift),
      outer.matchesTag (token.moved m.distance).text other = false := by
    intro other mem
    obtain ⟨place, inside, rfl⟩ := List.mem_map.1 mem
    exact (h.matchesTag_eq first (List.mem_append_left _ inside) token.text).trans
      (others place inside)
  have isElement := frame_of_matchesTag isMatch
  have isElement' := frame_of_matchesTag isMatch'
  rw [nameEndTag_of_match outerPath isMatch' others', nameEndTag_of_match innerPath isMatch others,
    opening]
  refine h.returned (returned_closeMatch h.outer_linked outerPath isElement' _)
    (returned_closeMatch h.inner_linked innerPath isElement _) rfl rfl ?_
    (lastClosed_foldl_setStop _ _ _) (lastClosed_foldl_setStop _ _ _)
  have ended : Document.Mirrors m (· ∈ id :: after)
      (outer.endAll (inner.endTagOpen.getD token.start + m.distance) (before.map (· + m.shift))).doc
      (inner.endAll (inner.endTagOpen.getD token.start) before).doc := by
    refine endAll_mirrors h.doc (fun other mem ↦ h.pos (List.mem_append_left _ mem)) ?_ ?_ _
    · exact fun other mem ↦ List.mem_append_right before mem
    · exact fun other notMem mem ↦ (List.mem_append.1 mem).resolve_left notMem
  refine ended.modify (h.pos mem) (fun _ _ ↦ .rfl) fun node ↦ ?_
  have follows : NodeKind.Follows m.distance m.lines
      (.modifyElement fun e ↦
        { e with endTagOpen := some (inner.endTagOpen.getD token.start + m.distance) })
      (.modifyElement fun e ↦ { e with endTagOpen := some (inner.endTagOpen.getD token.start) }) :=
    NodeKind.follows_modifyElement fun _ ↦ rfl
  have stillElement : ((inner.endAll (inner.endTagOpen.getD token.start) before).doc.node
      id).kind.frame = .element := by
    have inPath : before ⊆ inner.doc.path inner.current := by
      rw [innerPath]
      exact List.subset_append_left _ _
    exact ((retouched_endAll inPath _).doc.frame_eq id).trans isElement
  have marked := (node.modifyKind follows (NodeKind.frame_modifyElement _)
    (NodeKind.frame_modifyElement _)).setStop List.mem_cons_self
    (token.moved m.distance).stop token.stop
  exact { marked with
    closed := fun _ ↦ rfl
    unclosed := fun _ notElement ↦
      absurd ((NodeKind.frame_modifyElement _ _).trans stillElement) notElement }

/-- The element of its own that the name of an end tag gets. -/
private theorem openStray (h : Mirrors m above (id :: rest) outer inner) (token : Token)
    (opening : outer.endTagOpen.getD (token.moved m.distance).start =
      inner.endTagOpen.getD token.start + m.distance)
    (others : ∀ id ∈ inner.doc.path inner.current, inner.matchesTag token.text id = false)
    (others' : ∀ id ∈ outer.doc.path outer.current,
      outer.matchesTag (token.moved m.distance).text id = false) :
    Mirrors m above (inner.doc.count :: id :: rest) (outer.nameEndTag (token.moved m.distance))
      (inner.nameEndTag token) := by
  have ended : Mirrors m above (id :: rest)
      (outer.endAll (inner.endTagOpen.getD token.start + m.distance)
        (outer.doc.path outer.current))
      (inner.endAll (inner.endTagOpen.getD token.start) (inner.doc.path inner.current)) := by
    refine h.retouched (retouched_endAll (List.Subset.refl _) _)
      (retouched_endAll (List.Subset.refl _) _) ?_
      (lastClosed_foldl_setStop _ _ _) (lastClosed_foldl_setStop _ _ _)
    rw [h.outer_path, h.inner_path, endAll_append, endAll_append]
    refine endAll_outer ?_ h.above_le _
    have onIds : Document.Mirrors m (· ∈ id :: rest)
        (outer.endAll (inner.endTagOpen.getD token.start + m.distance)
          ((id :: rest).map (· + m.shift))).doc
        (inner.endAll (inner.endTagOpen.getD token.start) (id :: rest)).doc :=
      endAll_mirrors h.doc (fun _ mem ↦ h.pos mem) (fun _ mem ↦ mem) (fun _ _ mem ↦ mem) _
    exact onIds
  have count : (inner.endAll (inner.endTagOpen.getD token.start)
      (inner.doc.path inner.current)).doc.count = inner.doc.count :=
    (retouched_endAll (List.Subset.refl _) _).doc.count_eq
  rw [nameEndTag_of_no_match others', nameEndTag_of_no_match others, strayElement, strayElement,
    opening, ← count]
  refine ended.openNode ?_ _ _ _
  rfl

/-- An element around all nodes that the inner document has is not closed, as long as the outer
builder stays among those nodes. -/
private theorem not_closes_above (h : Mirrors m above ids outer inner)
    {passed above' after : List Nat}
    {element : Nat} {token : Token} (split : above = above' ++ element :: after)
    (path : outer.doc.path outer.current = passed ++ element :: after)
    (isMatch : outer.matchesTag token.text element = true)
    (others : ∀ other ∈ passed, outer.matchesTag token.text other = false)
    (stays : ∃ place ∈ (outer.nameEndTag token).doc.path (outer.nameEndTag token).current,
      m.shift < place) : False := by
  have closes := nameEndTag_of_match path isMatch others
  have returned : outer.Returned (outer.nameEndTag token) := by
    rw [closes]
    exact returned_closeMatch h.outer_linked path (frame_of_matchesTag isMatch) _
  have current : (outer.nameEndTag token).current = element := by rw [closes]
  obtain ⟨place, mem, less⟩ := stays
  rw [returned.doc.path_eq, current] at mem
  have atElement := h.outer_linked.doc.path_eq_of_append h.outer_linked.current_lt path
  have inAbove : place ∈ above := by
    rw [split]
    exact List.mem_append_right _ (atElement ▸ mem)
  exact absurd (h.above_le place inAbove) (Nat.not_le_of_lt less)

/-- The name of an end tag closes the same element in both documents, or none, as long as the outer
builder stays among the nodes that the inner document has. -/
theorem nameEndTag (h : Mirrors m above (id :: rest) outer inner) (first : m.first ≤ 1)
    (token : Token) (opened : outer.endTagOpen = inner.endTagOpen.map (· + m.distance))
    (stays : ∃ place ∈ (outer.nameEndTag (token.moved m.distance)).doc.path
      (outer.nameEndTag (token.moved m.distance)).current, m.shift < place) :
    ∃ ids, Mirrors m above ids (outer.nameEndTag (token.moved m.distance))
      (inner.nameEndTag token) := by
  have opening : outer.endTagOpen.getD (token.moved m.distance).start =
      inner.endTagOpen.getD token.start + m.distance := by
    rw [opened]
    cases inner.endTagOpen <;> rfl
  cases isFound : (id :: rest).find? (inner.matchesTag token.text) with
  | some element =>
    obtain ⟨isMatch, before, after, split, others⟩ := List.find?_eq_some_iff_append.1 isFound
    rw [split] at h
    refine ⟨element :: after, h.closeMatch first token opening isMatch fun other mem ↦ ?_⟩
    simpa using others other mem
  | none =>
    have free : ∀ other ∈ id :: rest, inner.matchesTag token.text other = false := by
      intro other mem
      simpa using List.find?_eq_none.1 isFound other mem
    have others : ∀ other ∈ inner.doc.path inner.current,
        inner.matchesTag token.text other = false := by
      intro other mem
      rw [Bool.eq_false_iff]
      intro isMatch
      have isElement := frame_of_matchesTag isMatch
      have inside := h.mem_ids mem (by rw [isElement]; nofun)
      exact Bool.false_ne_true ((free other inside).symm.trans isMatch)
    have free' : ∀ other ∈ (id :: rest).map (· + m.shift),
        outer.matchesTag (token.moved m.distance).text other = false := by
      intro other mem
      obtain ⟨place, inside, rfl⟩ := List.mem_map.1 mem
      exact (h.matchesTag_eq first inside token.text).trans (free place inside)
    cases isAbove : above.find? (outer.matchesTag (token.moved m.distance).text) with
    | none =>
      refine ⟨_, h.openStray token opening others fun other mem ↦ ?_⟩
      rw [h.outer_path, List.mem_append] at mem
      rcases mem with mem | mem
      · exact free' other mem
      · simpa using List.find?_eq_none.1 isAbove other mem
    | some element =>
      obtain ⟨isMatch, before, after, split, above'⟩ := List.find?_eq_some_iff_append.1 isAbove
      have path : outer.doc.path outer.current =
          ((id :: rest).map (· + m.shift) ++ before) ++ element :: after := by
        rw [h.outer_path, split, List.append_assoc]
      refine (h.not_closes_above split path isMatch (fun other mem ↦ ?_) stays).elim
      rcases List.mem_append.1 mem with mem | mem
      · exact free' other mem
      · simpa using above' other mem

end Builder.Mirrors

end TolerantXml
