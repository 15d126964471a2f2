import TolerantXml.Proofs.Tree.Preorder
import TolerantXml.Proofs.Tree.Receding

/-!
# The order of the nodes, whatever the tokens

A builder takes any tokens in any order. It only ever adds nodes below the last node or one around
it (`Document.Edge`), so the order of their numbers is that of the document: parents come before
their children, each child is listed once, and the nodes below a node are numbered without a gap
(`Document.Ordered`). Every number that a builder holds or finds in a node is that of a node
(`Builder.InOrder.lt_of_reaches`).
-/

namespace TolerantXml

/-- The nodes of a document are numbered in the order in which a walk visits them. The root is never
closed and covers all of the text. -/
structure Document.Ordered (doc : Document) : Prop where
  root_parent : (doc.node root).parent = none
  root_closed : (doc.node root).closed = false
  root_span : (doc.node root).span = ⟨0, doc.length⟩
  listed : ∀ id < doc.count, id ≠ root → ∃ parent < id, (doc.node id).parent = some parent ∧
    ∀ other, (doc.children other).count id = if other = parent then 1 else 0
  descendants : ∀ id < doc.count, ∃ last, id ≤ last ∧ last < doc.count ∧
    doc.descendants id = List.range' id (last + 1 - id)
  descendants_root : doc.descendants root = List.range doc.count
  walk : ∀ id < doc.count, ∀ steps, doc.count ≤ steps → doc.walk steps [id] = doc.descendants id

/-- The numbers that a builder can get hold of: that of the current node and those that it
remembers, and from each of them on the numbers of parents and children. -/
inductive Builder.Reaches (b : Builder) : Nat → Prop where
  | current : b.Reaches b.current
  | pending {owner index : Nat} (pending : b.pending = some (owner, index)) : b.Reaches owner
  | lastClosed {id : Nat} (lastClosed : b.lastClosed = some id) : b.Reaches id
  | parent {id parent : Nat} (reaches : b.Reaches id)
      (hasParent : (b.doc.node id).parent = some parent) : b.Reaches parent
  | child {id child : Nat} (reaches : b.Reaches id) (isChild : child ∈ b.doc.children id) :
      b.Reaches child

/-! ### The edge of a document -/

/-- A document of a text that is in order, and a node on its edge, which is the last node or one
around it. -/
structure Document.Edge (text : Text) (doc : Document) (current : Nat) : Prop where
  text_eq : doc.text = text
  root_span : (doc.node root).span = ⟨0, text.byteSize⟩
  contiguous : doc.Contiguous
  current_mem : current ∈ doc.path (doc.count - 1)

namespace Document

variable {text : Text} {doc doc' : Document} {current current' : Nat} {node : Node}
  {touched : Nat → Prop}

private theorem edge_ofText (text uri : Text) (mode : Mode) :
    Edge text (ofText text uri mode) root where
  text_eq := rfl
  root_span := rfl
  contiguous := contiguous_ofText text uri mode
  current_mem := Linked.mem_path_self

namespace Edge

variable (edge : doc.Edge text current)
include edge

/-- A node around one on the edge is on the edge as well. -/
private theorem retouched (linked : doc.Linked) (retouched : Retouched touched doc doc')
    (spared : ¬ touched root) (around : current' ∈ doc.path current) :
    doc'.Edge text current' where
  text_eq := retouched.text_eq.trans edge.text_eq
  root_span := by
    rw [Node.span, retouched.start_eq, retouched.stop_eq root spared]
    exact edge.root_span
  contiguous := retouched.contiguous edge.contiguous
  current_mem := by
    have last_lt : doc.count - 1 < doc.count := Nat.sub_one_lt_of_lt linked.root_lt
    rw [retouched.path_eq, retouched.count_eq]
    exact (linked.path_suffix last_lt edge.current_mem).subset around

/-- A child of a node on the edge comes last, and both are on the edge. -/
private theorem addChild (linked : doc.Linked) (lt : current < doc.count)
    (around : current' = current ∨ current' = doc.count) :
    (doc.addChild current node).Edge text current' where
  text_eq := edge.text_eq
  root_span := by
    rw [span_addChild node lt, if_neg (Nat.ne_of_lt linked.root_lt), edge.root_span]
  contiguous := contiguous_addChild linked edge.contiguous edge.current_mem
  current_mem := by
    rw [count_addChild, Nat.add_sub_cancel, path_addChild_count lt]
    rcases around with rfl | rfl
    · exact List.mem_cons_of_mem _ Linked.mem_path_self
    · exact List.mem_cons_self

end Edge

/-- A document whose edge is in order, and whose root is not closed, is in order. -/
private theorem Edge.ordered (edge : doc.Edge text current) (linked : doc.Linked)
    (root_closed : (doc.node root).closed = false) : doc.Ordered where
  root_parent := linked.root_parent
  root_closed := root_closed
  root_span := by rw [edge.root_span, Document.length, edge.text_eq]
  listed id lt notRoot := by
    obtain ⟨parent, less, hasParent⟩ := linked.exists_parent id lt notRoot
    refine ⟨parent, less, hasParent, fun other ↦ ?_⟩
    have nodup : (doc.children other).Nodup := (linked.sorted other).imp Nat.ne_of_lt
    rw [nodup.count]
    congr 1
    rw [linked.mem_children, hasParent, Option.some.injEq, eq_iff_iff, and_iff_right lt]
    exact eq_comm
  descendants _ lt := linked.exists_descendants_eq edge.contiguous lt
  descendants_root := linked.descendants_root edge.contiguous
  walk _ lt _ enough := linked.walk_eq_descendants edge.contiguous lt enough

end Document

namespace Builder

variable {text : Text} {b : Builder} {id : Nat}

/-- What any sequence of tokens leaves of a builder of a text. -/
structure InOrder (text : Text) (b : Builder) : Prop where
  linked : b.Linked
  edge : b.doc.Edge text b.current
  root_closed : (b.doc.node Document.root).closed = false
  pending_lt : ∀ owner index, b.pending = some (owner, index) → owner < b.doc.count
  lastClosed_lt : ∀ id, b.lastClosed = some id → id < b.doc.count

theorem start_inOrder (text uri : Text) (mode : Mode) : (start text uri mode).InOrder text := by
  have linked := Document.linked_ofText text uri mode
  have edge := Document.edge_ofText text uri mode
  constructor
  case linked => exact start_linked text uri mode
  case edge =>
    cases mode with
    | xml => exact edge
    | dtd => exact edge.addChild linked linked.root_lt (.inr rfl)
  case root_closed => cases mode <;> rfl
  case pending_lt => cases mode <;> exact fun _ _ ↦ nofun
  case lastClosed_lt => cases mode <;> exact fun _ ↦ nofun

namespace InOrder

variable (inOrder : b.InOrder text)
include inOrder

/-- A builder only gets hold of numbers of nodes. -/
theorem lt_of_reaches (reaches : b.Reaches id) : id < b.doc.count := by
  induction reaches with
  | current => exact inOrder.linked.current_lt
  | pending pending => exact inOrder.pending_lt _ _ pending
  | lastClosed lastClosed => exact inOrder.lastClosed_lt _ lastClosed
  | parent _ hasParent lt =>
    exact Nat.lt_trans (inOrder.linked.doc.parent_lt hasParent).1 lt
  | child _ isChild => exact (inOrder.linked.doc.lt_of_mem_children isChild).2

/-- The nodes stay in order where a builder recedes and grows. -/
private theorem edge_of_takes {b' : Builder} {kind : TokenKind} (takes : Takes kind b b') :
    b'.doc.Edge text b'.current := by
  obtain ⟨c, recedes, grows⟩ := takes
  have linked := recedes.linked inOrder.linked
  have edge : c.doc.Edge text c.current :=
    inOrder.edge.retouched inOrder.linked.doc recedes.doc (fun isOpen ↦ isOpen.2 rfl)
      recedes.current_mem
  cases grows with
  | nothing doc current => rwa [doc, current]
  | text node _ _ _ doc current =>
    rw [doc, current]
    exact edge.addChild linked.doc linked.current_lt (.inl rfl)
  | child node _ _ _ doc current =>
    rw [doc, current]
    exact edge.addChild linked.doc linked.current_lt (.inr rfl)

theorem apply (token : Token) : (b.apply token).InOrder text := by
  have takes := takes_apply inOrder.linked token
  have remembers := takes_apply_memory b token
  have linked := inOrder.linked.apply token
  have grows : b.doc.count ≤ (b.apply token).doc.count := takes.count_le
  constructor
  case linked => exact linked
  case edge => exact inOrder.edge_of_takes takes
  case root_closed =>
    by_contra closed
    rw [Bool.not_eq_false] at closed
    rcases takes.closed_cases inOrder.linked (linked.doc.root_mem_path linked.current_lt) closed
      with ⟨-, wasClosed⟩ | ⟨-, -, isElement⟩
    · rw [inOrder.root_closed] at wasClosed
      cases wasClosed
    · rw [linked.doc.root_frame] at isElement
      cases isElement
  case pending_lt =>
    intro owner index pending
    rcases remembers.pending_cases pending with before | rfl
    · exact Nat.lt_of_lt_of_le (inOrder.pending_lt owner index before) grows
    · exact Nat.lt_of_lt_of_le inOrder.linked.current_lt grows
  case lastClosed_lt =>
    intro id lastClosed
    rcases remembers.lastClosed_cases lastClosed with before | rfl
    · exact Nat.lt_of_lt_of_le (inOrder.lastClosed_lt id before) grows
    · exact Nat.lt_of_lt_of_le inOrder.linked.current_lt grows

theorem applyAll (tokens : List Token) : (b.applyAll tokens).InOrder text := by
  induction tokens generalizing b with
  | nil => exact inOrder
  | cons token tokens ih => exact ih (inOrder.apply token)

private theorem ordered : b.doc.Ordered :=
  inOrder.edge.ordered inOrder.linked.doc inOrder.root_closed

theorem ordered_finish : b.finish.Ordered := by
  have retouched := retouched_finish b
  have edge : b.finish.Edge text b.current :=
    inOrder.edge.retouched inOrder.linked.doc retouched (fun isOpen ↦ isOpen.2 rfl)
      Document.Linked.mem_path_self
  apply edge.ordered (retouched.linked inOrder.linked.doc)
  rw [(kind_finish b Document.root).2]
  exact inOrder.root_closed

end InOrder

/-- Whatever tokens a builder takes, it never gets hold of a number that no node has, its document
and the finished one are in order, and the current node is the last one or stands around it. -/
theorem applyAll_ordered (text uri : Text) (mode : Mode) (tokens : List Token) :
    let b := (start text uri mode).applyAll tokens
    (∀ id, b.Reaches id → id < b.doc.count) ∧
      b.current ∈ b.doc.path (b.doc.count - 1) ∧
      (b.doc.text = text ∧ b.doc.Ordered) ∧
      (b.finish.text = text ∧ b.finish.count = b.doc.count ∧ b.finish.Ordered) := by
  intro b
  have inOrder : b.InOrder text := (start_inOrder text uri mode).applyAll tokens
  have retouched := retouched_finish b
  refine ⟨?_, ?_, ?_, ?_⟩
  · exact fun id ↦ inOrder.lt_of_reaches
  · exact inOrder.edge.current_mem
  · exact ⟨inOrder.edge.text_eq, inOrder.ordered⟩
  · exact ⟨retouched.text_eq.trans inOrder.edge.text_eq, retouched.count_eq,
      inOrder.ordered_finish⟩

end Builder

end TolerantXml
