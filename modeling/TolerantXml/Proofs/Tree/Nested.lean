import Mathlib.Data.List.Chain
import TolerantXml.Proofs.Tree.Moves

/-!
# Nested documents

In a nested document the span of a child lies inside that of its parent, and behind those of the
children before it (`Document.WellNested`). While a document is built, the ends of open nodes are
not where they will be, so a builder keeps the relations of the ends of the other nodes only
(`Builder.Nested`): every node starts before the place that was read up to, those that are not open
end there at the latest, and only the last child of a node may be open. A node that is left gets its
end, and is then like those left before (`Nested.returned`).
-/

namespace TolerantXml

namespace Document

/-- The nodes of a document form a tree of intervals. The one node that may be empty, besides the
root, is the document type around no declarations at all. -/
structure WellNested (doc : Document) : Prop where
  root_span : (doc.node root).span = ⟨0, doc.length⟩
  start_lt_stop : ∀ id < doc.count, id ≠ root → (doc.node id).start < (doc.node id).stop ∨
    doc.mode = .dtd ∧ doc.text = [] ∧ doc.frame id = .doctype
  start_le_stop : ∀ id < doc.count, (doc.node id).start ≤ (doc.node id).stop
  stop_le_length : ∀ id < doc.count, (doc.node id).stop ≤ doc.length
  inside_parent : ∀ id, ∀ child ∈ doc.children id,
    (doc.node id).start ≤ (doc.node child).start ∧ (doc.node child).stop ≤ (doc.node id).stop
  siblings : ∀ id, (doc.children id).IsChain fun first second ↦
    (doc.node first).stop ≤ (doc.node second).start

section AddChild

variable {doc : Document} {parent : Nat} {node : Node}

theorem span_addChild (node : Node) (lt : parent < doc.count) (id : Nat) :
    ((doc.addChild parent node).node id).span =
      if id = doc.count then node.span else (doc.node id).span := by
  rw [node_addChild node lt]
  split
  · rfl
  · split
    · next same => rw [same]; rfl
    · rfl

theorem start_addChild (lt : parent < doc.count) (id : Nat) :
    ((doc.addChild parent node).node id).start =
      if id = doc.count then node.start else (doc.node id).start := by
  have span := congrArg Span.start (span_addChild node lt id)
  rw [apply_ite Span.start] at span
  exact span

theorem stop_addChild (lt : parent < doc.count) (id : Nat) :
    ((doc.addChild parent node).node id).stop =
      if id = doc.count then node.stop else (doc.node id).stop := by
  have span := congrArg Span.stop (span_addChild node lt id)
  rw [apply_ite Span.stop] at span
  exact span

end AddChild

end Document

namespace Builder

variable {text : Text} {mode : Mode} {b b' : Builder} {pos pos' stop : Nat} {node : Node}

/-- How the spans of a builder lie that has read a text up to some place. -/
structure Nested (text : Text) (mode : Mode) (b : Builder) (pos : Nat) : Prop where
  text_eq : b.doc.text = text
  mode_eq : b.doc.mode = mode
  root_start : (b.doc.node Document.root).start = 0
  root_stop : (b.doc.node Document.root).stop = text.byteSize
  starts : ∀ id < b.doc.count, id ≠ Document.root → (b.doc.node id).start < pos ∨
    (b.doc.node id).start = 0 ∧ pos = 0 ∧ mode = .dtd ∧ b.doc.frame id = .doctype
  ended : ∀ id < b.doc.count, id ∉ b.doc.path b.current →
    (b.doc.node id).start < (b.doc.node id).stop ∧ (b.doc.node id).stop ≤ pos
  start_le_child : ∀ id, ∀ child ∈ b.doc.children id,
    (b.doc.node id).start ≤ (b.doc.node child).start
  child_stop_le : ∀ id, id ∉ b.doc.path b.current → ∀ child ∈ b.doc.children id,
    (b.doc.node child).stop ≤ (b.doc.node id).stop
  siblings : ∀ id, (b.doc.children id).Pairwise fun first second ↦
    first ∉ b.doc.path b.current ∧ (b.doc.node first).stop ≤ (b.doc.node second).start
  opening : ∀ id ∈ b.doc.path b.current, (b.doc.frame id).standsInSubset = true →
    (b.doc.node id).start + 2 ≤ pos
  childless : ∀ id, (b.doc.frame id).isDeclaration = true → b.doc.children id = []

/-- The offset after the last child of a node. -/
def lastStop (b : Builder) (id : Nat) : Nat :=
  ((b.doc.children id).getLast?.map fun child ↦ (b.doc.node child).stop).getD 0

/-- Where the builder is makes no difference to the ends that open nodes get. -/
private theorem foldl_setStop_current {stopOf : Builder → Nat → Nat}
    (anywhere : ∀ (c : Builder) (place id : Nat),
      stopOf { c with current := place } id = stopOf c id)
    (ids : List Nat) (b : Builder) (place target : Nat) :
    { ids.foldl (fun c id ↦ c.setStop (stopOf c id) id) { b with current := place } with
      current := target } =
    { ids.foldl (fun c id ↦ c.setStop (stopOf c id) id) b with current := target } := by
  induction ids generalizing b with
  | nil => rfl
  | cons id ids ih =>
    have moved : setStop { b with current := place } (stopOf { b with current := place } id) id =
        { b.setStop (stopOf b id) id with current := place } := by
      rw [anywhere, setStop, setStop]
      split
      · rfl
      · rfl
    rw [List.foldl_cons, List.foldl_cons, moved, ih]

namespace Nested

/-- No node starts behind the place that was read up to. -/
theorem start_le (nested : b.Nested text mode pos) {id : Nat} (lt : id < b.doc.count) :
    (b.doc.node id).start ≤ pos := by
  by_cases isRoot : id = Document.root
  · rw [isRoot, nested.root_start]
    exact Nat.zero_le _
  · have := nested.starts id lt isRoot
    omega

theorem start_lt_of_xml (nested : b.Nested text .xml pos) {id : Nat} (lt : id < b.doc.count)
    (notRoot : id ≠ Document.root) : (b.doc.node id).start < pos := by
  rcases nested.starts id lt notRoot with less | ⟨-, -, xml, -⟩
  · exact less
  · cases xml

/-- A child of the current node is not open. -/
theorem not_mem_path_of_mem_children (linked : b.Linked) {child : Nat}
    (mem : child ∈ b.doc.children b.current) : child ∉ b.doc.path b.current := by
  intro isOpen
  have := linked.doc.lt_of_mem_children mem
  have := Document.Linked.le_of_mem_path isOpen
  omega

/-- The parent of an open node is open. -/
private theorem not_mem_path_of_parent (linked : b.Linked) {id child : Nat}
    (mem : child ∈ b.doc.children id) (notOpen : id ∉ b.doc.path b.current) :
    child ∉ b.doc.path b.current := fun isOpen ↦
  notOpen (linked.doc.parent_mem_path linked.current_lt isOpen
    ((linked.doc.mem_children id child).1 mem).2)

/-- Text that makes no difference to the document may be read. -/
theorem mono (nested : b.Nested text mode pos) (le : pos ≤ pos') : b.Nested text mode pos' :=
  { nested with
    starts := by
      intro id lt notRoot
      rcases nested.starts id lt notRoot with less | ⟨atStart, zero, isDoctype⟩
      · omega
      · by_cases zero' : pos' = 0
        · exact .inr ⟨atStart, zero', isDoctype⟩
        · omega
    ended := by
      intro id lt notOpen
      have := nested.ended id lt notOpen
      omega
    opening := by
      intro id isOpen stands
      have := nested.opening id isOpen stands
      omega }

/-- A return to a node around leaves the nodes below it, which get their ends. -/
theorem returned (nested : b.Nested text mode pos) (linked : b.Linked) (h : b.Returned b')
    (le : pos ≤ pos')
    (left : ∀ id ∈ b.doc.path b.current, id ∉ b.doc.path b'.current →
      (b.doc.node id).start < (b'.doc.node id).stop ∧ (b'.doc.node id).stop ≤ pos' ∧
        ∀ child ∈ b.doc.children id, (b'.doc.node child).stop ≤ (b'.doc.node id).stop) :
    b'.Nested text mode pos' := by
  have path : b'.doc.path b'.current = b.doc.path b'.current := h.doc.path_eq _
  have inside : ∀ id ∈ b.doc.path b'.current, id ∈ b.doc.path b.current :=
    fun id mem ↦ (linked.doc.path_suffix linked.current_lt h.current_mem).subset mem
  have outside : ∀ id, id ∉ b.doc.path b.current → (b'.doc.node id).stop = (b.doc.node id).stop :=
    fun id notOpen ↦ h.doc.stop_eq id fun isOpen ↦ notOpen isOpen.1
  have nested := nested.mono le
  constructor
  case text_eq =>
    rw [h.doc.text_eq, nested.text_eq]
  case mode_eq =>
    rw [h.doc.mode_eq, nested.mode_eq]
  case root_start =>
    rw [h.doc.start_eq, nested.root_start]
  case root_stop =>
    rw [h.doc.stop_eq _ fun isOpen ↦ isOpen.2 rfl, nested.root_stop]
  case starts =>
    intro id lt notRoot
    rw [h.doc.start_eq, h.doc.frame_eq]
    exact nested.starts id (h.doc.count_eq ▸ lt) notRoot
  case ended =>
    intro id lt notOpen
    rw [h.doc.start_eq]
    rw [path] at notOpen
    by_cases wasOpen : id ∈ b.doc.path b.current
    · have := left id wasOpen notOpen
      exact ⟨this.1, this.2.1⟩
    · rw [outside id wasOpen]
      exact nested.ended id (h.doc.count_eq ▸ lt) wasOpen
  case start_le_child =>
    intro id child mem
    rw [h.doc.children_eq] at mem
    rw [h.doc.start_eq, h.doc.start_eq]
    exact nested.start_le_child id child mem
  case child_stop_le =>
    intro id notOpen child mem
    rw [path] at notOpen
    rw [h.doc.children_eq] at mem
    by_cases wasOpen : id ∈ b.doc.path b.current
    · exact (left id wasOpen notOpen).2.2 child mem
    · have childNotOpen := not_mem_path_of_parent linked mem wasOpen
      rw [outside id wasOpen, outside child childNotOpen]
      exact nested.child_stop_le id wasOpen child mem
  case siblings =>
    intro id
    rw [h.doc.children_eq]
    refine (nested.siblings id).imp ?_
    rintro first second ⟨notOpen, stop_le⟩
    rw [outside first notOpen, h.doc.start_eq, path]
    exact ⟨fun isOpen ↦ notOpen (inside first isOpen), stop_le⟩
  case opening =>
    intro id isOpen stands
    rw [path] at isOpen
    rw [h.doc.frame_eq] at stands
    rw [h.doc.start_eq]
    exact nested.opening id (inside id isOpen) stands
  case childless =>
    intro id isDecl
    rw [h.doc.frame_eq] at isDecl
    rw [h.doc.children_eq]
    exact nested.childless id isDecl

/-- Changes of open nodes do not matter. -/
theorem retouched (nested : b.Nested text mode pos) (linked : b.Linked) (h : b.Retouched b') :
    b'.Nested text mode pos := by
  refine nested.returned linked h.returned (Nat.le_refl pos) fun id isOpen notOpen ↦ ?_
  rw [h.current_eq] at notOpen
  exact absurd isOpen notOpen

/-- The current node is left. -/
theorem left (nested : b.Nested text mode pos) (linked : b.Linked) (h : Left stop b b')
    (le : pos ≤ pos') (start_lt : b.currentNode.start < stop) (stop_le : stop ≤ pos')
    (children : ∀ child ∈ b.doc.children b.current, (b.doc.node child).stop ≤ stop) :
    b'.Nested text mode pos' := by
  refine nested.returned linked (h.returned linked) le fun id isOpen notOpen ↦ ?_
  rw [linked.doc.path_cons h.parent_eq, List.mem_cons] at isOpen
  rcases isOpen with rfl | isOpen
  · rw [h.stop_eq]
    refine ⟨start_lt, stop_le, fun child mem ↦ ?_⟩
    rw [h.doc.stop_eq child fun isOpen ↦ not_mem_path_of_mem_children linked mem isOpen.1]
    exact children child mem
  · exact absurd isOpen notOpen

/-- The current node is left behind all that was read. -/
private theorem left_behind (nested : b.Nested text mode pos) (linked : b.Linked)
    (h : Left stop b b') (lt : pos < stop) : b'.Nested text mode stop := by
  refine nested.left linked h (Nat.le_of_lt lt) ?_ (Nat.le_refl stop) ?_
  · exact Nat.lt_of_le_of_lt (nested.start_le linked.current_lt) lt
  · intro child mem
    have := nested.ended child (linked.doc.lt_of_mem_children mem).2
      (not_mem_path_of_mem_children linked mem)
    omega

/-! ### A node more -/

/-- A node that is added behind what was read starts behind its parent. -/
private theorem start_le_child_of_addChild (nested : b.Nested text mode pos) (linked : b.Linked)
    (leaf : node.children = []) (le : pos ≤ node.start)
    (doc : b'.doc = b.doc.addChild b.current node) {id child : Nat}
    (mem : child ∈ b'.doc.children id) :
    (b'.doc.node id).start ≤ (b'.doc.node child).start := by
  have current_lt := linked.current_lt
  rw [doc, Document.children_addChild current_lt leaf] at mem
  rw [doc, Document.start_addChild current_lt, Document.start_addChild current_lt]
  split at mem
  · next isCurrent =>
    have startsBefore := nested.start_le current_lt
    rw [if_neg (by omega), isCurrent]
    rcases List.mem_append.1 mem with mem | isNew
    · have := linked.doc.lt_of_mem_children mem
      rw [if_neg (by omega)]
      exact nested.start_le_child b.current child mem
    · rw [if_pos (List.mem_singleton.1 isNew)]
      exact Nat.le_trans startsBefore le
  · have := linked.doc.lt_of_mem_children mem
    rw [if_neg (by omega), if_neg (by omega)]
    exact nested.start_le_child id child mem

/-- A node that is added behind what was read starts behind its siblings. -/
private theorem siblings_of_addChild (nested : b.Nested text mode pos) (linked : b.Linked)
    (leaf : node.children = []) (le : pos ≤ node.start)
    (doc : b'.doc = b.doc.addChild b.current node)
    (path : ∀ id ≠ b.doc.count, id ∈ b'.doc.path b'.current ↔ id ∈ b.doc.path b.current)
    (id : Nat) :
    (b'.doc.children id).Pairwise fun first second ↦
      first ∉ b'.doc.path b'.current ∧ (b'.doc.node first).stop ≤ (b'.doc.node second).start := by
  have current_lt := linked.current_lt
  have old : (b.doc.children id).Pairwise fun first second ↦
      first ∉ b'.doc.path b'.current ∧ (b'.doc.node first).stop ≤ (b'.doc.node second).start := by
    apply (nested.siblings id).imp_of_mem
    rintro first second memFirst memSecond ⟨notOpen, stop_le⟩
    have := linked.doc.lt_of_mem_children memFirst
    have := linked.doc.lt_of_mem_children memSecond
    rw [path first (by omega), doc, Document.stop_addChild current_lt,
      Document.start_addChild current_lt, if_neg (by omega), if_neg (by omega)]
    exact ⟨notOpen, stop_le⟩
  rw [doc, Document.children_addChild current_lt leaf, ← doc]
  split
  · next isCurrent =>
    rw [isCurrent] at old
    apply List.pairwise_append.2 ⟨old, List.pairwise_singleton _ _, _⟩
    intro first mem second isNew
    have := linked.doc.lt_of_mem_children mem
    have notOpen := not_mem_path_of_mem_children linked mem
    have ended := nested.ended first (by omega) notOpen
    rw [path first (by omega), doc, Document.stop_addChild current_lt,
      Document.start_addChild current_lt, if_neg (by omega), if_pos (List.mem_singleton.1 isNew)]
    exact ⟨notOpen, by omega⟩
  · exact old

/-- A node that is added starts behind what was read. It is open, or ends where the builder is. -/
theorem of_addChild (before : b.Nested text mode pos) (linked : b.Linked)
    (leaf : node.children = []) (holds : (b.doc.frame b.current).isDeclaration = false)
    (le : pos ≤ node.start) (le' : node.start ≤ pos')
    (starts : node.start < pos' ∨
      node.start = 0 ∧ pos' = 0 ∧ mode = .dtd ∧ node.kind.frame = .doctype)
    (opening : node.kind.frame.standsInSubset = true → node.start + 2 ≤ pos')
    (doc : b'.doc = b.doc.addChild b.current node)
    (path : ∀ id ≠ b.doc.count, id ∈ b'.doc.path b'.current ↔ id ∈ b.doc.path b.current)
    (new : b.doc.count ∈ b'.doc.path b'.current ∨ node.start < node.stop ∧ node.stop ≤ pos') :
    b'.Nested text mode pos' := by
  have nested := before.mono (Nat.le_trans le le')
  have current_lt := linked.current_lt
  have childless : b.doc.children b.doc.count = [] := by
    rw [Document.children, Document.node_of_count_le (Nat.le_refl _)]
    rfl
  constructor
  case text_eq =>
    rw [doc]
    exact nested.text_eq
  case mode_eq =>
    rw [doc]
    exact nested.mode_eq
  case root_start =>
    have := linked.doc.root_lt
    rw [doc, Document.start_addChild current_lt, if_neg (by omega), nested.root_start]
  case root_stop =>
    have := linked.doc.root_lt
    rw [doc, Document.stop_addChild current_lt, if_neg (by omega), nested.root_stop]
  case starts =>
    intro id less notRoot
    rw [doc, Document.count_addChild] at less
    rw [doc, Document.start_addChild current_lt, Document.frame_addChild current_lt]
    split
    · exact starts
    · next isOld => exact nested.starts id (by omega) notRoot
  case ended =>
    intro id less notOpen
    rw [doc, Document.count_addChild] at less
    rw [doc, Document.start_addChild current_lt, Document.stop_addChild current_lt]
    split
    · next isNew =>
      subst isNew
      rcases new with isOpen | ended
      · exact absurd isOpen notOpen
      · exact ended
    · next isOld =>
      rw [path id (by omega)] at notOpen
      exact nested.ended id (by omega) notOpen
  case start_le_child =>
    exact fun id child mem ↦ before.start_le_child_of_addChild linked leaf le doc mem
  case child_stop_le =>
    intro id notOpen child mem
    rw [doc, Document.children_addChild current_lt leaf] at mem
    rw [doc, Document.stop_addChild current_lt, Document.stop_addChild current_lt]
    split at mem
    · next isCurrent =>
      rw [isCurrent, path b.current (by omega)] at notOpen
      exact absurd Document.Linked.mem_path_self notOpen
    · have := linked.doc.lt_of_mem_children mem
      rw [if_neg (by omega), if_neg (by omega)]
      rw [path id (by omega)] at notOpen
      exact nested.child_stop_le id notOpen child mem
  case siblings => exact before.siblings_of_addChild linked leaf le doc path
  case opening =>
    intro id isOpen stands
    rw [doc, Document.frame_addChild current_lt] at stands
    rw [doc, Document.start_addChild current_lt]
    split at stands
    · next isNew =>
      rw [if_pos isNew]
      exact opening stands
    · next isOld =>
      rw [if_neg isOld]
      rw [path id isOld] at isOpen
      exact nested.opening id isOpen stands
  case childless =>
    intro id isDecl
    rw [doc, Document.frame_addChild current_lt] at isDecl
    rw [doc, Document.children_addChild current_lt leaf]
    split at isDecl
    · next isNew =>
      rw [if_neg (by omega), isNew, childless]
    · split
      · next isCurrent =>
        rw [isCurrent, holds] at isDecl
        cases isDecl
      · exact nested.childless id isDecl

theorem openNode (nested : b.Nested text mode pos) (linked : b.Linked)
    (leaf : node.children = []) (holds : (b.doc.frame b.current).isDeclaration = false)
    (le : pos ≤ node.start) (lt : node.start < pos')
    (opening : node.kind.frame.standsInSubset = true → node.start + 2 ≤ pos') :
    (b.openNode node).Nested text mode pos' := by
  have path := path_openNode linked node
  refine nested.of_addChild linked leaf holds le (Nat.le_of_lt lt) (.inl lt) opening rfl ?_
    (.inl ?_)
  · intro id isOld
    rw [path, List.mem_cons]
    exact ⟨fun mem ↦ mem.resolve_left isOld, .inr⟩
  · rw [path]
    exact List.mem_cons_self

/-- A node that is added and not opened. -/
theorem addChild (nested : b.Nested text mode pos) (linked : b.Linked)
    (leaf : node.children = []) (holds : (b.doc.frame b.current).isDeclaration = false)
    (le : pos ≤ node.start) (lt : node.start < node.stop) (stop_le : node.stop ≤ pos')
    (opening : node.kind.frame.standsInSubset = true → node.start + 2 ≤ pos') :
    Nested text mode { b with doc := b.doc.addChild b.current node } pos' := by
  have lt' := Nat.lt_of_lt_of_le lt stop_le
  refine nested.of_addChild linked leaf holds le (Nat.le_of_lt lt') (.inl lt') opening rfl ?_
    (.inr ⟨lt, stop_le⟩)
  intro id _
  rw [Document.path_addChild_of_lt linked.current_lt linked.current_lt]

/-! ### Closing -/

theorem close (nested : b.Nested text mode pos) (linked : b.Linked) (lt : pos < stop) :
    (b.close stop).Nested text mode stop := by
  rcases close_cases linked stop with ⟨-, eq⟩ | left
  · rw [eq]
    exact nested.mono (Nat.le_of_lt lt)
  · exact nested.left_behind linked left lt

theorem closeTag (nested : b.Nested text mode pos) (linked : b.Linked) (lt : pos < stop) :
    (b.closeTag stop).Nested text mode stop := by
  rcases closeTag_cases linked stop with ⟨-, eq⟩ | left
  · rw [eq]
    exact nested.mono (Nat.le_of_lt lt)
  · exact nested.left_behind linked left lt

theorem closeIf (nested : b.Nested text mode pos) (linked : b.Linked) (p : NodeKind → Bool)
    (lt : pos < stop) : (b.closeIf p stop).Nested text mode stop := by
  unfold Builder.closeIf
  split
  · exact nested.close linked lt
  · exact nested.mono (Nat.le_of_lt lt)

/-- Where a declaration is left there is some text of it. -/
theorem leaveDeclaration (nested : b.Nested text mode pos) (linked : b.Linked) :
    (b.leaveDeclaration pos).Nested text mode pos := by
  rcases leaveDeclaration_cases linked pos with ⟨-, eq⟩ | ⟨isDecl, left⟩
  · rw [eq]
    exact nested
  · have opening := nested.opening b.current Document.Linked.mem_path_self
      (Frame.standsInSubset_of_isDeclaration isDecl)
    rw [← currentNode] at opening
    refine nested.left linked left (Nat.le_refl pos) (by omega) (by omega) fun child mem ↦ ?_
    rw [nested.childless b.current isDecl] at mem
    cases mem

/-- The parent of a declaration is no declaration. -/
theorem isDeclaration_leaveDeclaration (nested : b.Nested text mode pos) (linked : b.Linked) :
    ((b.leaveDeclaration pos).doc.frame (b.leaveDeclaration pos).current).isDeclaration =
      false := by
  rcases leaveDeclaration_cases linked pos with ⟨notDecl, eq⟩ | ⟨isDecl, left⟩
  · rw [eq]
    exact notDecl
  · rw [left.doc.frame_eq]
    cases parentDecl : (b.doc.frame (b.leaveDeclaration pos).current).isDeclaration with
    | false => rfl
    | true =>
      have mem := (linked.doc.mem_children _ b.current).2 ⟨linked.current_lt, left.parent_eq⟩
      rw [nested.childless _ parentDecl] at mem
      cases mem

/-! ### Leaving several nodes -/

/-- The nodes up to one around are left one after another, each where those below it tell. -/
private theorem leaveAll (stopOf : Builder → Nat → Nat) {before after : List Nat} {target : Nat}
    (nested : b.Nested text mode pos) (linked : b.Linked)
    (anywhere : ∀ (c : Builder) (place id : Nat),
      stopOf { c with current := place } id = stopOf c id)
    (path : b.doc.path b.current = before ++ target :: after)
    (leaves : ∀ c : Builder, c.Linked → c.Nested text mode pos → c.current ≠ Document.root →
      c.doc.frame c.current ∈ before.map b.doc.frame →
      c.currentNode.start < stopOf c c.current ∧ stopOf c c.current ≤ pos ∧
        ∀ child ∈ c.doc.children c.current, (c.doc.node child).stop ≤ stopOf c c.current) :
    Nested text mode
      { before.foldl (fun c id ↦ c.setStop (stopOf c id) id) b with current := target } pos := by
  induction before generalizing b with
  | nil =>
    obtain ⟨rfl, -⟩ := List.cons.inj path
    exact nested
  | cons id before ih =>
    obtain ⟨rfl, -⟩ := List.cons.inj path
    rcases linked.doc.path_cases linked.current_lt with
      ⟨-, eq⟩ | ⟨notRoot, parent, -, hasParent, eq⟩
    · rw [eq] at path
      simp at path
    · rw [eq] at path
      have left := left_setStop linked hasParent (stopOf b b.current)
      obtain ⟨start_lt, stop_le, children⟩ :=
        leaves b linked nested notRoot (List.mem_map_of_mem List.mem_cons_self)
      have nested := nested.left linked left (Nat.le_refl pos) start_lt stop_le children
      have linked := (left.returned linked).linked linked
      have nested := ih nested linked (by rw [left.doc.path_eq]; exact (List.cons.inj path).2)
        fun c cLinked cNested cNotRoot mem ↦ leaves c cLinked cNested cNotRoot <| by
          rw [List.map_congr_left fun id _ ↦ left.doc.frame_eq id] at mem
          exact List.mem_cons_of_mem _ mem
      rw [foldl_setStop_current anywhere] at nested
      exact nested

/-- The last child of the current node ends behind the others, and before what is ahead. -/
private theorem stop_le_lastStop (nested : b.Nested text mode pos) (linked : b.Linked) :
    b.lastStop b.current ≤ pos ∧
      ∀ child ∈ b.doc.children b.current, (b.doc.node child).stop ≤ b.lastStop b.current := by
  have ended : ∀ child ∈ b.doc.children b.current, _ := fun child mem ↦
    nested.ended child (linked.doc.lt_of_mem_children mem).2
      (not_mem_path_of_mem_children linked mem)
  have siblings := nested.siblings b.current
  rcases List.eq_nil_or_concat (b.doc.children b.current) with none | ⟨others, last, eq⟩
  · rw [lastStop, none]
    exact ⟨Nat.zero_le pos, fun child mem ↦ absurd mem List.not_mem_nil⟩
  · rw [List.concat_eq_append] at eq
    rw [lastStop, eq, List.getLast?_concat, Option.map_some, Option.getD_some]
    rw [eq] at ended siblings
    have lastEnded := ended last (List.mem_append_right _ List.mem_cons_self)
    refine ⟨lastEnded.2, fun child mem ↦ ?_⟩
    rcases List.mem_append.1 mem with mem | isLast
    · have := (List.pairwise_append.1 siblings).2.2 child mem last List.mem_cons_self
      omega
    · rw [List.mem_singleton.1 isLast]

/-- What is open in a subset is left for the document type. -/
theorem returnToDoctype (nested : b.Nested text mode pos) (linked : b.Linked)
    {inner outer : List Frame} (spine : b.spine = inner ++ .doctype :: outer)
    (stands : ∀ frame ∈ inner, frame.standsInSubset = true) :
    (b.returnToDoctype pos).Nested text mode pos := by
  obtain ⟨before, doctype, after, path, rfl, isDoctype, rfl⟩ := exists_path_of_spine spine
  have others : ∀ id ∈ before, b.doc.frame id ≠ .doctype := by
    intro id mem isDoctype
    have isIn := stands _ (List.mem_map_of_mem mem)
    rw [isDoctype] at isIn
    cases isIn
  rw [returnToDoctype_eq path isDoctype others]
  refine leaveAll _ nested linked (fun _ _ _ ↦ rfl) path ?_
  intro c linked nested notRoot mem
  have opening := nested.opening c.current Document.Linked.mem_path_self (stands _ mem)
  obtain ⟨lastStop_le, stop_le⟩ := nested.stop_le_lastStop linked
  show c.currentNode.start < max (max (pos - 1) c.currentNode.start) (c.lastStop c.current) ∧
    max (max (pos - 1) c.currentNode.start) (c.lastStop c.current) ≤ pos ∧ ∀ child ∈ _, _ ≤
      max (max (pos - 1) c.currentNode.start) (c.lastStop c.current)
  rw [← currentNode] at opening
  refine ⟨by omega, by omega, fun child mem ↦ ?_⟩
  exact Nat.le_trans (stop_le child mem) (Nat.le_max_right _ _)

/-- What is open in the element of an end tag is left where the tag starts. -/
theorem leaveUnmatched {opening element : Nat} {before after : List Nat}
    (nested : b.Nested text .xml opening) (linked : b.Linked)
    (path : b.doc.path b.current = before ++ element :: after) :
    Nested text .xml { b.endAll opening before with current := element } opening := by
  refine leaveAll (fun _ _ ↦ opening) nested linked (fun _ _ _ ↦ rfl) path ?_
  intro c linked nested notRoot _
  refine ⟨nested.start_lt_of_xml linked.current_lt notRoot, Nat.le_refl opening, ?_⟩
  intro child mem
  exact (nested.ended child (linked.doc.lt_of_mem_children mem).2
    (not_mem_path_of_mem_children linked mem)).2

/-- The name of an end tag leaves what is open in its element, or opens an element. -/
theorem nameEndTag {opening : Nat} {token : Token} (nested : b.Nested text .xml opening)
    (linked : b.Linked) (atOpening : b.endTagOpen = some opening) (lt : opening < token.stop)
    (holds : (b.doc.frame b.current).isDeclaration = false) :
    (b.nameEndTag token).Nested text .xml token.stop := by
  have cases := nameEndTag_cases b token
  simp only [atOpening, Option.getD_some] at cases
  rcases cases with ⟨before, element, after, path, isMatch, -, eq⟩ | ⟨-, eq⟩
  · have left := nested.leaveUnmatched linked path
    have returned := returned_foldl_setStop (fun _ _ ↦ opening) path
    have changed := retouched_endTagOpen (returned.linked linked)
      ((returned.doc.frame_eq element).trans (frame_of_matchesTag isMatch)) opening token.stop
    rw [eq]
    exact (left.retouched (returned.linked linked) changed).mono (Nat.le_of_lt lt)
  · have ended := retouched_endAll (List.Subset.refl (b.doc.path b.current)) opening
    rw [eq]
    refine (nested.retouched linked ended).openNode (ended.linked linked) rfl ?_ ?_ ?_ ?_
    · rw [ended.doc.frame_eq, ended.current_eq]
      exact holds
    · simp [strayElement, atOpening]
    · simpa [strayElement, atOpening] using lt
    · intro stands
      cases stands

end Nested

/-! ### The end of the text -/

theorem stop_endAll (b : Builder) {ids : List Nat} (lt : ∀ id ∈ ids, id < b.doc.count)
    (stop other : Nat) :
    ((b.endAll stop ids).doc.node other).stop =
      if other ∈ ids ∧ other ≠ Document.root then stop else (b.doc.node other).stop := by
  rw [node_endAll b lt]
  split
  · rfl
  · rfl

/-- The text is over, so what is still open ends there. -/
theorem finish_eq (b : Builder) :
    b.finish = (b.endAll b.doc.length (b.doc.path b.current)).doc := by
  have ends : ∀ (ids : List Nat) (c : Builder), c.doc.length = b.doc.length →
      ids.foldl (fun c id ↦ c.setStop c.doc.length id) c = c.endAll b.doc.length ids := by
    intro ids
    induction ids with
    | nil => exact fun _ _ ↦ rfl
    | cons id ids ih =>
      intro c length
      have next : (c.setStop b.doc.length id).doc.length = b.doc.length := by
        unfold setStop
        split
        · exact length
        · exact length
      rw [List.foldl_cons, length, ih _ next]
      rfl
  rw [finish, ends _ b rfl]

/-- At the end of the text open nodes end there, and the other nodes where they did. -/
theorem retouched_finish (b : Builder) : Document.Retouched b.IsOpen b.doc b.finish := by
  rw [finish_eq]
  exact (retouched_endAll (List.Subset.refl _) _).doc

theorem Nested.stop_finish (nested : b.Nested text mode pos) (linked : b.Linked) (id : Nat) :
    (b.finish.node id).stop =
      if id ∈ b.doc.path b.current then text.byteSize else (b.doc.node id).stop := by
  have inside : ∀ id ∈ b.doc.path b.current, id < b.doc.count := fun _ ↦ linked.lt_of_mem_path
  have length : b.doc.length = text.byteSize := by
    rw [Document.length, nested.text_eq]
  rw [finish_eq, stop_endAll b inside, length]
  by_cases isRoot : id = Document.root
  · rw [if_neg fun h ↦ h.2 isRoot, isRoot, nested.root_stop,
      if_pos (linked.doc.root_mem_path linked.current_lt)]
  · by_cases isOpen : id ∈ b.doc.path b.current
    · rw [if_pos ⟨isOpen, isRoot⟩, if_pos isOpen]
    · rw [if_neg fun h ↦ isOpen h.1, if_neg isOpen]

/-- At the end of the text the spans of all nodes nest. -/
theorem Nested.wellNested_finish (nested : b.Nested text mode text.byteSize) (linked : b.Linked) :
    b.finish.WellNested := by
  have retouched := retouched_finish b
  have stops := nested.stop_finish linked
  have length : b.finish.length = text.byteSize := by
    rw [Document.length, retouched.text_eq, nested.text_eq]
  have stop_le : ∀ id < b.doc.count, (b.finish.node id).stop ≤ text.byteSize := by
    intro id lt
    rw [stops]
    split
    · exact Nat.le_refl _
    · next notOpen => exact (nested.ended id lt notOpen).2
  have children_lt : ∀ id, ∀ child ∈ b.doc.children id, child < b.doc.count :=
    fun id child mem ↦ (linked.doc.lt_of_mem_children mem).2
  constructor
  case root_span =>
    rw [Node.span, retouched.start_eq, nested.root_start, stops,
      if_pos (linked.doc.root_mem_path linked.current_lt), length]
  case start_lt_stop =>
    intro id lt notRoot
    rw [retouched.count_eq] at lt
    rw [retouched.start_eq, stops, retouched.text_eq, nested.text_eq, retouched.mode_eq,
      nested.mode_eq, retouched.frame_eq]
    split
    · rcases nested.starts id lt notRoot with less | ⟨-, isEmpty, dtd, isDoctype⟩
      · exact .inl less
      · exact .inr ⟨dtd, Text.byteSize_eq_zero.1 isEmpty, isDoctype⟩
    · next notOpen => exact .inl (nested.ended id lt notOpen).1
  case start_le_stop =>
    intro id lt
    rw [retouched.count_eq] at lt
    rw [retouched.start_eq, stops]
    split
    · exact nested.start_le lt
    · next notOpen => exact Nat.le_of_lt (nested.ended id lt notOpen).1
  case stop_le_length =>
    intro id lt
    rw [retouched.count_eq] at lt
    rw [length]
    exact stop_le id lt
  case inside_parent =>
    intro id child mem
    rw [retouched.children_eq] at mem
    rw [retouched.start_eq, retouched.start_eq]
    refine ⟨nested.start_le_child id child mem, ?_⟩
    rw [stops id]
    split
    · exact stop_le child (children_lt id child mem)
    · next notOpen =>
      have childNotOpen := Nested.not_mem_path_of_parent linked mem notOpen
      rw [stops, if_neg childNotOpen]
      exact nested.child_stop_le id notOpen child mem
  case siblings =>
    intro id
    rw [retouched.children_eq]
    refine List.Pairwise.isChain ((nested.siblings id).imp ?_)
    rintro first second ⟨notOpen, le⟩
    rw [stops, if_neg notOpen, retouched.start_eq]
    exact le

end Builder

end TolerantXml
