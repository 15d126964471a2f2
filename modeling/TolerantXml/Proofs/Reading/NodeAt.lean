import Mathlib.Data.List.Sort
import TolerantXml.Proofs.Reading.Nesting
import TolerantXml.Tree.Lookup

/-!
# The node at an offset

The search for the node at an offset takes the first child that contains the offset and never
returns from it. In a document whose spans nest that child is the only one, so the search passes
through every node that contains the offset (`mem_path_nodeAtFrom`), and those nodes are the one
that it finds and its ancestors (`containsAt_iff_mem_path_nodeAt`). So it finds what a search
through all nodes in their order finds (`nodeAt_parse`).
-/

namespace TolerantXml

namespace Document

variable {doc : Document} {id other offset : Nat}

/-- Whether the span of a node contains an offset. -/
def containsAt (doc : Document) (offset id : Nat) : Bool := (doc.node id).span.contains offset

/-- The nodes whose spans contain an offset, in the order in which they were made. -/
def nodesAt (doc : Document) (offset : Nat) : List Nat :=
  (List.range doc.count).filter (doc.containsAt offset)

theorem containsAt_iff :
    doc.containsAt offset id ↔ (doc.node id).start ≤ offset ∧ offset < (doc.node id).stop := by
  rw [containsAt, Span.contains, Node.span, Bool.and_eq_true, decide_eq_true_iff,
    decide_eq_true_iff]

theorem mem_nodesAt : id ∈ doc.nodesAt offset ↔ id < doc.count ∧ doc.containsAt offset id := by
  rw [nodesAt, List.mem_filter, List.mem_range]

/-! ### Paths and spans -/

namespace WellNested

variable (nested : doc.WellNested)
include nested

/-- A node lies inside its ancestors. -/
theorem inside_of_mem_path (linked : doc.Linked) (lt : other < doc.count)
    (mem : id ∈ doc.path other) :
    (doc.node id).start ≤ (doc.node other).start ∧
      (doc.node other).stop ≤ (doc.node id).stop := by
  induction other using Nat.strongRecOn with
  | ind other ih =>
    rcases linked.path_cases lt with ⟨isRoot, eq⟩ | ⟨-, parent, less, hasParent, eq⟩
    · rw [eq, ← isRoot] at mem
      rw [List.mem_singleton.1 mem]
      exact ⟨Nat.le_refl _, Nat.le_refl _⟩
    · rw [eq] at mem
      rcases List.mem_cons.1 mem with rfl | mem
      · exact ⟨Nat.le_refl _, Nat.le_refl _⟩
      · have isChild := (linked.mem_children parent other).2 ⟨lt, hasParent⟩
        have inside := nested.inside_parent parent other isChild
        have := ih parent less (Nat.lt_trans less lt) mem
        omega

/-- What lies in a node lies in its ancestors. -/
theorem containsAt_of_mem_path (linked : doc.Linked) (lt : other < doc.count)
    (mem : id ∈ doc.path other) (contains : doc.containsAt offset other) :
    doc.containsAt offset id := by
  have inside := nested.inside_of_mem_path linked lt mem
  rw [containsAt_iff] at contains ⊢
  omega

/-- Of two children one ends before the other starts. -/
theorem pairwise_siblings (linked : doc.Linked) (id : Nat) :
    (doc.children id).Pairwise fun first second ↦
      (doc.node first).stop ≤ (doc.node second).start := by
  have ordered : ∀ child ∈ doc.children id, (doc.node child).start ≤ (doc.node child).stop :=
    fun child isChild ↦ nested.start_le_stop child (linked.lt_of_mem_children isChild).2
  have chain := nested.siblings id
  generalize doc.children id = children at ordered chain
  induction children with
  | nil => exact .nil
  | cons first rest ih =>
    have later := ih (fun child mem ↦ ordered child (List.mem_cons_of_mem first mem)) chain.tail
    refine List.pairwise_cons.2 ⟨?_, later⟩
    cases rest with
    | nil =>
      intro child mem
      cases mem
    | cons second rest =>
      have next : (doc.node first).stop ≤ (doc.node second).start := chain.rel
      intro child mem
      rcases List.mem_cons.1 mem with rfl | mem
      · exact next
      · have := (List.pairwise_cons.1 later).1 child mem
        have := ordered second (by simp)
        omega

/-- Only one child contains an offset. -/
private theorem child_unique (linked : doc.Linked) {child child' : Nat}
    (isChild : child ∈ doc.children id) (isChild' : child' ∈ doc.children id)
    (contains : doc.containsAt offset child) (contains' : doc.containsAt offset child') :
    child = child' := by
  rw [containsAt_iff] at contains contains'
  have ordered := List.pairwise_iff_getElem.1 (nested.pairwise_siblings linked id)
  obtain ⟨place, inRange, rfl⟩ := List.getElem_of_mem isChild
  obtain ⟨place', inRange', rfl⟩ := List.getElem_of_mem isChild'
  rcases Nat.lt_trichotomy place place' with less | rfl | less
  · have := ordered place place' inRange inRange' less
    omega
  · rfl
  · have := ordered place' place inRange' inRange less
    omega

end WellNested

/-! ### The search -/

theorem nodeAtFrom_lt (lt : id < doc.count) (offset : Nat) :
    doc.nodeAtFrom id offset < doc.count := by
  fun_induction nodeAtFrom doc id offset with
  | case1 => exact lt
  | case2 id child _ less ih => exact ih less.2
  | case3 => exact lt

/-- The search stays at the node that it starts from, or finds one that contains the offset. -/
theorem nodeAtFrom_eq_or_containsAt (doc : Document) (id offset : Nat) :
    doc.nodeAtFrom id offset = id ∨ doc.containsAt offset (doc.nodeAtFrom id offset) := by
  fun_induction nodeAtFrom doc id offset with
  | case1 => exact .inl rfl
  | case2 id child isFirst _ ih =>
    rcases ih with same | contains
    · rw [same]
      exact .inr (List.find?_some isFirst)
    · exact .inr contains
  | case3 => exact .inl rfl

/-- The search goes down from where it starts. -/
theorem Linked.mem_path_nodeAtFrom (linked : doc.Linked) (lt : id < doc.count) (offset : Nat) :
    id ∈ doc.path (doc.nodeAtFrom id offset) := by
  fun_induction nodeAtFrom doc id offset with
  | case1 => exact mem_path_self
  | case2 id child isFirst less ih =>
    have isChild := List.mem_of_find?_eq_some isFirst
    exact linked.parent_mem_path (nodeAtFrom_lt less.2 offset) (ih less.2)
      ((linked.mem_children id child).1 isChild).2
  | case3 => exact mem_path_self

/-- The search passes through every node below its start that contains the offset. -/
theorem WellNested.mem_path_nodeAtFrom (nested : doc.WellNested) (linked : doc.Linked)
    (lt : other < doc.count) (contains : doc.containsAt offset other)
    (below : id ∈ doc.path other) : other ∈ doc.path (doc.nodeAtFrom id offset) := by
  have childOf : ∀ id ∈ doc.path other, id ≠ other →
      ∃ child ∈ doc.children id, child ∈ doc.path other ∧ doc.containsAt offset child := by
    intro id below differ
    obtain ⟨child, isChild, onPath⟩ := linked.exists_child_mem_path lt below differ
    exact ⟨child, isChild, onPath, nested.containsAt_of_mem_path linked lt onPath contains⟩
  fun_induction nodeAtFrom doc id offset with
  | case1 id noChild =>
    -- No child contains the offset, so the node itself is the one that is looked for.
    by_cases same : id = other
    · rw [same]
      exact Linked.mem_path_self
    · obtain ⟨child, isChild, -, inChild⟩ := childOf id below same
      exact absurd inChild (List.find?_eq_none.1 noChild child isChild)
  | case2 id first isFirst less ih =>
    by_cases same : id = other
    · have down := linked.mem_path_nodeAtFrom less.2 offset
      have isChild := List.mem_of_find?_eq_some isFirst
      rw [← same]
      exact linked.parent_mem_path (nodeAtFrom_lt less.2 offset) down
        ((linked.mem_children id first).1 isChild).2
    · obtain ⟨child, isChild, onPath, inChild⟩ := childOf id below same
      rw [nested.child_unique linked (List.mem_of_find?_eq_some isFirst) isChild
        (List.find?_some isFirst) inChild] at ih ⊢
      exact ih onPath
  | case3 id child isFirst noLink =>
    exact absurd (linked.lt_of_mem_children (List.mem_of_find?_eq_some isFirst)) noLink

/-- No node contains an offset behind the text. -/
private theorem WellNested.nodesAt_of_length_le (nested : doc.WellNested)
    (le : doc.length ≤ offset) : doc.nodesAt offset = [] := by
  rw [List.eq_nil_iff_forall_not_mem]
  intro id mem
  obtain ⟨lt, contains⟩ := mem_nodesAt.1 mem
  have := nested.stop_le_length id lt
  have := (containsAt_iff.1 contains).2
  omega

section WellNested

variable (nested : doc.WellNested) (linked : doc.Linked)
include nested linked

/-- The nodes that contain an offset of the text are the one that the search finds and its
ancestors. -/
theorem containsAt_iff_mem_path_nodeAt (inText : offset < doc.length) :
    id < doc.count ∧ doc.containsAt offset id ↔ id ∈ doc.path (doc.nodeAt offset) := by
  have found : doc.nodeAt offset < doc.count := nodeAtFrom_lt linked.root_lt offset
  constructor
  · rintro ⟨lt, contains⟩
    exact nested.mem_path_nodeAtFrom linked lt contains (linked.root_mem_path lt)
  · intro onPath
    refine ⟨Nat.lt_of_le_of_lt (Linked.le_of_mem_path onPath) found,
      nested.containsAt_of_mem_path linked found onPath ?_⟩
    rcases doc.nodeAtFrom_eq_or_containsAt root offset with isRoot | contains
    · rw [nodeAt, isRoot, containsAt, nested.root_span, Span.contains]
      simpa using inText
    · exact contains

/-- The search finds a node that contains the offset while no child of it does. -/
theorem nodeAt_eq (lt : id < doc.count) (contains : doc.containsAt offset id)
    (others : ∀ child ∈ doc.children id, ¬ doc.containsAt offset child) :
    doc.nodeAt offset = id := by
  have found : doc.nodeAt offset < doc.count := nodeAtFrom_lt linked.root_lt offset
  have onPath := nested.mem_path_nodeAtFrom linked lt contains (linked.root_mem_path lt)
  by_contra differ
  obtain ⟨child, isChild, childOnPath⟩ :=
    linked.exists_child_mem_path found onPath fun same ↦ differ same.symm
  rcases doc.nodeAtFrom_eq_or_containsAt root offset with isRoot | isIn
  · rw [isRoot, linked.path_root, List.mem_singleton] at onPath
    exact differ (isRoot.trans onPath.symm)
  · exact others child isChild (nested.containsAt_of_mem_path linked found childOnPath isIn)

private theorem nodesAt_eq_path (inText : offset < doc.length) :
    doc.nodesAt offset = (doc.path (doc.nodeAt offset)).reverse := by
  have found : doc.nodeAt offset < doc.count := nodeAtFrom_lt linked.root_lt offset
  have sorted : (doc.nodesAt offset).Pairwise (· < ·) := List.pairwise_lt_range.filter _
  have sorted' : (doc.path (doc.nodeAt offset)).reverse.Pairwise (· < ·) :=
    List.pairwise_reverse.2 (linked.pairwise_path found)
  refine sorted.eq_of_mem_iff sorted' fun id ↦ ?_
  rw [mem_nodesAt, List.mem_reverse]
  exact containsAt_iff_mem_path_nodeAt nested linked inText

/-- The search finds the last node that contains the offset, and the root if no other does. -/
private theorem nodeAt_eq_getLast (offset : Nat) :
    doc.nodeAt offset = ((doc.nodesAt offset).filter (· ≠ root)).getLast?.getD root := by
  have found : doc.nodeAt offset < doc.count := nodeAtFrom_lt linked.root_lt offset
  rcases Nat.lt_or_ge offset doc.length with inText | le
  · rw [nodesAt_eq_path nested linked inText]
    rcases linked.path_cases found with ⟨isRoot, eq⟩ | ⟨notRoot, _, -, -, eq⟩
    · rw [eq, isRoot]
      rfl
    · rw [eq, List.reverse_cons, List.filter_append,
        List.filter_cons_of_pos (by simpa using notRoot), List.filter_nil,
        List.getLast?_concat, Option.getD_some]
  · have nothing := nested.nodesAt_of_length_le le
    rw [nothing]
    rcases doc.nodeAtFrom_eq_or_containsAt root offset with isRoot | contains
    · exact isRoot
    · exact absurd (mem_nodesAt.2 ⟨found, contains⟩) (nothing ▸ List.not_mem_nil)

/-- Every other node that contains the offset is further up. -/
private theorem length_path_lt_of_mem_nodesAt (inText : offset < doc.length)
    (mem : id ∈ doc.nodesAt offset) (differ : id ≠ doc.nodeAt offset) :
    (doc.path id).length < (doc.path (doc.nodeAt offset)).length := by
  have found : doc.nodeAt offset < doc.count := nodeAtFrom_lt linked.root_lt offset
  have onPath := (containsAt_iff_mem_path_nodeAt nested linked inText).1 (mem_nodesAt.1 mem)
  have suffix := linked.path_suffix found onPath
  refine Nat.lt_of_le_of_ne suffix.length_le fun same ↦ differ ?_
  exact (List.cons.inj (suffix.eq_of_length same)).1

end WellNested

end Document

/-- Looking up an offset in a document agrees with a search through all of its nodes: it finds the
last one other than the root that contains the offset, or the root if there is none. The nodes that
contain an offset of the text are the one found and its ancestors, and it is the deepest of
them. -/
theorem nodeAt_parse (text uri : Text) (mode : Mode) (offset : Nat) :
    (Document.parse text uri mode).nodeAt offset =
      (((Document.parse text uri mode).nodesAt offset).filter (· ≠ Document.root)).getLast?.getD
        Document.root ∧
    (offset < text.byteSize →
      (Document.parse text uri mode).nodesAt offset =
        ((Document.parse text uri mode).path
          ((Document.parse text uri mode).nodeAt offset)).reverse ∧
      ∀ id ∈ (Document.parse text uri mode).nodesAt offset,
        id ≠ (Document.parse text uri mode).nodeAt offset →
        ((Document.parse text uri mode).path id).length <
          ((Document.parse text uri mode).path
            ((Document.parse text uri mode).nodeAt offset)).length) := by
  obtain ⟨n, atEnd⟩ := (Reading.start text uri mode).exists_atEnd
  obtain ⟨isText, -, linked, nested⟩ := (Reading.after_nested text uri mode n).finish atEnd
  rw [← Reading.parse_eq_finish atEnd] at isText linked nested
  generalize Document.parse text uri mode = doc at isText linked nested ⊢
  refine ⟨Document.nodeAt_eq_getLast nested linked offset, fun inText ↦ ?_⟩
  rw [← isText] at inText
  exact ⟨Document.nodesAt_eq_path nested linked inText,
    fun _ ↦ Document.length_path_lt_of_mem_nodesAt nested linked inText⟩

end TolerantXml
