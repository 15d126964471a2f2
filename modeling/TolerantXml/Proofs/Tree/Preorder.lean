import Mathlib.Data.List.Sort
import Mathlib.Data.Nat.Find
import TolerantXml.Proofs.Tree.Linked

/-!
# The numbers below a node

In a linked document the descendants of a node are the nodes with it on their path
(`mem_descendants`). If besides nodes are only ever added below the last node or one around it, no
number is left out below a node (`Contiguous`, `contiguous_addChild`), so its descendants are the
numbers from its own to that of its last descendant, in order (`exists_descendants_eq`). A walk that
keeps the nodes still to visit on a stack visits the same nodes (`walk_eq_descendants`).
-/

namespace TolerantXml.Document

variable {doc doc' : Document} {id other parent child : Nat} {touched : Nat → Prop} {node : Node}

/-- The nodes that a walk visits in some number of steps. Each step takes a node off the stack and
puts its children there, the first of them on top. -/
def walk (doc : Document) : (steps : Nat) → (stack : List Nat) → List Nat
  | 0, _ => []
  | _ + 1, [] => []
  | steps + 1, id :: stack => id :: doc.walk steps (doc.children id ++ stack)

/-- Between a node and one below it stand only nodes below the first. -/
def Contiguous (doc : Document) : Prop :=
  ∀ last < doc.count, ∀ first ∈ doc.path last, ∀ id, first ≤ id → id ≤ last → first ∈ doc.path id

/-! ### Where nodes are added -/

theorem contiguous_ofText (text uri : Text) (mode : Mode) :
    (ofText text uri mode).Contiguous := by
  intro last lt first mem id ge le
  have : first ≤ last := Linked.le_of_mem_path mem
  rw [count_ofText] at lt
  obtain rfl : id = first := by omega
  exact Linked.mem_path_self

theorem Retouched.contiguous (h : Retouched touched doc doc') (contiguous : doc.Contiguous) :
    doc'.Contiguous := by
  intro last lt first mem id
  rw [h.path_eq] at mem ⊢
  exact contiguous last (h.count_eq ▸ lt) first mem id

/-- A node below the last one, or below a node around that, leaves no number out. -/
theorem contiguous_addChild (linked : doc.Linked) (contiguous : doc.Contiguous)
    (onEdge : parent ∈ doc.path (doc.count - 1)) : (doc.addChild parent node).Contiguous := by
  have last_lt : doc.count - 1 < doc.count := Nat.sub_one_lt_of_lt linked.root_lt
  have lt : parent < doc.count :=
    Nat.lt_of_le_of_lt (Linked.le_of_mem_path onEdge) last_lt
  intro last isNode first mem id ge le
  rw [count_addChild] at isNode
  by_cases isNew : last = doc.count
  · rw [isNew, path_addChild_count lt] at mem
    by_cases sameAsLast : id = doc.count
    · rwa [sameAsLast, path_addChild_count lt]
    · have onEdge : first ∈ doc.path (doc.count - 1) := by
        refine (linked.path_suffix last_lt onEdge).subset ((List.mem_cons.1 mem).resolve_left ?_)
        omega
      rw [path_addChild_of_lt lt (by omega)]
      exact contiguous _ last_lt first onEdge id ge (by omega)
  · rw [path_addChild_of_lt lt (by omega)] at mem ⊢
    exact contiguous last (by omega) first mem id ge le

/-! ### Descendants -/

namespace Linked

variable (linked : doc.Linked)
include linked

theorem descendants_cons (id : Nat) :
    doc.descendants id = id :: (doc.children id).flatMap doc.descendants := by
  rw [descendants]
  congr 1
  apply List.flatMap_congr
  intro child mem
  rw [dif_pos (linked.lt_of_mem_children mem)]

/-- What holds of a node when it holds of its children holds of all nodes. -/
theorem childInduction {P : Nat → Prop}
    (step : ∀ id, (∀ child ∈ doc.children id, P child) → P id) (id : Nat) : P id := by
  induction id using descendants.induct doc with
  | case1 id ih =>
    exact step id fun child mem ↦ ih child (linked.lt_of_mem_children mem)

/-- The descendants of a node are the nodes on whose paths it is. -/
theorem mem_descendants (lt : id < doc.count) :
    other ∈ doc.descendants id ↔ other < doc.count ∧ id ∈ doc.path other := by
  induction id using linked.childInduction with
  | step id ih =>
    rw [linked.descendants_cons, List.mem_cons, List.mem_flatMap]
    constructor
    · rintro (rfl | ⟨child, isChild, below⟩)
      · exact ⟨lt, mem_path_self⟩
      · obtain ⟨less, hasParent⟩ := (linked.mem_children id child).1 isChild
        obtain ⟨isNode, onPath⟩ := (ih child isChild less).1 below
        exact ⟨isNode, linked.parent_mem_path isNode onPath hasParent⟩
    · rintro ⟨isNode, onPath⟩
      by_cases same : id = other
      · exact .inl same.symm
      · obtain ⟨child, isChild, below⟩ := linked.exists_child_mem_path isNode onPath same
        exact .inr ⟨child, isChild,
          (ih child isChild (linked.lt_of_mem_children isChild).2).2 ⟨isNode, below⟩⟩

/-- A node is not around one of its siblings. -/
private theorem not_mem_path_of_siblings {sibling : Nat} (isChild : child ∈ doc.children id)
    (isSibling : sibling ∈ doc.children id) (differ : child ≠ sibling) :
    child ∉ doc.path sibling := by
  obtain ⟨-, hasParent⟩ := (linked.mem_children id sibling).1 isSibling
  rw [linked.path_cons hasParent, List.mem_cons]
  rintro (same | around)
  · exact differ same
  · have above := le_of_mem_path around
    have below := (linked.lt_of_mem_children isChild).1
    omega

/-- The descendants of a child come before those of a later child. -/
private theorem lt_of_mem_descendants (contiguous : doc.Contiguous) {sibling before behind : Nat}
    (isChild : child ∈ doc.children id) (isSibling : sibling ∈ doc.children id)
    (less : child < sibling) (isBefore : before ∈ doc.descendants child)
    (isBehind : behind ∈ doc.descendants sibling) : before < behind := by
  have child_lt := (linked.lt_of_mem_children isChild).2
  have sibling_lt := (linked.lt_of_mem_children isSibling).2
  obtain ⟨before_lt, below⟩ := (linked.mem_descendants child_lt).1 isBefore
  obtain ⟨-, below'⟩ := (linked.mem_descendants sibling_lt).1 isBehind
  have behind_ge := le_of_mem_path below'
  -- Otherwise the sibling would stand between the child and a node below the child.
  by_contra notLess
  exact linked.not_mem_path_of_siblings isChild isSibling (Nat.ne_of_lt less)
    (contiguous before before_lt child below sibling (Nat.le_of_lt less) (by omega))

private theorem pairwise_descendants (contiguous : doc.Contiguous) (lt : id < doc.count) :
    (doc.descendants id).Pairwise (· < ·) := by
  induction id using linked.childInduction with
  | step id ih =>
    rw [linked.descendants_cons, List.pairwise_cons, List.pairwise_flatMap]
    refine ⟨?_, ?_, ?_⟩
    · intro other mem
      obtain ⟨child, isChild, below⟩ := List.mem_flatMap.1 mem
      obtain ⟨above, child_lt⟩ := linked.lt_of_mem_children isChild
      have := le_of_mem_path ((linked.mem_descendants child_lt).1 below).2
      omega
    · exact fun child isChild ↦ ih child isChild (linked.lt_of_mem_children isChild).2
    · refine (linked.sorted id).imp_of_mem fun isChild isSibling less ↦ ?_
      exact fun before isBefore behind isBehind ↦
        linked.lt_of_mem_descendants contiguous isChild isSibling less isBefore isBehind

/-- The descendants of a node are the numbers up to that of the last node that has it on its
path. -/
private theorem descendants_eq (contiguous : doc.Contiguous) {last : Nat} (lt : last < doc.count)
    (mem : id ∈ doc.path last) (isLast : ∀ other < doc.count, id ∈ doc.path other → other ≤ last) :
    doc.descendants id = List.range' id (last + 1 - id) := by
  have le : id ≤ last := le_of_mem_path mem
  have id_lt : id < doc.count := Nat.lt_of_le_of_lt le lt
  apply (linked.pairwise_descendants contiguous id_lt).eq_of_mem_iff List.pairwise_lt_range'
  intro other
  rw [linked.mem_descendants id_lt, List.mem_range'_1]
  constructor
  · rintro ⟨isNode, onPath⟩
    have := le_of_mem_path onPath
    have := isLast other isNode onPath
    omega
  · intro between
    exact ⟨by omega, contiguous last lt id mem other (by omega) (by omega)⟩

/-- The descendants of a node are numbered from its own number on without a gap. -/
theorem exists_descendants_eq (contiguous : doc.Contiguous) (lt : id < doc.count) :
    ∃ last, id ≤ last ∧ last < doc.count ∧
      doc.descendants id = List.range' id (last + 1 - id) := by
  let last := Nat.findGreatest (fun last ↦ id ∈ doc.path last) (doc.count - 1)
  have mem : id ∈ doc.path last :=
    Nat.findGreatest_spec (P := fun last ↦ id ∈ doc.path last) (Nat.le_sub_one_of_lt lt)
      mem_path_self
  have last_le : last ≤ doc.count - 1 := Nat.findGreatest_le _
  have last_lt : last < doc.count := by omega
  refine ⟨last, le_of_mem_path mem, last_lt, linked.descendants_eq contiguous last_lt mem ?_⟩
  exact fun other isNode onPath ↦
    Nat.le_findGreatest (P := fun last ↦ id ∈ doc.path last) (Nat.le_sub_one_of_lt isNode) onPath

/-- The root comes first, and behind it all other nodes in the order of their numbers. -/
theorem descendants_root (contiguous : doc.Contiguous) :
    doc.descendants root = List.range doc.count := by
  have lt : doc.count - 1 < doc.count := Nat.sub_one_lt_of_lt linked.root_lt
  rw [linked.descendants_eq contiguous lt (linked.root_mem_path lt) fun other isNode _ ↦
    Nat.le_sub_one_of_lt isNode, List.range_eq_range', root]
  congr 1
  omega

/-! ### Walks -/

/-- A walk visits the nodes below those on its stack, one after the other. -/
private theorem walk_eq_take (steps : Nat) (stack : List Nat) :
    doc.walk steps stack = (stack.flatMap doc.descendants).take steps := by
  induction steps generalizing stack with
  | zero => rw [walk, List.take_zero]
  | succ steps ih =>
    cases stack with
    | nil => rw [walk]; rfl
    | cons id stack =>
      rw [walk, ih, List.flatMap_append, List.flatMap_cons, linked.descendants_cons id,
        List.cons_append, List.take_succ_cons]

/-- A walk from a node visits its descendants, and then its stack is empty. -/
theorem walk_eq_descendants (contiguous : doc.Contiguous) (lt : id < doc.count) {steps : Nat}
    (enough : doc.count ≤ steps) : doc.walk steps [id] = doc.descendants id := by
  obtain ⟨last, le, last_lt, eq⟩ := linked.exists_descendants_eq contiguous lt
  rw [linked.walk_eq_take, List.flatMap_singleton]
  apply List.take_of_length_le
  rw [eq, List.length_range']
  omega

end Linked

end TolerantXml.Document
