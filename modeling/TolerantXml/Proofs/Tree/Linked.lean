import TolerantXml.Tree.Document

/-!
# Linked documents

In a linked document every node but the root is listed once as a child of its parent, which was made
before it (`Document.Linked`). The nodes from one node up to the root are then its path, one link
after another (`path_cons`). A change that keeps the links of every node keeps the document linked
and all paths (`Retouched.linked`, `Retouched.path_eq`).
-/

namespace TolerantXml

/-- What a node stands for, without its data. -/
inductive Frame where
  | document
  | element
  | text
  | comment
  | cdata
  | instruction
  | doctype
  | elementDecl
  | attlistDecl
  | entityDecl
  deriving DecidableEq, Repr

/-- The frame of a node. -/
def NodeKind.frame : NodeKind → Frame
  | .document => .document
  | .element _ => .element
  | .text => .text
  | .comment _ => .comment
  | .cdata _ => .cdata
  | .instruction _ => .instruction
  | .doctype _ => .doctype
  | .elementDecl _ => .elementDecl
  | .attlistDecl _ => .attlistDecl
  | .entityDecl _ => .entityDecl

/-- The frame of a node in a document. -/
def Document.frame (doc : Document) (id : Nat) : Frame := (doc.node id).kind.frame

/-- Parents come before their children and list them in order; only the root has no parent. -/
structure Document.Linked (doc : Document) : Prop where
  root_lt : root < doc.count
  root_parent : (doc.node root).parent = none
  root_frame : doc.frame root = .document
  exists_parent : ∀ id < doc.count, id ≠ root →
    ∃ parent < id, (doc.node id).parent = some parent
  mem_children : ∀ id child,
    child ∈ doc.children id ↔ child < doc.count ∧ (doc.node child).parent = some id
  sorted : ∀ id, (doc.children id).Pairwise (· < ·)

namespace Document

variable {doc doc' doc'' : Document} {id other parent child : Nat} {touched touched' : Nat → Prop}

/-- A number that no node has is not changed. -/
theorem modify_of_count_le {change : Node → Node} (h : doc.count ≤ id) :
    doc.modify id change = doc := by
  have outside : doc.nodes.modify id change = doc.nodes := by
    apply Array.ext
    · simp
    · intro i _ inside
      have : id ≠ i := by
        have : i < doc.count := inside
        omega
      simp [Array.getElem_modify, this]
  rw [modify, outside]

/-! ### Links -/

theorem linked_ofText (text uri : Text) (mode : Mode) : (ofText text uri mode).Linked := by
  have outside : ∀ id, id ≠ root → (ofText text uri mode).node id = default := by
    intro id isNode
    apply node_of_count_le
    rw [count_ofText]
    exact Nat.one_le_iff_ne_zero.2 isNode
  have childless : ∀ id, (ofText text uri mode).children id = [] := by
    intro id
    by_cases isRoot : id = root
    · subst isRoot
      rfl
    · rw [children, outside id isRoot]
      rfl
  constructor
  · exact Nat.one_pos
  · rfl
  · rfl
  · intro id lt isNode
    rw [count_ofText] at lt
    exact absurd (Nat.lt_one_iff.1 lt) isNode
  · intro id child
    rw [childless]
    constructor
    · intro mem
      cases mem
    · rintro ⟨lt, hasParent⟩
      rw [count_ofText, Nat.lt_one_iff] at lt
      subst lt
      cases hasParent
  · intro id
    rw [childless]
    exact .nil

namespace Linked

variable (linked : doc.Linked)
include linked

/-- Only a node that exists has a parent, and the parent was made before it. -/
theorem parent_lt (h : (doc.node id).parent = some parent) : parent < id ∧ id < doc.count := by
  have lt : id < doc.count := by
    rcases Nat.lt_or_ge id doc.count with lt | ge
    · exact lt
    · rw [node_of_count_le ge] at h
      cases h
  have notRoot : id ≠ root := by
    rintro rfl
    rw [linked.root_parent] at h
    cases h
  obtain ⟨parent', lt', eq⟩ := linked.exists_parent id lt notRoot
  rw [h, Option.some.injEq] at eq
  exact ⟨eq ▸ lt', lt⟩

theorem lt_of_mem_children (h : child ∈ doc.children id) : id < child ∧ child < doc.count := by
  obtain ⟨lt, hasParent⟩ := (linked.mem_children id child).1 h
  exact ⟨(linked.parent_lt hasParent).1, lt⟩

/-- Children that are one node. -/
theorem children_eq_singleton (only : ∀ other, other ∈ doc.children id ↔ other = child) :
    doc.children id = [child] := by
  have mem : child ∈ doc.children id := (only child).2 rfl
  have sorted := linked.sorted id
  obtain ⟨first, rest, children⟩ := List.exists_cons_of_ne_nil (List.ne_nil_of_mem mem)
  rw [children] at sorted
  have isFirst : first = child := (only first).1 (children ▸ List.mem_cons_self)
  have nothing : rest = [] := by
    rw [List.eq_nil_iff_forall_not_mem]
    intro other inRest
    have less := (List.pairwise_cons.1 sorted).1 other inRest
    have same := (only other).1 (children ▸ List.mem_cons_of_mem first inRest)
    omega
  rw [children, isFirst, nothing]

theorem ne_root_of_frame (h : doc.frame id ≠ .document) : id ≠ root := by
  rintro rfl
  exact h linked.root_frame

/-! ### Paths -/

theorem path_root : doc.path root = [root] := by
  rw [path, ancestors_of_none linked.root_parent]

/-- The path of a node goes on with the path of its parent. -/
theorem path_cons (h : (doc.node id).parent = some parent) :
    doc.path id = id :: doc.path parent := by
  rw [path, path, ancestors_of_parent h (linked.parent_lt h).1]

/-- A path starts at its node and is that of the root, or goes on with the path of the parent. -/
theorem path_cases (lt : id < doc.count) :
    id = root ∧ doc.path id = [root] ∨
      id ≠ root ∧ ∃ parent < id, (doc.node id).parent = some parent ∧
        doc.path id = id :: doc.path parent := by
  by_cases isRoot : id = root
  · subst isRoot
    exact .inl ⟨rfl, linked.path_root⟩
  · obtain ⟨parent, less, eq⟩ := linked.exists_parent id lt isRoot
    exact .inr ⟨isRoot, parent, less, eq, linked.path_cons eq⟩

omit linked in
theorem mem_path_self : id ∈ doc.path id := List.mem_cons_self

omit linked in
/-- A path goes from a node to nodes made before it. -/
theorem le_of_mem_path (h : other ∈ doc.path id) : other ≤ id := by
  rcases List.mem_cons.1 h with rfl | h
  · exact Nat.le_refl _
  · exact Nat.le_of_lt (lt_of_mem_ancestors h)

theorem root_mem_path (lt : id < doc.count) : root ∈ doc.path id := by
  induction id using Nat.strongRecOn with
  | ind id ih =>
    rcases linked.path_cases lt with ⟨-, eq⟩ | ⟨-, parent, less, -, eq⟩
    · rw [eq]
      exact List.mem_singleton.2 rfl
    · rw [eq]
      exact List.mem_cons_of_mem _ (ih parent less (Nat.lt_trans less lt))

/-- A path that goes through a node goes on as the path of that node. -/
theorem path_eq_of_append {before after : List Nat} (lt : id < doc.count)
    (h : doc.path id = before ++ other :: after) : doc.path other = other :: after := by
  induction before generalizing id with
  | nil =>
    have head : id = other := (List.cons.inj h).1
    rwa [head] at h
  | cons first before ih =>
    rcases linked.path_cases lt with ⟨-, eq⟩ | ⟨-, parent, less, -, eq⟩
    · rw [eq] at h
      simp at h
    · rw [eq] at h
      exact ih (Nat.lt_trans less lt) (List.cons.inj h).2

theorem path_suffix (lt : id < doc.count) (h : other ∈ doc.path id) :
    doc.path other <:+ doc.path id := by
  obtain ⟨before, after, eq⟩ := List.append_of_mem h
  rw [eq, linked.path_eq_of_append lt eq]
  exact List.suffix_append _ _

/-- A path goes from a node to smaller and smaller numbers. -/
theorem pairwise_path (lt : id < doc.count) : (doc.path id).Pairwise (· > ·) := by
  induction id using Nat.strongRecOn with
  | ind id ih =>
    rcases linked.path_cases lt with ⟨-, eq⟩ | ⟨-, parent, less, -, eq⟩
    · rw [eq]
      exact List.pairwise_singleton _ _
    · rw [eq]
      refine List.pairwise_cons.2 ⟨?_, ih parent less (Nat.lt_trans less lt)⟩
      exact fun other mem ↦ Nat.lt_of_le_of_lt (le_of_mem_path mem) less

theorem parent_mem_path (lt : id < doc.count) (h : other ∈ doc.path id)
    (hasParent : (doc.node other).parent = some parent) : parent ∈ doc.path id := by
  apply (linked.path_suffix lt h).subset
  rw [linked.path_cons hasParent]
  exact List.mem_cons_of_mem _ mem_path_self

/-- Between a node and one below it stands a child of the first. -/
theorem exists_child_mem_path (lt : other < doc.count)
    (mem : id ∈ doc.path other) (differ : id ≠ other) :
    ∃ child ∈ doc.children id, child ∈ doc.path other := by
  induction other using Nat.strongRecOn with
  | ind other ih =>
    rcases linked.path_cases lt with ⟨isRoot, eq⟩ | ⟨-, parent, less, hasParent, eq⟩
    · rw [eq] at mem
      exact absurd ((List.mem_singleton.1 mem).trans isRoot.symm) differ
    · rw [eq] at mem ⊢
      have mem := (List.mem_cons.1 mem).resolve_left differ
      by_cases isParent : id = parent
      · exact ⟨other, isParent ▸ (linked.mem_children parent other).2 ⟨lt, hasParent⟩,
          List.mem_cons_self⟩
      · obtain ⟨child, isChild, onPath⟩ :=
          ih parent less (Nat.lt_trans less lt) mem isParent
        exact ⟨child, isChild, List.mem_cons_of_mem other onPath⟩

end Linked

/-! ### Changes that keep the links -/

/-- A document after changes of its nodes that keep their links, frames and starts. Only the touched
nodes may end elsewhere. -/
structure Retouched (touched : Nat → Prop) (doc doc' : Document) : Prop where
  text_eq : doc'.text = doc.text
  mode_eq : doc'.mode = doc.mode
  count_eq : doc'.count = doc.count
  parent_eq : ∀ id, (doc'.node id).parent = (doc.node id).parent
  children_eq : ∀ id, doc'.children id = doc.children id
  frame_eq : ∀ id, doc'.frame id = doc.frame id
  start_eq : ∀ id, (doc'.node id).start = (doc.node id).start
  stop_eq : ∀ id, ¬ touched id → (doc'.node id).stop = (doc.node id).stop

theorem Retouched.refl (doc : Document) : Retouched touched doc doc := by
  constructor <;> intros <;> rfl

theorem Retouched.trans (first : Retouched touched doc doc')
    (second : Retouched touched doc' doc'') : Retouched touched doc doc'' where
  text_eq := second.text_eq.trans first.text_eq
  mode_eq := second.mode_eq.trans first.mode_eq
  count_eq := second.count_eq.trans first.count_eq
  parent_eq id := (second.parent_eq id).trans (first.parent_eq id)
  children_eq id := (second.children_eq id).trans (first.children_eq id)
  frame_eq id := (second.frame_eq id).trans (first.frame_eq id)
  start_eq id := (second.start_eq id).trans (first.start_eq id)
  stop_eq id free := (second.stop_eq id free).trans (first.stop_eq id free)

theorem Retouched.mono (h : Retouched touched doc doc') (le : ∀ id, touched id → touched' id) :
    Retouched touched' doc doc' :=
  { h with stop_eq := fun id free ↦ h.stop_eq id fun isTouched ↦ free (le id isTouched) }

/-- A change of one node that keeps its links, frame and start. -/
theorem retouched_modify {change : Node → Node} (doc : Document) (id : Nat)
    (parent : ∀ node, (change node).parent = node.parent)
    (children : ∀ node, (change node).children = node.children)
    (frame : ∀ node, (change node).kind.frame = node.kind.frame)
    (start : ∀ node, (change node).start = node.start)
    (stop : touched id ∨ ∀ node, (change node).stop = node.stop) :
    Retouched touched doc (doc.modify id change) := by
  rcases Nat.lt_or_ge id doc.count with lt | ge
  · constructor
    · rfl
    · rfl
    · exact count_modify _ _ _
    · intro other
      rw [node_modify change lt]
      split
      · next same => rw [same, parent]
      · rfl
    · intro other
      rw [Document.children, node_modify change lt]
      split
      · next same => rw [same, children, Document.children]
      · rfl
    · intro other
      rw [Document.frame, node_modify change lt]
      split
      · next same => rw [same, frame, Document.frame]
      · rfl
    · intro other
      rw [node_modify change lt]
      split
      · next same => rw [same, start]
      · rfl
    · intro other free
      rw [node_modify change lt]
      split
      · next same =>
        subst same
        rcases stop with isTouched | stop
        · exact absurd isTouched free
        · exact stop _
      · rfl
  · rw [modify_of_count_le ge]
    exact .refl doc

private theorem Retouched.ancestors_eq (h : Retouched touched doc doc') (id : Nat) :
    doc'.ancestors id = doc.ancestors id := by
  induction id using Nat.strongRecOn with
  | ind id ih =>
    rw [ancestors, ancestors, h.parent_eq]
    split
    · rfl
    · next parent _ =>
      split
      · next less => rw [ih parent less]
      · rfl

theorem Retouched.path_eq (h : Retouched touched doc doc') (id : Nat) :
    doc'.path id = doc.path id := by
  rw [path, path, h.ancestors_eq]

theorem Retouched.linked (h : Retouched touched doc doc') (linked : doc.Linked) :
    doc'.Linked where
  root_lt := h.count_eq ▸ linked.root_lt
  root_parent := (h.parent_eq root).trans linked.root_parent
  root_frame := (h.frame_eq root).trans linked.root_frame
  exists_parent id lt notRoot := by
    rw [h.parent_eq]
    exact linked.exists_parent id (h.count_eq ▸ lt) notRoot
  mem_children id child := by
    rw [h.children_eq, h.count_eq, h.parent_eq]
    exact linked.mem_children id child
  sorted id := h.children_eq id ▸ linked.sorted id

/-! ### A node more -/

section AddChild

variable {node : Node}

theorem parent_addChild (lt : parent < doc.count) (id : Nat) :
    ((doc.addChild parent node).node id).parent =
      if id = doc.count then some parent else (doc.node id).parent := by
  rw [node_addChild node lt]
  split
  · rfl
  · split
    · next same => rw [same]
    · rfl

theorem children_addChild (lt : parent < doc.count) (leaf : node.children = []) (id : Nat) :
    (doc.addChild parent node).children id =
      if id = parent then doc.children parent ++ [doc.count] else doc.children id := by
  rw [children, node_addChild node lt]
  split
  · next isNew =>
    have : id ≠ parent := by omega
    rw [if_neg this, isNew, children, node_of_count_le (Nat.le_refl _)]
    exact leaf
  · split
    · rfl
    · rfl

theorem frame_addChild (lt : parent < doc.count) (id : Nat) :
    (doc.addChild parent node).frame id =
      if id = doc.count then node.kind.frame else doc.frame id := by
  rw [frame, node_addChild node lt]
  split
  · rfl
  · split
    · next same => rw [same, frame]
    · rfl

/-- The ancestors of a node do not change when another node is added. -/
theorem path_addChild_of_lt (lt : parent < doc.count) (old : id < doc.count) :
    (doc.addChild parent node).path id = doc.path id := by
  have same : (doc.addChild parent node).ancestors id = doc.ancestors id := by
    induction id using Nat.strongRecOn with
    | ind id ih =>
      rw [ancestors, ancestors, parent_addChild lt, if_neg (Nat.ne_of_lt old)]
      split
      · rfl
      · next above hasParent =>
        split
        · next less => rw [ih above less (Nat.lt_trans less old)]
        · rfl
  rw [path, path, same]

theorem path_addChild_count (lt : parent < doc.count) :
    (doc.addChild parent node).path doc.count = doc.count :: doc.path parent := by
  have hasParent : ((doc.addChild parent node).node doc.count).parent = some parent := by
    rw [parent_addChild lt, if_pos rfl]
  have above : (doc.addChild parent node).path parent = doc.path parent :=
    path_addChild_of_lt lt lt
  rw [path, ancestors_of_parent hasParent lt, ← above, path]

theorem linked_addChild (linked : doc.Linked) (lt : parent < doc.count)
    (leaf : node.children = []) : (doc.addChild parent node).Linked where
  root_lt := by
    rw [count_addChild]
    exact Nat.lt_succ_of_lt linked.root_lt
  root_parent := by
    rw [parent_addChild lt, if_neg (Nat.ne_of_lt linked.root_lt), linked.root_parent]
  root_frame := by
    rw [frame_addChild lt, if_neg (Nat.ne_of_lt linked.root_lt), linked.root_frame]
  exists_parent id less notRoot := by
    rw [count_addChild] at less
    rw [parent_addChild lt]
    split
    · next isNew => exact ⟨parent, isNew ▸ lt, rfl⟩
    · next isOld => exact linked.exists_parent id (by omega) notRoot
  mem_children id child := by
    have old := linked.mem_children id child
    rw [children_addChild lt leaf, count_addChild, parent_addChild lt]
    by_cases isNew : child = doc.count
    · subst isNew
      have fresh : ∀ id, doc.count ∉ doc.children id := by
        intro id mem
        exact Nat.lt_irrefl _ (linked.lt_of_mem_children mem).2
      rw [if_pos rfl, Option.some.injEq]
      split
      · next same => simp [same]
      · next differ => simp [fresh, Ne.symm differ]
    · rw [if_neg isNew]
      have bound : child < doc.count + 1 ↔ child < doc.count := by omega
      split
      · next same =>
        rw [bound, ← same, ← old]
        simp [isNew]
      · rw [bound, old]
  sorted id := by
    rw [children_addChild lt leaf]
    split
    · rw [List.pairwise_append]
      refine ⟨linked.sorted parent, List.pairwise_singleton _ _, ?_⟩
      intro child mem last isLast
      rw [List.mem_singleton.1 isLast]
      exact (linked.lt_of_mem_children mem).2
    · exact linked.sorted id

end AddChild

end Document

end TolerantXml
