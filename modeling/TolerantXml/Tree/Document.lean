import TolerantXml.Position
import TolerantXml.Scanner.State
import TolerantXml.Tree.Node

/-!
# Documents

A document is a text with its nodes, of which the first stands for all of the text. Nodes are
only ever added behind those that exist, and a parent comes before its children; links that do
not respect this order are not followed, so every walk through a document ends.
-/

namespace TolerantXml

/-- A text with its nodes. -/
structure Document where
  text : Text
  uri : Text
  mode : Mode
  nodes : Array Node
  deriving Repr

namespace Document

/-- The node that stands for all of the text. -/
def root : Nat := 0

/-- A document that has no node but the root. -/
def ofText (text uri : Text) (mode : Mode) : Document where
  text := text
  uri := uri
  mode := mode
  nodes := #[{ kind := .document, start := 0, stop := text.byteSize }]

/-- The length of the text in bytes. -/
def length (doc : Document) : Nat := doc.text.byteSize

/-- The number of nodes. -/
def count (doc : Document) : Nat := doc.nodes.size

/-- A node; a number that no node has gives an empty one. -/
def node (doc : Document) (id : Nat) : Node := doc.nodes.getD id default

/-- A node, if there is one of this number. -/
def node? (doc : Document) (id : Nat) : Option Node := doc.nodes[id]?

/-- Changes a node. -/
def modify (doc : Document) (id : Nat) (change : Node → Node) : Document :=
  { doc with nodes := doc.nodes.modify id change }

/-- Adds a node as the last child of another. -/
def addChild (doc : Document) (parent : Nat) (node : Node) : Document :=
  let id := doc.count
  let added := { doc with nodes := doc.nodes.push { node with parent := some parent } }
  added.modify parent fun node ↦ { node with children := node.children ++ [id] }

/-- The children of a node in order. -/
def children (doc : Document) (id : Nat) : List Nat := (doc.node id).children

/-- The ancestors of a node, the nearest first. -/
def ancestors (doc : Document) (id : Nat) : List Nat :=
  match (doc.node id).parent with
  | none => []
  | some parent => if _h : parent < id then parent :: doc.ancestors parent else []
termination_by id

/-- A node and its ancestors, the nearest first. -/
def path (doc : Document) (id : Nat) : List Nat := id :: doc.ancestors id

/-- A node and all nodes below it, each before its children. -/
def descendants (doc : Document) (id : Nat) : List Nat :=
  id :: (doc.children id).flatMap fun child ↦
    if _h : id < child ∧ child < doc.count then doc.descendants child else []
termination_by doc.count - id
decreasing_by omega

/-- The text that a span covers. -/
def textOf (doc : Document) (span : Span) : Text := span.text doc.text

/-- The text that a node covers. -/
def nodeText (doc : Document) (id : Nat) : Text := doc.textOf (doc.node id).span

/-- The text between the delimiters of a node. -/
def contentText (doc : Document) (id : Nat) : Option Text :=
  (doc.node id).kind.content.map doc.textOf

/-- The first element that is a child of the root. -/
def documentElement (doc : Document) : Option Nat :=
  (doc.children root).find? fun id ↦ (doc.node id).kind.isElement

/-- The first document type that is a child of the root. -/
def doctype (doc : Document) : Option Nat :=
  (doc.children root).find? fun id ↦ (doc.node id).kind.isDoctype

/-- The prolog, if it is the first child of the root. -/
def prolog (doc : Document) : Option Nat :=
  (doc.children root).head?.filter fun id ↦ (doc.node id).kind.isProlog

/-! ### What a change leaves and what it moves -/

@[simp] theorem count_ofText (text uri : Text) (mode : Mode) : (ofText text uri mode).count = 1 :=
  rfl

@[simp] theorem count_modify (doc : Document) (id : Nat) (change : Node → Node) :
    (doc.modify id change).count = doc.count := by
  simp [count, modify]

@[simp] theorem count_addChild (doc : Document) (parent : Nat) (node : Node) :
    (doc.addChild parent node).count = doc.count + 1 := by
  simp [addChild, count, modify]

theorem node_of_count_le {doc : Document} {id : Nat} (h : doc.count ≤ id) :
    doc.node id = default := by
  rw [node, Array.getD_eq_getD_getElem?, Array.getElem?_eq_none h, Option.getD_none]

/-- A change of one node leaves the others as they are. -/
theorem node_modify {doc : Document} {id : Nat} (change : Node → Node) (h : id < doc.count)
    (other : Nat) :
    (doc.modify id change).node other =
      if other = id then change (doc.node id) else doc.node other := by
  have size : id < doc.nodes.size := h
  simp only [node, modify, Array.getD_eq_getD_getElem?, Array.getElem?_modify]
  by_cases eq : other = id
  · subst eq
    simp [size]
  · simp [eq, Ne.symm eq]

/-- A node that is added comes last, and its parent has one child more. -/
theorem node_addChild {doc : Document} {parent : Nat} (node : Node) (h : parent < doc.count)
    (other : Nat) :
    (doc.addChild parent node).node other =
      if other = doc.count then { node with parent := some parent }
      else if other = parent then
        { doc.node parent with children := (doc.node parent).children ++ [doc.count] }
      else doc.node other := by
  have pushed : ∀ id, ({ doc with
      nodes := doc.nodes.push { node with parent := some parent } } : Document).node id =
      if id = doc.count then { node with parent := some parent } else doc.node id := by
    intro id
    simp only [Document.node, count, Array.getD_eq_getD_getElem?, Array.getElem?_push]
    split <;> simp
  have small : parent < ({ doc with
      nodes := doc.nodes.push { node with parent := some parent } } : Document).count := by
    simp only [count, Array.size_push] at h ⊢
    omega
  simp only [addChild]
  rw [node_modify _ small]
  simp only [pushed]
  grind

/-- The ancestors of a child are its parent and the ancestors of that. -/
theorem ancestors_of_parent {doc : Document} {id parent : Nat}
    (h : (doc.node id).parent = some parent) (lt : parent < id) :
    doc.ancestors id = parent :: doc.ancestors parent := by
  rw [ancestors, h]
  simp [lt]

theorem ancestors_of_none {doc : Document} {id : Nat} (h : (doc.node id).parent = none) :
    doc.ancestors id = [] := by
  rw [ancestors, h]

/-- Every ancestor of a node was made before it. -/
theorem lt_of_mem_ancestors {doc : Document} {id ancestor : Nat}
    (h : ancestor ∈ doc.ancestors id) : ancestor < id := by
  fun_induction ancestors doc id with
  | case1 => simp at h
  | case2 id parent _ lt ih =>
    rcases List.mem_cons.1 h with rfl | h
    · exact lt
    · exact Nat.lt_trans (ih h) lt
  | case3 => simp at h

end Document

end TolerantXml
