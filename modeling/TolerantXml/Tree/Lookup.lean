import TolerantXml.Tree.Document

/-!
# Nodes by offset

The node that a cursor stands in, the node that it stands behind, and the attribute that it
touches.
-/

namespace TolerantXml.Document

/-- The innermost node at an offset that is `id` or below it. -/
def nodeAtFrom (doc : Document) (id offset : Nat) : Nat :=
  match (doc.children id).find? fun child ↦ (doc.node child).span.contains offset with
  | none => id
  | some child =>
    if _h : id < child ∧ child < doc.count then doc.nodeAtFrom child offset else id
termination_by doc.count - id
decreasing_by omega

/-- The innermost node whose span contains an offset; the root if no other node does. -/
def nodeAt (doc : Document) (offset : Nat) : Nat := doc.nodeAtFrom root offset

/-- Whether the last child of a node ends where the node ends. -/
def endsWithLastChild (doc : Document) (id : Nat) : Bool :=
  (doc.children id).getLast?.any fun last ↦ (doc.node last).stop == (doc.node id).stop

/-- The node before an offset that is `id` or below it. -/
def nodeBeforeFrom (doc : Document) (id offset : Nat) : Nat :=
  match ((doc.children id).takeWhile fun child ↦ (doc.node child).start < offset).getLast? with
  | none => id
  | some child =>
    if (doc.node child).stop ≤ offset && !doc.endsWithLastChild child then child
    else if _h : id < child ∧ child < doc.count then doc.nodeBeforeFrom child offset
    else id
termination_by doc.count - id
decreasing_by omega

/-- The node before an offset: the search descends into the last child that starts before the
offset, and stops at one that has ended and whose last child ended earlier. -/
def nodeBefore (doc : Document) (offset : Nat) : Nat := doc.nodeBeforeFrom root offset

/-- The node at an offset, and the first of its attributes that the offset lies in or right
behind. -/
def attributeAt (doc : Document) (offset : Nat) : Option (Nat × Attribute) :=
  let id := doc.nodeAt offset
  ((doc.node id).kind.attributes.find? (·.includes offset)).map fun attr ↦ (id, attr)

end TolerantXml.Document
