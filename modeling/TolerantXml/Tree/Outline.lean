import TolerantXml.Tree.Document

/-!
# Outlines

The outline of a document is the tree of its nodes, reduced to what they are and where they
stand. It is written with one line for each node, indented by its depth.
-/

namespace TolerantXml

/-- What a node is called in an outline. -/
def NodeKind.label : NodeKind → String
  | .document => "document"
  | .element _ => "element"
  | .text => "text"
  | .comment _ => "comment"
  | .cdata _ => "cdata"
  | .instruction i => if i.isProlog then "prolog" else "pi"
  | .doctype _ => "doctype"
  | .elementDecl _ => "element-decl"
  | .attlistDecl _ => "attlist-decl"
  | .entityDecl _ => "entity-decl"

/-- What an outline says about one node. -/
structure OutlineEntry where
  label : String
  name : Option Text
  span : Span
  closed : Bool
  deriving DecidableEq, Repr

/-- The tree of the nodes of a document. -/
inductive Outline where
  | node (entry : OutlineEntry) (children : List Outline)

/-- What an outline says about a node. -/
def Node.outlineEntry (node : Node) : OutlineEntry :=
  ⟨node.kind.label, node.kind.name, node.span, node.closed⟩

/-- The outline of a node and everything below it. -/
def Document.outlineFrom (doc : Document) (id : Nat) : Outline :=
  .node (doc.node id).outlineEntry <| (doc.children id).flatMap fun child ↦
    if _h : id < child ∧ child < doc.count then [doc.outlineFrom child] else []
termination_by doc.count - id
decreasing_by omega

/-- The outline of a document. -/
def Document.outline (doc : Document) : Outline := doc.outlineFrom root

namespace OutlineEntry

/-- An entry on a line of its own, without the line break. Below the root, a construct whose end
was not seen is marked. -/
def line (entry : OutlineEntry) (depth : Nat) : Text :=
  List.replicate (2 * depth) ' ' ++ entry.label.toList ++
    (entry.name.map fun name ↦ ' ' :: name).getD [] ++
    " [".toList ++ (toString entry.span.start).toList ++ ", ".toList ++
    (toString entry.span.stop).toList ++ ")".toList ++
    if entry.closed || depth == 0 then [] else " (unclosed)".toList

end OutlineEntry

namespace Outline

mutual

/-- The entries of an outline with their depths, each before those below it. -/
def entriesFrom (depth : Nat) : Outline → List (Nat × OutlineEntry)
  | .node entry children => (depth, entry) :: entriesOfAll (depth + 1) children

/-- The entries of some outlines with their depths. -/
def entriesOfAll (depth : Nat) : List Outline → List (Nat × OutlineEntry)
  | [] => []
  | first :: rest => entriesFrom depth first ++ entriesOfAll depth rest

end

/-- The lines of an outline. -/
def lines (outline : Outline) : List Text :=
  (entriesFrom 0 outline).map fun (depth, entry) ↦ entry.line depth

/-- The written form of an outline. -/
def render (outline : Outline) : Text := outline.lines.flatMap fun line ↦ line ++ ['\n']

end Outline

end TolerantXml
