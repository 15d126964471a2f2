import TolerantXml.Proofs.Tree.Spared

/-!
# The innermost document type

Declarations stand in the document type that was opened last and is still open
(`Builder.InnermostDoctype`). Returning to the document type makes it the current node, and so does
not leave it; whatever closes another node does not either.
-/

namespace TolerantXml.Builder

variable {b b' : Builder} {id stop offset : Nat} {node : Node}

/-- Whether a node is an open document type, and no other one is open below it. -/
structure InnermostDoctype (b : Builder) (id : Nat) : Prop where
  isOpen : id ∈ b.doc.path b.current
  isDoctype : b.doc.frame id = .doctype
  innermost : ∀ other ∈ b.doc.path b.current, b.doc.frame other = .doctype → other ≤ id

/-- A document type that is the current node is the innermost one. -/
theorem innermostDoctype_current (isDoctype : b.doc.frame b.current = .doctype) :
    b.InnermostDoctype b.current where
  isOpen := Document.Linked.mem_path_self
  isDoctype := isDoctype
  innermost _ mem _ := Document.Linked.le_of_mem_path mem

namespace InnermostDoctype

/-- A builder that returns to a node around, but not out of the document type. -/
theorem returned (h : b.InnermostDoctype id) (linked : b.Linked) (returned : b.Returned b')
    (stays : id ∈ b'.doc.path b'.current) : b'.InnermostDoctype id where
  isOpen := stays
  isDoctype := (returned.doc.frame_eq id).trans h.isDoctype
  innermost other mem isDoctype :=
    h.innermost other (returned.mem_path linked mem)
      ((returned.doc.frame_eq other).symm.trans isDoctype)

theorem retouched (h : b.InnermostDoctype id) (linked : b.Linked) (retouched : b.Retouched b') :
    b'.InnermostDoctype id := by
  refine h.returned linked retouched.returned ?_
  rw [retouched.doc.path_eq, retouched.current_eq]
  exact h.isOpen

theorem left (h : b.InnermostDoctype id) (linked : b.Linked) (left : Left stop b b')
    (differ : b.doc.frame b.current ≠ .doctype) : b'.InnermostDoctype id := by
  refine h.returned linked (left.returned linked) ?_
  have isOpen := h.isOpen
  rw [left.path_eq linked, List.mem_cons] at isOpen
  refine isOpen.resolve_left fun isCurrent ↦ differ ?_
  rw [← isCurrent, h.isDoctype]

/-- Closing what is no document type. -/
theorem close (h : b.InnermostDoctype id) (linked : b.Linked)
    (differ : b.doc.frame b.current ≠ .doctype) (stop : Nat) :
    (b.close stop).InnermostDoctype id := by
  rcases close_cases linked stop with ⟨-, eq⟩ | left
  · rwa [eq]
  · exact h.left linked left differ

theorem closeTag (h : b.InnermostDoctype id) (linked : b.Linked)
    (differ : b.doc.frame b.current ≠ .doctype) (stop : Nat) :
    (b.closeTag stop).InnermostDoctype id := by
  rcases closeTag_cases linked stop with ⟨-, eq⟩ | left
  · rwa [eq]
  · exact h.left linked left differ

theorem closeIf (h : b.InnermostDoctype id) (linked : b.Linked) {p : NodeKind → Bool}
    (spares : ∀ kind : NodeKind, p kind = true → kind.frame ≠ .doctype) (stop : Nat) :
    (b.closeIf p stop).InnermostDoctype id := by
  unfold Builder.closeIf
  split
  · next holds => exact h.close linked (spares _ holds) stop
  · exact h

theorem leaveDeclaration (h : b.InnermostDoctype id) (linked : b.Linked) (offset : Nat) :
    (b.leaveDeclaration offset).InnermostDoctype id := by
  rcases leaveDeclaration_cases linked offset with ⟨-, eq⟩ | ⟨isDecl, left⟩
  · rwa [eq]
  · refine h.left linked left fun isDoctype ↦ ?_
    rw [currentNode, ← Document.frame, isDoctype] at isDecl
    cases isDecl

theorem current_returnToDoctype (h : b.InnermostDoctype id) (linked : b.Linked) (offset : Nat) :
    (b.returnToDoctype offset).current = id := by
  obtain ⟨before, after, path⟩ := List.append_of_mem h.isOpen
  have others : ∀ other ∈ before, b.doc.frame other ≠ .doctype := by
    intro other mem isDoctype
    have decreasing := linked.doc.pairwise_path linked.current_lt
    have le := h.innermost other (by rw [path]; exact List.mem_append_left _ mem) isDoctype
    rw [path, List.pairwise_append] at decreasing
    have := decreasing.2.2 other mem id List.mem_cons_self
    omega
  rw [returnToDoctype_eq path h.isDoctype others]

theorem returnToDoctype (h : b.InnermostDoctype id) (linked : b.Linked) (offset : Nat) :
    (b.returnToDoctype offset).InnermostDoctype id := by
  refine h.returned linked (returned_returnToDoctype b offset) ?_
  rw [h.current_returnToDoctype linked]
  exact Document.Linked.mem_path_self

theorem openNode (h : b.InnermostDoctype id) (linked : b.Linked)
    (differ : node.kind.frame ≠ .doctype) : (b.openNode node).InnermostDoctype id := by
  have frame : ∀ other, (b.doc.addChild b.current node).frame other =
      if other = b.doc.count then node.kind.frame else b.doc.frame other :=
    Document.frame_addChild linked.current_lt
  have path := path_openNode linked node
  constructor
  · rw [path]
    exact List.mem_cons_of_mem _ h.isOpen
  · rw [Builder.openNode, frame, if_neg (Nat.ne_of_lt (linked.lt_of_mem_path h.isOpen))]
    exact h.isDoctype
  · intro other mem isDoctype
    rw [Builder.openNode, frame] at isDoctype
    split at isDoctype
    · exact absurd isDoctype differ
    · next isOld =>
      rw [path, List.mem_cons] at mem
      exact h.innermost other (mem.resolve_left isOld) isDoctype

/-- A declaration is opened in the innermost document type. -/
theorem openDeclaration_eq (h : b.InnermostDoctype id) (linked : b.Linked) (start : Nat)
    (keyword : Text) (kind : Parameter → NodeKind) :
    b.openDeclaration start keyword kind =
      (b.returnToDoctype start).openToEnd (kind (.keywordAt b.doc.text start keyword)) start := by
  have returned := returned_returnToDoctype b start
  have isDoctype : (b.returnToDoctype start).currentNode.kind.isDoctype = true := by
    rw [NodeKind.isDoctype_eq, decide_eq_true_eq, currentNode, h.current_returnToDoctype linked]
    exact (returned.doc.frame_eq id).trans h.isDoctype
  simp only [openDeclaration, isDoctype, ↓reduceIte, returned.doc.text_eq]

theorem openDeclaration (h : b.InnermostDoctype id) (linked : b.Linked) (start : Nat)
    (keyword : Text) {kind : Parameter → NodeKind} (differ : ∀ p, (kind p).frame ≠ .doctype) :
    (b.openDeclaration start keyword kind).InnermostDoctype id := by
  rw [h.openDeclaration_eq linked]
  exact (h.returnToDoctype linked start).openNode (linked.returnToDoctype start) (differ _)

end InnermostDoctype

end TolerantXml.Builder
