import TolerantXml.Proofs.Tree.Spared

/-!
# What a token does to the open nodes

A builder that takes a token first stays or returns to an open node (`Builder.Recedes`), and then
adds at most one node, as a child of the node that is now the current one (`Builder.Grows`). On the
way it marks nodes as closed, but those are not open any more, except for the element that an end
tag matches; and it never changes whether an instruction is the prolog, except at its target. That
is all that any token does (`Builder.takes_apply`).
-/

namespace TolerantXml

/-- Whether a node is the prolog. -/
def Document.isProlog (doc : Document) (id : Nat) : Bool := (doc.node id).kind.isProlog

namespace NodeKind

theorem isProlog_modifyElement (change : Element → Element) (kind : NodeKind) :
    (kind.modifyElement change).isProlog = kind.isProlog := by
  cases kind <;> rfl

theorem isProlog_modifyAttributes (change : List Attribute → List Attribute) (kind : NodeKind) :
    (kind.modifyAttributes change).isProlog = kind.isProlog := by
  cases kind <;> rfl

theorem isProlog_modifyDoctype (change : Doctype → Doctype) (kind : NodeKind) :
    (kind.modifyDoctype change).isProlog = kind.isProlog := by
  cases kind <;> rfl

theorem isProlog_modifyInstruction {change : Instruction → Instruction}
    (same : ∀ i, (change i).isProlog = i.isProlog) (kind : NodeKind) :
    (kind.modifyInstruction change).isProlog = kind.isProlog := by
  cases kind with
  | instruction i => exact same i
  | _ => rfl

/-- A parameter leaves an instruction as it is. -/
theorem isProlog_takeParameter (token : Token) (kind : NodeKind) :
    (kind.takeParameter token).isProlog = kind.isProlog := by
  cases kind with
  | doctype d =>
    rw [takeParameter]
    split
    · rfl
    · rfl
  | _ => rfl

end NodeKind

namespace Builder

variable {b b' c : Builder} {matched named : Nat → Prop} {id : Nat} {token : Token}
  {kind : TokenKind}

/-- What happened to a builder that stays or returns to an open node: no node is closed any less
than before, and of those still open only the matched ones are closed any more. Only a named node
becomes the prolog or another instruction. -/
structure Recedes (matched named : Nat → Prop) (b b' : Builder) : Prop
    extends Returned b b' where
  closed_mono : ∀ id, (b.doc.node id).closed = true → (b'.doc.node id).closed = true
  closed_eq : ∀ id ∈ b'.doc.path b'.current, ¬ matched id →
    (b'.doc.node id).closed = (b.doc.node id).closed
  isProlog_eq : ∀ id, ¬ named id → b'.doc.isProlog id = b.doc.isProlog id

/-- A node that is closed as it is left is not open any more. -/
theorem not_mem_path_closeIf (linked : b.Linked) {p : NodeKind → Bool}
    (holds : p b.currentNode.kind = true) (notRoot : b.current ≠ Document.root) (stop : Nat) :
    b.current ∉ (b.closeIf p stop).doc.path (b.closeIf p stop).current := by
  rw [closeIf, if_pos holds]
  exact not_mem_path_of_left linked ((left_close linked notRoot stop).path_eq linked)

/-- What is written tells whether an instruction is the prolog at its target only. -/
theorem isProlog_rewrite (notTarget : ¬ (token.kind = .prologTarget ∨
    token.kind = .instructionTarget)) (kind : NodeKind) :
    (b.rewrite token kind).isProlog = kind.isProlog := by
  unfold rewrite
  cases isKind : token.kind with
  | prologTarget => exact absurd (.inl isKind) notTarget
  | instructionTarget => exact absurd (.inr isKind) notTarget
  | startTag | emptyTagClose | endTag | endTagClose => exact NodeKind.isProlog_modifyElement _ kind
  | startTagClose => cases kind <;> rfl
  | attributeName | attributeValue => exact NodeKind.isProlog_modifyAttributes _ kind
  | comment | cdata => cases kind <;> rfl
  | instructionData =>
    refine NodeKind.isProlog_modifyInstruction ?_ kind
    exact fun _ ↦ rfl
  | doctypeName | doctypePublic | doctypeSystem | doctypePublicId | doctypeSystemId | subsetOpen
  | subsetClose => exact NodeKind.isProlog_modifyDoctype _ kind
  | elementDeclName | elementDeclCategory | elementDeclContent | attlistElement | attlistName
  | attlistType | attlistDefault | entityPercent | entityName | entityValue | entityPublic
  | entitySystem | entityPublicId | entitySystemId | unrecognized =>
    exact NodeKind.isProlog_takeParameter token kind
  | _ => rfl

/-- What a token of a kind does: the builder recedes, and then it grows. -/
def Takes (kind : TokenKind) (b b' : Builder) : Prop :=
  ∃ c, Recedes (fun id ↦ kind = .endTag ∧ id = b'.current ∧ b'.doc.frame id = .element)
      (fun id ↦ (kind = .prologTarget ∨ kind = .instructionTarget) ∧ id = b'.current) b c ∧
    Grows kind c b'

/-- The parts of an instruction leave the builder where it stands. -/
theorem current_apply_of_instruction (b : Builder)
    (isPart : token.kind = .prologTarget ∨ token.kind = .instructionTarget ∨
      token.kind = .instructionData ∨ token.kind = .whitespace) :
    (b.apply token).current = b.current := by
  have stays : token.kind.stays = true := by
    rcases isPart with kind | kind | kind | kind <;> rw [kind] <;> rfl
  exact (retouched_apply b stays).current_eq

/-- The target of an instruction tells whether the current node is the prolog, and nothing else
does. -/
private theorem isProlog_grown {moved written grown : Builder} (linked : b.Linked)
    (stages : Stages token.kind (b.subject token) (b.rewrite token) (b.added token) b moved written
      grown (b.apply token))
    (unnamed : ¬ ((token.kind = .prologTarget ∨ token.kind = .instructionTarget) ∧
      id = (b.apply token).current)) : grown.doc.isProlog id = b.doc.isProlog id := by
  rw [Document.isProlog, Document.isProlog]
  rcases Nat.lt_or_ge id b.doc.count with lt | ge
  · rw [stages.kind_grown (frame_rewrite b token) linked lt]
    split
    · next isSubject =>
      refine isProlog_rewrite (fun isTarget ↦ unnamed ⟨isTarget, ?_⟩) _
      rw [isSubject, current_apply_of_instruction b (isTarget.imp_right .inl)]
      rcases isTarget with isKind | isKind <;> rw [subject, isKind]
    · rfl
  · rw [Document.node_of_count_le ge, Document.node_of_count_le]
    rwa [(stages.returned (frame_rewrite b token) linked).doc.count_eq]

/-- Whatever a token is, the builder recedes and grows. -/
theorem takes_apply (linked : b.Linked) (token : Token) : Takes token.kind b (b.apply token) := by
  obtain ⟨moved, written, grown, stages⟩ := hasStages_apply linked token
  have returned := stages.returned (frame_rewrite b token) linked
  have grownLinked := stages.grown_linked (frame_rewrite b token) linked
  refine ⟨grown, ⟨returned, ?_, ?_, ?_⟩, stages.grows⟩
  · exact fun _ ↦ stages.closed_mono (frame_rewrite b token) linked
  · intro id mem unmatched
    refine stages.closed_eq (frame_rewrite b token) linked mem fun isMatched ↦ unmatched ?_
    have frame : (b.apply token).doc.frame id = grown.doc.frame id :=
      congrArg NodeKind.frame (stages.grows.node_eq grownLinked (grownLinked.lt_of_mem_path mem)).1
    rwa [frame, returned.doc.frame_eq]
  · exact fun _ ↦ isProlog_grown linked stages

/-! ### What was there before -/

namespace Takes

variable (takes : Takes kind b b') (linked : b.Linked)
include takes linked

omit linked in
theorem count_le : b.doc.count ≤ b'.doc.count := by
  obtain ⟨c, recedes, grows⟩ := takes
  rw [← recedes.doc.count_eq]
  cases grows with
  | nothing doc => rw [doc]
  | text _ _ _ _ doc | child _ _ _ _ doc =>
    rw [doc, Document.count_addChild]
    exact Nat.le_succ _

theorem frame_eq (lt : id < b.doc.count) : b'.doc.frame id = b.doc.frame id := by
  obtain ⟨c, recedes, grows⟩ := takes
  have old := grows.node_eq (recedes.linked linked) (recedes.doc.count_eq ▸ lt)
  rw [← recedes.doc.frame_eq id, Document.frame, old.1, Document.frame]

theorem closed_mono (lt : id < b.doc.count) (closed : (b.doc.node id).closed = true) :
    (b'.doc.node id).closed = true := by
  obtain ⟨c, recedes, grows⟩ := takes
  rw [(grows.node_eq (recedes.linked linked) (recedes.doc.count_eq ▸ lt)).2]
  exact recedes.closed_mono id closed

/-- An open node was open before, or is the one that the token opened. -/
theorem mem_path_cases (mem : id ∈ b'.doc.path b'.current) :
    id ∈ b.doc.path b.current ∨ id = b.doc.count ∧ id = b'.current ∧
      kind.opens = some (b'.doc.frame id) := by
  obtain ⟨c, recedes, grows⟩ := takes
  have clinked := recedes.linked linked
  rcases grows.path_cases clinked with path | ⟨current, path, opens, -⟩
  · rw [path] at mem
    exact .inl (recedes.mem_path linked mem)
  · rw [path] at mem
    rcases List.mem_cons.1 mem with rfl | mem
    · exact .inr ⟨recedes.doc.count_eq, current.symm, opens⟩
    · exact .inl (recedes.mem_path linked mem)

/-- An open node that is closed was closed before, or is the element that an end tag matches. -/
theorem closed_cases (mem : id ∈ b'.doc.path b'.current)
    (closed : (b'.doc.node id).closed = true) :
    id ∈ b.doc.path b.current ∧ (b.doc.node id).closed = true ∨
      kind = .endTag ∧ id = b'.current ∧ b'.doc.frame id = .element := by
  obtain ⟨c, recedes, grows⟩ := takes
  have clinked := recedes.linked linked
  have old : id ∈ c.doc.path c.current → id ∈ b.doc.path b.current ∧
      (b.doc.node id).closed = true ∨
      kind = .endTag ∧ id = b'.current ∧ b'.doc.frame id = .element := by
    intro isOpen
    have lt := clinked.lt_of_mem_path isOpen
    rw [(grows.node_eq clinked lt).2] at closed
    by_cases isMatched : kind = .endTag ∧ id = b'.current ∧ b'.doc.frame id = .element
    · exact .inr isMatched
    · rw [recedes.closed_eq id isOpen isMatched] at closed
      exact .inl ⟨recedes.mem_path linked isOpen, closed⟩
  rcases grows.path_cases clinked with path | ⟨-, path, -, unclosed⟩
  · rw [path] at mem
    exact old mem
  · rw [path] at mem
    rcases List.mem_cons.1 mem with rfl | mem
    · rw [unclosed] at closed
      cases closed
    · exact old mem

theorem isProlog_eq (lt : id < b.doc.count)
    (unnamed : kind ≠ .prologTarget ∧ kind ≠ .instructionTarget ∨ id ≠ b'.current) :
    b'.doc.isProlog id = b.doc.isProlog id := by
  obtain ⟨c, recedes, grows⟩ := takes
  have old := grows.node_eq (recedes.linked linked) (recedes.doc.count_eq ▸ lt)
  rw [Document.isProlog, old.1]
  refine recedes.isProlog_eq id fun ⟨isTarget, isCurrent⟩ ↦ ?_
  rcases unnamed with notTarget | notCurrent
  · exact isTarget.elim notTarget.1 notTarget.2
  · exact notCurrent isCurrent

/-- A node that is not open, or a token that opens nothing, leaves the children of a node. -/
theorem children_eq (unchanged : id ∉ b.doc.path b.current ∨ kind.opens = none) :
    b'.doc.children id = b.doc.children id := by
  obtain ⟨c, recedes, grows⟩ := takes
  have added : ∀ node : Node, node.children = [] → kind.opens ≠ none →
      (c.doc.addChild c.current node).children id = b.doc.children id := by
    intro node isLeaf opens
    rw [Document.children_addChild (recedes.linked linked).current_lt isLeaf, if_neg,
      recedes.doc.children_eq]
    rintro rfl
    exact unchanged.elim (fun notOpen ↦ notOpen recedes.current_mem) opens
  cases grows with
  | nothing doc => rw [doc, recedes.doc.children_eq]
  | text node isLeaf isContent _ doc =>
    rw [doc]
    exact added node isLeaf (by rw [isContent]; exact Option.some_ne_none _)
  | child node isLeaf opens _ doc =>
    rw [doc]
    exact added node isLeaf (by rw [opens]; exact Option.some_ne_none _)

/-- A child was there before, or it is a new node and of the kind that the token opens. It stands
in an open node, which is the current one below it. -/
theorem children_cases {child : Nat} (mem : child ∈ b'.doc.children id) :
    child ∈ b.doc.children id ∨
      child = b.doc.count ∧ id ∈ b.doc.path b.current ∧
        kind.opens = some (b'.doc.frame child) ∧
        ∃ outer, b'.spine = b'.doc.frame child :: b.doc.frame id :: outer ∨
          kind = .content ∧ b'.spine = b.doc.frame id :: outer := by
  obtain ⟨c, recedes, grows⟩ := takes
  have clinked := recedes.linked linked
  have spine : c.spine = c.doc.frame c.current :: (c.doc.ancestors c.current).map c.doc.frame := by
    rw [spine, Document.path, List.map_cons]
  -- What is added comes last among the children of the current node, and last of all nodes.
  have added : ∀ node : Node, node.children = [] → b'.doc = c.doc.addChild c.current node →
      child ∈ b.doc.children id ∨ child = c.doc.count ∧ id = c.current ∧
        b'.doc.frame child = node.kind.frame := by
    intro node isLeaf doc
    rw [doc, Document.children_addChild clinked.current_lt isLeaf] at mem
    split at mem
    · next isCurrent =>
      rw [← isCurrent, recedes.doc.children_eq, List.mem_append, List.mem_singleton] at mem
      refine mem.imp_right fun isNew ↦ ⟨isNew, isCurrent, ?_⟩
      rw [doc, Document.frame_addChild clinked.current_lt, if_pos isNew]
    · rw [recedes.doc.children_eq] at mem
      exact .inl mem
  cases grows with
  | nothing doc =>
    rw [doc, recedes.doc.children_eq] at mem
    exact .inl mem
  | text node isLeaf isContent isText doc current =>
    refine (added node isLeaf doc).imp_right fun isAdded ↦ ?_
    obtain ⟨isNew, isCurrent, frame⟩ := isAdded
    have same : b'.spine = c.spine := by
      rw [← spine_addChild clinked node, Builder.spine, doc, current, Builder.spine]
    rw [spine, ← isCurrent, recedes.doc.frame_eq] at same
    refine ⟨isNew.trans recedes.doc.count_eq, isCurrent ▸ recedes.current_mem, ?_, _,
      .inr ⟨isContent, same⟩⟩
    rw [isContent, frame, isText]
    rfl
  | child node isLeaf opens _ doc current =>
    refine (added node isLeaf doc).imp_right fun isAdded ↦ ?_
    obtain ⟨isNew, isCurrent, frame⟩ := isAdded
    have same : b'.spine = b'.doc.frame child :: c.spine := by
      rw [frame, ← spine_openNode clinked node, Builder.spine, doc, current, Builder.spine]
      rfl
    rw [spine, ← isCurrent, recedes.doc.frame_eq] at same
    exact ⟨isNew.trans recedes.doc.count_eq, isCurrent ▸ recedes.current_mem, frame ▸ opens, _,
      .inl same⟩

/-- A node keeps its parent and its start, and its end unless it is open. -/
theorem place_eq (lt : id < b.doc.count) :
    (b'.doc.node id).parent = (b.doc.node id).parent ∧
      (b'.doc.node id).start = (b.doc.node id).start ∧
      (id ∉ b.doc.path b.current → (b'.doc.node id).stop = (b.doc.node id).stop) := by
  obtain ⟨c, recedes, grows⟩ := takes
  have current_lt := (recedes.linked linked).current_lt
  have isOld : id ≠ c.doc.count := Nat.ne_of_lt (recedes.doc.count_eq ▸ lt)
  have receded : (c.doc.node id).parent = (b.doc.node id).parent ∧
      (c.doc.node id).start = (b.doc.node id).start ∧
      (id ∉ b.doc.path b.current → (c.doc.node id).stop = (b.doc.node id).stop) :=
    ⟨recedes.doc.parent_eq id, recedes.doc.start_eq id,
      fun notOpen ↦ recedes.doc.stop_eq id fun isOpen ↦ notOpen isOpen.1⟩
  cases grows with
  | nothing doc =>
    rw [doc]
    exact receded
  | text _ _ _ _ doc | child _ _ _ _ doc =>
    rw [doc, Document.parent_addChild current_lt, Document.start_addChild current_lt,
      Document.stop_addChild current_lt, if_neg isOld, if_neg isOld, if_neg isOld]
    exact receded

/-- A node that a token adds is the next one and of the kind that the token opens. Its parent was
open, and it is the current node unless it is text. -/
theorem new_cases (le : b.doc.count ≤ id) (lt : id < b'.doc.count) :
    id = b.doc.count ∧ kind.opens = some (b'.doc.frame id) ∧
      (∃ parent ∈ b.doc.path b.current, (b'.doc.node id).parent = some parent) ∧
      (kind = .content ∨ b'.current = id) := by
  obtain ⟨c, recedes, grows⟩ := takes
  have current_lt := (recedes.linked linked).current_lt
  have count := recedes.doc.count_eq
  cases grows with
  | nothing doc =>
    rw [doc] at lt
    omega
  | text node _ isContent isText doc =>
    rw [doc, Document.count_addChild] at lt
    obtain rfl : id = c.doc.count := by omega
    rw [doc, Document.frame_addChild current_lt, Document.parent_addChild current_lt, if_pos rfl,
      if_pos rfl, isContent, isText]
    exact ⟨count, rfl, ⟨c.current, recedes.current_mem, rfl⟩, .inl rfl⟩
  | child node _ opens _ doc current =>
    rw [doc, Document.count_addChild] at lt
    obtain rfl : id = c.doc.count := by omega
    rw [doc, Document.frame_addChild current_lt, Document.parent_addChild current_lt, if_pos rfl,
      if_pos rfl]
    exact ⟨count, opens, ⟨c.current, recedes.current_mem, rfl⟩, .inr current⟩

end Takes

end Builder

end TolerantXml
