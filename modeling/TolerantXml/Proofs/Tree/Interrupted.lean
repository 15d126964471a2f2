import TolerantXml.Proofs.Reading.Nesting
import TolerantXml.Proofs.Tree.EndTag
import TolerantXml.Proofs.Tree.Spared

/-!
# Where a token puts the ends of nodes

A node that is added starts where a token starts, and a node that is left ends where a token starts
or stops, but for what stands in a subset of declarations: a comment, an instruction, a declaration
or the end of the subset interrupts it, and it ends one byte before that token
(`Document.InterruptedBy`, `Builder.Ends`). Nothing else ends a node (`Builder.ends_apply`).
-/

namespace TolerantXml

/-- Whether a token ends what is open in a subset of declarations. -/
def TokenKind.interrupts : TokenKind → Bool
  | .commentOpen | .instructionOpen | .elementDeclOpen | .attlistOpen | .entityOpen
  | .subsetClose => true
  | _ => false

/-- A declaration, an instruction or the prolog whose end was not seen before a token that
interrupts it: it ends one byte before that token. -/
structure Document.InterruptedBy (doc : Document) (token : Token) (id : Nat) : Prop where
  interrupts : token.kind.interrupts = true
  standsInSubset : (doc.frame id).standsInSubset = true
  unclosed : (doc.node id).closed = false
  stop_succ : (doc.node id).stop + 1 = token.start

theorem Document.InterruptedBy.of_node_eq {doc doc' : Document} {token : Token} {id : Nat}
    (h : doc.InterruptedBy token id) (same : doc'.node id = doc.node id) :
    doc'.InterruptedBy token id where
  interrupts := h.interrupts
  standsInSubset := by
    rw [frame, same]
    exact h.standsInSubset
  unclosed := same ▸ h.unclosed
  stop_succ := same ▸ h.stop_succ

namespace Builder

variable {b b' c : Builder} {isPlace : Nat → Prop} {token : Token} {node : Node}
  {text : Text} {mode : Mode} {stop pos id : Nat}

/-! ### Interruptions -/

/-- What was open in a subset was left at some place: it ends there, or one byte before. -/
structure Interrupts (pos : Nat) (b c : Builder) : Prop where
  returned : b.Returned c
  standsInSubset : ∀ id ∈ b.doc.path b.current, id ∉ c.doc.path c.current →
    (b.doc.frame id).standsInSubset = true
  closed_eq : ∀ id, (c.doc.node id).closed = (b.doc.node id).closed
  le_stop : ∀ id ∈ b.doc.path b.current, id ∉ c.doc.path c.current →
    pos - 1 ≤ (c.doc.node id).stop
  stop_le : ∀ id ∈ b.doc.path b.current, id ∉ c.doc.path c.current → (c.doc.node id).stop ≤ pos

private theorem interrupts_leaveDeclaration (nested : b.Nested text mode pos) (linked : b.Linked) :
    Interrupts pos b (b.leaveDeclaration pos) := by
  have within := nested.leaveDeclaration linked
  rcases leaveDeclaration_cases linked pos with ⟨-, eq⟩ | ⟨isDecl, left⟩
  · rw [eq]
    exact ⟨(Retouched.refl b).returned, fun _ isOpen notOpen ↦ absurd isOpen notOpen,
      fun _ ↦ rfl, fun _ isOpen notOpen ↦ absurd isOpen notOpen,
      fun _ isOpen notOpen ↦ absurd isOpen notOpen⟩
  · have isLeft : ∀ id ∈ b.doc.path b.current,
        id ∉ (b.leaveDeclaration pos).doc.path (b.leaveDeclaration pos).current →
        id = b.current := by
      intro id isOpen notOpen
      rw [left.path_eq linked, List.mem_cons] at isOpen
      exact isOpen.resolve_right notOpen
    constructor
    · exact left.returned linked
    · intro id isOpen notOpen
      rw [isLeft id isOpen notOpen]
      exact Frame.standsInSubset_of_isDeclaration isDecl
    · intro id
      unfold leaveDeclaration
      split
      · split
        · exact (kind_setStop b _ b.current id).2
        · rfl
      · rfl
    · intro id isOpen notOpen
      rw [isLeft id isOpen notOpen, left.stop_eq]
      exact Nat.le_max_left _ _
    · intro id isOpen notOpen
      refine (within.ended id ?_ notOpen).2
      rw [left.doc.count_eq]
      exact linked.lt_of_mem_path isOpen

/-- Nodes that are ended before an offset end one byte before it at the earliest. -/
private theorem le_stop_foldl_endBefore (offset : Nat) {ids : List Nat} {b : Builder}
    (inside : ∀ id ∈ ids, id < b.doc.count) (notRoot : id ≠ Document.root)
    (h : id ∈ ids ∨ offset - 1 ≤ (b.doc.node id).stop) :
    offset - 1 ≤ ((ids.foldl (endBefore offset) b).doc.node id).stop := by
  induction ids generalizing b with
  | nil => exact h.resolve_left List.not_mem_nil
  | cons first ids ih =>
    have ended : ((endBefore offset b first).doc.node id).stop =
        if id = first ∧ id ≠ Document.root then
          max (max (offset - 1) (b.doc.node first).start) (b.lastStop first)
        else (b.doc.node id).stop := by
      rw [endBefore, node_setStop b (inside first List.mem_cons_self), apply_ite Node.stop]
      rfl
    rw [List.foldl_cons]
    refine ih (fun id mem ↦ ?_) ?_
    · rw [endBefore, count_setStop]
      exact inside id (List.mem_cons_of_mem _ mem)
    · by_cases isFirst : id = first
      · rw [if_pos ⟨isFirst, notRoot⟩] at ended
        right
        rw [ended]
        exact Nat.le_trans (Nat.le_max_left _ _) (Nat.le_max_left _ _)
      · rw [if_neg fun both ↦ isFirst both.1] at ended
        refine h.imp (fun mem ↦ (List.mem_cons.1 mem).resolve_left isFirst) fun le ↦ ?_
        rwa [ended]

private theorem closed_foldl_endBefore (offset : Nat) (ids : List Nat) (b : Builder) (id : Nat) :
    ((ids.foldl (endBefore offset) b).doc.node id).closed = (b.doc.node id).closed := by
  induction ids generalizing b with
  | nil => rfl
  | cons first ids ih =>
    rw [List.foldl_cons, ih]
    exact (kind_setStop b _ first id).2

private theorem interrupts_returnToDoctype (nested : b.Nested text mode pos) (linked : b.Linked)
    {inner outer : List Frame} (spine : b.spine = inner ++ .doctype :: outer)
    (stands : ∀ frame ∈ inner, frame.standsInSubset = true) :
    Interrupts pos b (b.returnToDoctype pos) := by
  have within := nested.returnToDoctype linked spine stands
  have returned := returned_returnToDoctype b pos
  obtain ⟨before, doctype, after, path, rfl, isDoctype, rfl⟩ := exists_path_of_spine spine
  have eq : b.returnToDoctype pos =
      { before.foldl (endBefore pos) b with current := doctype } := by
    apply returnToDoctype_eq path isDoctype
    intro id mem frame
    have isIn := stands _ (List.mem_map_of_mem mem)
    rw [frame] at isIn
    cases isIn
  have current : (b.returnToDoctype pos).current = doctype := by rw [eq]
  have isLeft : ∀ id ∈ b.doc.path b.current,
      id ∉ (b.returnToDoctype pos).doc.path (b.returnToDoctype pos).current → id ∈ before := by
    intro id isOpen notOpen
    rw [returned.doc.path_eq, current, linked.doc.path_eq_of_append linked.current_lt path]
      at notOpen
    rw [path, List.mem_append] at isOpen
    exact isOpen.resolve_right notOpen
  constructor
  · exact returned
  · intro id isOpen notOpen
    exact stands _ (List.mem_map_of_mem (isLeft id isOpen notOpen))
  · intro id
    rw [eq]
    exact closed_foldl_endBefore pos before b id
  · intro id isOpen notOpen
    have isBefore := isLeft id isOpen notOpen
    have notRoot : id ≠ Document.root := by
      apply linked.doc.ne_root_of_frame
      intro isDocument
      have isIn := stands _ (List.mem_map_of_mem isBefore)
      rw [isDocument] at isIn
      cases isIn
    rw [eq]
    refine le_stop_foldl_endBefore pos (fun id mem ↦ ?_) notRoot (.inl isBefore)
    apply linked.lt_of_mem_path
    rw [path]
    exact List.mem_append_left _ mem
  · intro id isOpen notOpen
    refine (within.ended id ?_ notOpen).2
    rw [returned.doc.count_eq]
    exact linked.lt_of_mem_path isOpen

/-! ### Places -/

/-- What a token does to the bounds of nodes: new nodes start at places of some kind, and nodes that
are left end at such places or are interrupted. -/
structure Ends (isPlace : Nat → Prop) (token : Token) (b b' : Builder) : Prop where
  starts : ∀ id, b.doc.count ≤ id → id < b'.doc.count → isPlace (b'.doc.node id).start
  added : ∀ id, b.doc.count ≤ id → id < b'.doc.count → id ∉ b'.doc.path b'.current →
    isPlace (b'.doc.node id).stop
  left : ∀ id ∈ b.doc.path b.current, id ∉ b'.doc.path b'.current →
    isPlace (b'.doc.node id).stop ∨ b'.doc.InterruptedBy token id

private theorem Returned.ends (h : b.Returned b')
    (left : ∀ id ∈ b.doc.path b.current, id ∉ b'.doc.path b'.current →
      isPlace (b'.doc.node id).stop) : Ends isPlace token b b' where
  starts _ le lt := absurd lt (Nat.not_lt_of_le (h.doc.count_eq ▸ le))
  added _ le lt := absurd lt (Nat.not_lt_of_le (h.doc.count_eq ▸ le))
  left id isOpen notOpen := .inl (left id isOpen notOpen)

private theorem Retouched.ends (h : b.Retouched b') : Ends isPlace token b b' := by
  refine h.returned.ends fun id isOpen notOpen ↦ ?_
  rw [h.current_eq, h.doc.path_eq] at notOpen
  exact absurd isOpen notOpen

private theorem Left.ends (h : Left stop b b') (linked : b.Linked) (place : isPlace stop) :
    Ends isPlace token b b' := by
  refine (h.returned linked).ends fun id isOpen notOpen ↦ ?_
  rw [h.path_eq linked, List.mem_cons] at isOpen
  rw [isOpen.resolve_right notOpen, h.stop_eq]
  exact place

private theorem ends_close (linked : b.Linked) (place : isPlace stop) :
    Ends isPlace token b (b.close stop) := by
  rcases close_cases linked stop with ⟨-, eq⟩ | left
  · rw [eq]
    exact (Retouched.refl b).ends
  · exact left.ends linked place

private theorem ends_closeIf (linked : b.Linked) (p : NodeKind → Bool) (place : isPlace stop) :
    Ends isPlace token b (b.closeIf p stop) := by
  unfold closeIf
  split
  · exact ends_close linked place
  · exact (Retouched.refl b).ends

/-- Open nodes may change before. -/
private theorem Ends.of_retouched (h : Ends isPlace token c b') (retouched : b.Retouched c) :
    Ends isPlace token b b' where
  starts id le lt := h.starts id (retouched.doc.count_eq ▸ le) lt
  added id le lt := h.added id (retouched.doc.count_eq ▸ le) lt
  left id isOpen notOpen := by
    refine h.left id ?_ notOpen
    rw [retouched.current_eq, retouched.doc.path_eq]
    exact isOpen

/-- A tag that closes the current element changes it first. -/
private theorem ends_markAndClose (linked : b.Linked) (change : Element → Element)
    (place : isPlace stop) :
    Ends isPlace token b ((b.modifyKind (.modifyElement change)).closeTag stop) := by
  have marked := retouched_modifyKind (NodeKind.frame_modifyElement change) b
  rcases closeTag_cases (marked.linked linked) stop with ⟨-, eq⟩ | left
  · rw [eq]
    exact marked.ends
  · exact (left.ends (marked.linked linked) place).of_retouched marked

/-- What a token leaves by an interruption stays as it is then. -/
private theorem Ends.of_interrupts (h : Ends isPlace token c b') (keeps : Keeps c b')
    (interrupts : Interrupts token.start b c) (linked : b.Linked)
    (kind : token.kind.interrupts = true) (place : isPlace token.start)
    (unclosed : ∀ id ∈ b.doc.path b.current, (b.doc.frame id).standsInSubset = true →
      (b.doc.node id).closed = false) : Ends isPlace token b b' where
  starts id le lt := h.starts id (interrupts.returned.doc.count_eq ▸ le) lt
  added id le lt := h.added id (interrupts.returned.doc.count_eq ▸ le) lt
  left id isOpen notOpen := by
    by_cases stillOpen : id ∈ c.doc.path c.current
    · exact h.left id stillOpen notOpen
    · have stands := interrupts.standsInSubset id isOpen stillOpen
      have le_stop := interrupts.le_stop id isOpen stillOpen
      have stop_le := interrupts.stop_le id isOpen stillOpen
      have same := keeps.node_eq id
        (interrupts.returned.doc.count_eq ▸ linked.lt_of_mem_path isOpen) stillOpen
      by_cases atToken : (c.doc.node id).stop = token.start
      · rw [same, atToken]
        exact .inl place
      · refine .inr (Document.InterruptedBy.of_node_eq ⟨kind, ?_, ?_, by omega⟩ same)
        · rw [interrupts.returned.doc.frame_eq]
          exact stands
        · rw [interrupts.closed_eq]
          exact unclosed id isOpen stands

private theorem ends_addChild (linked : b.Linked) (start : isPlace node.start)
    (doc : b'.doc = b.doc.addChild b.current node)
    (path : b.doc.path b.current ⊆ b'.doc.path b'.current)
    (stop : b.doc.count ∉ b'.doc.path b'.current → isPlace node.stop) :
    Ends isPlace token b b' where
  starts id ge lt := by
    rw [doc, Document.count_addChild] at lt
    rw [doc, Document.start_addChild linked.current_lt, if_pos (by omega)]
    exact start
  added id ge lt notOpen := by
    rw [doc, Document.count_addChild] at lt
    obtain rfl : id = b.doc.count := by omega
    rw [doc, Document.stop_addChild linked.current_lt, if_pos rfl]
    exact stop notOpen
  left _ isOpen notOpen := absurd (path isOpen) notOpen

private theorem ends_openNode (linked : b.Linked) (start : isPlace node.start) :
    Ends isPlace token b (b.openNode node) := by
  have path := path_openNode linked node
  refine ends_addChild linked start rfl ?_ fun notOpen ↦ ?_
  · rw [path]
    exact List.subset_cons_self _ _
  · rw [path] at notOpen
    exact absurd List.mem_cons_self notOpen

private theorem ends_addText (linked : b.Linked) (start : isPlace token.start)
    (stop : isPlace token.stop) : Ends isPlace token b (b.addText token) := by
  unfold addText
  split
  · exact (Retouched.refl b).ends
  · refine ends_addChild linked start rfl ?_ fun _ ↦ stop
    rw [Document.path_addChild_of_lt linked.current_lt linked.current_lt]
    exact List.Subset.refl _

/-- The nodes that an end tag passes end where it was opened, and its own element starts there. -/
private theorem ends_nameEndTag (linked : b.Linked)
    (place : isPlace (b.endTagOpen.getD token.start)) :
    Ends isPlace token b (b.nameEndTag token) := by
  cases isFound : (b.doc.path b.current).find? (b.matchesTag token.text) with
  | some element =>
    obtain ⟨isMatch, below, around, path, others⟩ := List.find?_eq_some_iff_append.1 isFound
    have closes := closesElement_nameEndTag linked path isMatch fun id mem ↦ by
      simpa using others id mem
    have returned : b.Returned (b.nameEndTag token) := by
      rw [nameEndTag_of_match path isMatch fun id mem ↦ by simpa using others id mem]
      exact returned_closeMatch linked path (frame_of_matchesTag isMatch) token.stop
    refine returned.ends fun id isOpen notOpen ↦ ?_
    rw [returned.doc.path_eq, congrArg Builder.current closes.builder_eq,
      linked.doc.path_eq_of_append linked.current_lt path] at notOpen
    rw [path, List.mem_append] at isOpen
    rw [closes.below_eq id (isOpen.resolve_right notOpen)]
    exact place
  | none =>
    have others : ∀ id ∈ b.doc.path b.current, b.matchesTag token.text id = false := by
      intro id mem
      simpa using List.find?_eq_none.1 isFound id mem
    have ended := retouched_endAll (List.Subset.refl (b.doc.path b.current))
      (b.endTagOpen.getD token.start)
    rw [nameEndTag_of_no_match others]
    exact (ends_openNode (ended.linked linked) place).of_retouched ended

/-! ### Any token -/

section Apply

variable {config next : Scanner.Config}

private theorem ends_openDeclaration {inner outer : List Frame}
    (nested : b.Nested text mode token.start)
    (linked : b.Linked) (spine : b.spine = inner ++ .doctype :: outer)
    (stands : ∀ frame ∈ inner, frame.standsInSubset = true)
    (kind : token.kind.interrupts = true) (place : isPlace token.start)
    (unclosed : ∀ id ∈ b.doc.path b.current, (b.doc.frame id).standsInSubset = true →
      (b.doc.node id).closed = false) (keyword : Text) (declares : Parameter → NodeKind) :
    Ends isPlace token b (b.openDeclaration token.start keyword declares) := by
  have interrupts := interrupts_returnToDoctype nested linked spine stands
  have linkedReturn := linked.returnToDoctype token.start
  rw [openDeclaration]
  split
  · exact (ends_openNode linkedReturn place).of_interrupts (keeps_openNode linkedReturn _)
      interrupts linked kind place unclosed
  · exact (Retouched.refl _).ends.of_interrupts (.refl _) interrupts linked kind place unclosed

/-- A token adds nodes where it starts, or where its tag was opened, and leaves nodes where it
starts or stops, or where its tag was opened, unless it interrupts them. -/
theorem ends_apply (nested : b.Nested text mode token.start) (linked : b.Linked)
    (fits : config.Fits b.spine) (emits : config.Emits token.kind token.text next)
    (start : isPlace token.start) (stop : isPlace token.stop)
    (opening : token.kind = .endTag → ∀ place, b.endTagOpen = some place → isPlace place)
    (unclosed : ∀ id ∈ b.doc.path b.current, (b.doc.frame id).standsInSubset = true →
      (b.doc.node id).closed = false) : Ends isPlace token b (b.apply token) := by
  obtain ⟨kind, span, taken⟩ := token
  cases emits with
  | content => exact ends_addText linked start stop
  | commentOpen | instructionOpen =>
    have left := linked.leaveDeclaration span.start
    exact (ends_openNode left start).of_interrupts (keeps_openNode left _)
      (interrupts_leaveDeclaration nested linked) linked rfl start unclosed
  | cdataOpen | doctypeOpen => exact ends_openNode linked start
  | startTagOpen =>
    have ended := retouched_setCurrentStop b span.start
    exact (ends_openNode (ended.linked linked) start).of_retouched ended
  | endTag =>
    refine ends_nameEndTag linked ?_
    cases opened : b.endTagOpen with
    | none => exact start
    | some place => exact opening rfl place opened
  | emptyTagClose | endTagClose =>
    simp only [apply]
    exact ends_markAndClose linked _ stop
  | commentClose | cdataClose | prologClose | instructionClose | declClose =>
    simp only [apply]
    exact ends_closeIf linked _ stop
  | doctypeClose h =>
    -- The document type is the current node, so the return to it leaves nothing.
    obtain ⟨outer, spine, -⟩ := fits.inside_doctype h
    have isDoctype : b.doc.frame b.current = .doctype := head_spine spine
    have path : b.doc.path b.current = [] ++ b.current :: b.doc.ancestors b.current := rfl
    have eq := returnToDoctype_eq path isDoctype (List.forall_mem_nil _) span.start
    rw [List.foldl_nil] at eq
    simp only [apply, closeDoctype, eq]
    exact ends_closeIf linked _ stop
  | subsetClose h =>
    obtain ⟨inner, outer, spine, stand, -⟩ := fits.exists_doctype h
    have returned := linked.returnToDoctype span.start
    have closed := retouched_modifyKind
      (NodeKind.frame_modifyDoctype fun d ↦ { d with subsetStop := some span.start })
      (b.returnToDoctype span.start)
    exact closed.ends.of_interrupts (keeps_modifyKind returned closed)
      (interrupts_returnToDoctype nested linked spine stand) linked rfl start unclosed
  | elementDeclOpen h | attlistOpen h | entityOpen h =>
    obtain ⟨inner, outer, spine, stand, -⟩ := fits.exists_doctype h
    simp only [apply]
    exact ends_openDeclaration nested linked spine stand rfl start unclosed _ _
  | doctypePart _ fills | elementPart _ fills | attlistPart _ fills | entityPart _ fills =>
    cases fills <;> exact (retouched_apply b rfl).ends
  | _ => exact (retouched_apply b rfl).ends

end Apply

end Builder

end TolerantXml
