import TolerantXml.Proofs.Reading.Nesting
import TolerantXml.Proofs.Tree.Receding

/-!
# What belongs to a node

A stretch of the text belongs to a node when the node covers it and no child of the node reaches
into it (`Builder.Owns`). Once it was read it stays with the node, whatever comes behind it
(`Owns.step`): a token adds nodes where it starts, or where its tag was opened, and the elements
that it leaves end there at the earliest (`beyond_apply`).
-/

namespace TolerantXml

namespace Builder

variable {b b' c : Builder} {place stop id : Nat} {node : Node} {token : Token}

/-- What happens to a builder behind some place of the text: nodes that are added start there at the
earliest, and elements that are left end there at the earliest. -/
structure Beyond (place : Nat) (b b' : Builder) : Prop where
  starts : ∀ id, b.doc.count ≤ id → id < b'.doc.count → place ≤ (b'.doc.node id).start
  stops : ∀ id ∈ b.doc.path b.current, id ∉ b'.doc.path b'.current →
    b.doc.frame id = .element → place ≤ (b'.doc.node id).stop

private theorem Returned.beyond (h : b.Returned b')
    (stops : ∀ id ∈ b.doc.path b.current, id ∉ b'.doc.path b'.current →
      b.doc.frame id = .element → place ≤ (b'.doc.node id).stop) : Beyond place b b' where
  starts _ le lt := absurd lt (Nat.not_lt_of_le (h.doc.count_eq ▸ le))
  stops := stops

private theorem Retouched.beyond (h : b.Retouched b') : Beyond place b b' := by
  refine h.returned.beyond fun id isOpen notOpen _ ↦ ?_
  rw [h.current_eq, h.doc.path_eq] at notOpen
  exact absurd isOpen notOpen

private theorem Left.beyond (h : Left stop b b') (linked : b.Linked) (le : place ≤ stop) :
    Beyond place b b' := by
  refine (h.returned linked).beyond fun id isOpen notOpen _ ↦ ?_
  rw [h.path_eq linked, List.mem_cons] at isOpen
  rcases isOpen with rfl | isOpen
  · rw [h.stop_eq]
    exact le
  · exact absurd isOpen notOpen

private theorem beyond_close (linked : b.Linked) (le : place ≤ stop) :
    Beyond place b (b.close stop) := by
  rcases close_cases linked stop with ⟨-, eq⟩ | left
  · rw [eq]
    exact (Retouched.refl b).beyond
  · exact left.beyond linked le

private theorem beyond_closeIf (linked : b.Linked) (p : NodeKind → Bool) (le : place ≤ stop) :
    Beyond place b (b.closeIf p stop) := by
  unfold closeIf
  split
  · exact beyond_close linked le
  · exact (Retouched.refl b).beyond

/-- What comes behind a return that leaves no element. -/
private theorem Beyond.of_returned (h : Beyond place c b') (returned : b.Returned c)
    (others : ∀ id ∈ b.doc.path b.current, b.doc.frame id = .element →
      id ∈ c.doc.path c.current) : Beyond place b b' where
  starts id le lt := h.starts id (returned.doc.count_eq ▸ le) lt
  stops id isOpen notOpen isElement :=
    h.stops id (others id isOpen isElement) notOpen ((returned.doc.frame_eq id).trans isElement)

private theorem Beyond.of_retouched (h : Beyond place c b') (retouched : b.Retouched c) :
    Beyond place b b' := by
  refine h.of_returned retouched.returned fun id isOpen _ ↦ ?_
  rw [retouched.current_eq, retouched.doc.path_eq]
  exact isOpen

private theorem Beyond.of_leaveDeclaration {offset : Nat}
    (h : Beyond place (b.leaveDeclaration offset) b') (linked : b.Linked) :
    Beyond place b b' := by
  rcases leaveDeclaration_cases linked offset with ⟨-, eq⟩ | ⟨isDecl, left⟩
  · rwa [eq] at h
  · refine h.of_returned (left.returned linked) fun id isOpen isElement ↦ ?_
    rw [left.path_eq linked, List.mem_cons] at isOpen
    rcases isOpen with rfl | isOpen
    · have isDecl : (b.doc.frame b.current).isDeclaration = true := isDecl
      rw [isElement] at isDecl
      cases isDecl
    · exact isOpen

/-- A tag that closes the current element changes it first. -/
private theorem beyond_markAndClose (linked : b.Linked) (change : Element → Element)
    (le : place ≤ stop) :
    Beyond place b ((b.modifyKind (.modifyElement change)).closeTag stop) := by
  have marked := retouched_modifyKind (NodeKind.frame_modifyElement change) b
  rcases closeTag_cases (marked.linked linked) stop with ⟨-, eq⟩ | left
  · rw [eq]
    exact marked.beyond
  · exact (left.beyond (marked.linked linked) le).of_retouched marked

/-- What is left for a document type does not hold content. -/
private theorem Beyond.of_returnToDoctype {offset : Nat} {inner outer : List Frame}
    (h : Beyond place (b.returnToDoctype offset) b') (linked : b.Linked)
    (spine : b.spine = inner ++ .doctype :: outer)
    (stands : ∀ frame ∈ inner, frame.standsInSubset = true) : Beyond place b b' := by
  obtain ⟨before, doctype, after, path, rfl, isDoctype, rfl⟩ := exists_path_of_spine spine
  have others : ∀ id ∈ before, b.doc.frame id ≠ .doctype ∧ b.doc.frame id ≠ .element := by
    intro id mem
    have isIn := stands _ (List.mem_map_of_mem mem)
    constructor <;> intro frame <;> rw [frame] at isIn <;> cases isIn
  have returned := returned_returnToDoctype b offset
  have current : (b.returnToDoctype offset).current = doctype := by
    rw [returnToDoctype_eq path isDoctype fun id mem ↦ (others id mem).1]
  refine h.of_returned returned fun id isOpen isElement ↦ ?_
  rw [current, returned.doc.path_eq, linked.doc.path_eq_of_append linked.current_lt path]
  rw [path, List.mem_append] at isOpen
  exact isOpen.resolve_left fun mem ↦ (others id mem).2 isElement

private theorem beyond_addChild (linked : b.Linked) (le : place ≤ node.start)
    (doc : b'.doc = b.doc.addChild b.current node)
    (path : b.doc.path b.current ⊆ b'.doc.path b'.current) : Beyond place b b' where
  starts id ge lt := by
    rw [doc, Document.count_addChild] at lt
    rw [doc, Document.start_addChild linked.current_lt, if_pos (by omega)]
    exact le
  stops _ isOpen notOpen _ := absurd (path isOpen) notOpen

private theorem beyond_openNode (linked : b.Linked) (le : place ≤ node.start) :
    Beyond place b (b.openNode node) := by
  refine beyond_addChild linked le rfl ?_
  rw [path_openNode linked]
  exact List.subset_cons_self _ _

private theorem beyond_addText (linked : b.Linked) (le : place ≤ token.start) :
    Beyond place b (b.addText token) := by
  unfold addText
  split
  · exact (Retouched.refl b).beyond
  · refine beyond_addChild linked le rfl ?_
    rw [Document.path_addChild_of_lt linked.current_lt linked.current_lt]
    exact List.Subset.refl _

private theorem beyond_openDeclaration {offset : Nat} {inner outer : List Frame} (linked : b.Linked)
    (le : place ≤ offset) (spine : b.spine = inner ++ .doctype :: outer)
    (stands : ∀ frame ∈ inner, frame.standsInSubset = true) (keyword : Text)
    (kind : Parameter → NodeKind) : Beyond place b (b.openDeclaration offset keyword kind) := by
  have linkedReturn := linked.returnToDoctype offset
  rw [openDeclaration]
  split
  · exact (beyond_openNode linkedReturn le).of_returnToDoctype linked spine stands
  · exact (Retouched.refl _).beyond.of_returnToDoctype linked spine stands

/-- The nodes that an end tag passes end where it starts. -/
private theorem beyond_nameEndTag (linked : b.Linked) (le : place ≤ b.endTagOpen.getD token.start) :
    Beyond place b (b.nameEndTag token) := by
  rcases nameEndTag_cases b token with ⟨before, element, after, path, isMatch, -, eq⟩ | ⟨-, eq⟩
  · have inside : ∀ id ∈ before, id < b.doc.count := by
      intro id mem
      apply linked.lt_of_mem_path
      rw [path]
      exact List.mem_append_left _ mem
    have element_lt : element < b.doc.count := by
      apply linked.lt_of_mem_path
      rw [path]
      exact List.mem_append_right _ List.mem_cons_self
    have around := linked.doc.path_eq_of_append linked.current_lt path
    have subset : before ⊆ b.doc.path b.current := path ▸ List.subset_append_left _ _
    have passed := retouched_endAll subset (b.endTagOpen.getD token.start)
    have returned : b.Returned (b.nameEndTag token) := by
      rw [eq]
      exact returned_closeMatch linked path (frame_of_matchesTag isMatch) token.stop
    refine returned.beyond fun id isOpen notOpen _ ↦ ?_
    rw [returned.doc.path_eq] at notOpen
    rw [eq] at notOpen ⊢
    rw [around] at notOpen
    rw [path, List.mem_append] at isOpen
    have differ : id ≠ element := fun same ↦ notOpen (same ▸ List.mem_cons_self)
    have notRoot : id ≠ Document.root := fun isRoot ↦
      notOpen (around ▸ isRoot ▸ linked.doc.root_mem_path element_lt)
    rw [Document.node_modify _ (passed.doc.count_eq ▸ element_lt), if_neg differ,
      stop_endAll b inside, if_pos ⟨isOpen.resolve_right notOpen, notRoot⟩]
    exact le
  · have ended := retouched_endAll (List.Subset.refl (b.doc.path b.current))
      (b.endTagOpen.getD token.start)
    rw [eq]
    exact (beyond_openNode (ended.linked linked) le).of_retouched ended

/-- A token adds and ends nodes where it starts at the earliest, or where its tag was opened. -/
theorem beyond_apply {config next : Scanner.Config} (linked : b.Linked)
    (fits : config.Fits b.spine) (emits : config.Emits token.kind token.text next)
    (before : place ≤ token.start) (le : token.start ≤ token.stop)
    (opened : token.kind = .endTag → place ≤ b.endTagOpen.getD token.start) :
    Beyond place b (b.apply token) := by
  have behind := Nat.le_trans before le
  obtain ⟨kind, span, text⟩ := token
  cases emits with
  | content => exact beyond_addText linked before
  | commentOpen | instructionOpen =>
    exact (beyond_openNode (linked.leaveDeclaration _) before).of_leaveDeclaration linked
  | cdataOpen | doctypeOpen => exact beyond_openNode linked before
  | startTagOpen =>
    have ended := retouched_setCurrentStop b span.start
    exact (beyond_openNode (ended.linked linked) before).of_retouched ended
  | endTag => exact beyond_nameEndTag linked (opened rfl)
  | emptyTagClose | endTagClose =>
    simp only [apply]
    exact beyond_markAndClose linked _ behind
  | commentClose | cdataClose | prologClose | instructionClose | declClose =>
    simp only [apply]
    exact beyond_closeIf linked _ behind
  | doctypeClose h =>
    obtain ⟨outer, spine, -⟩ := fits.inside_doctype h
    have split : b.spine = [] ++ .doctype :: outer := spine
    exact (beyond_closeIf (linked.returnToDoctype _) _ behind).of_returnToDoctype linked split
      (List.forall_mem_nil _)
  | subsetClose h =>
    obtain ⟨inner, outer, spine, stand, -⟩ := fits.exists_doctype h
    exact (retouched_modifyKind (NodeKind.frame_modifyDoctype _) _).beyond.of_returnToDoctype
      linked spine stand
  | elementDeclOpen h | attlistOpen h | entityOpen h =>
    obtain ⟨inner, outer, spine, stand, -⟩ := fits.exists_doctype h
    simp only [apply]
    exact beyond_openDeclaration linked before spine stand _ _
  | doctypePart _ fills | elementPart _ fills | attlistPart _ fills | entityPart _ fills =>
    cases fills <;> exact (retouched_apply b rfl).beyond
  | _ => exact (retouched_apply b rfl).beyond

/-- An element that is opened starts where its tag is opened, and has no children yet. -/
theorem openElement_eq (linked : b.Linked) (span : Span) :
    ((b.openElement span).doc.node (b.openElement span).current).start = span.start ∧
      (b.openElement span).doc.children (b.openElement span).current = [] := by
  have ended := retouched_setCurrentStop b span.start
  have added := Document.node_addChild
    { kind := .element { startTagOpen := some span.start }, start := span.start, stop := span.stop }
    (ended.linked linked).current_lt (b.setCurrentStop span.start).doc.count
  rw [if_pos rfl] at added
  exact ⟨congrArg Node.start added, congrArg Node.children added⟩

/-! ### What belongs to a node -/

/-- Whether a stretch of the text that was read belongs to a node and to none of its children. -/
structure Owns (b : Builder) (id first last : Nat) : Prop where
  start_le : (b.doc.node id).start ≤ first
  le_stop : id ∉ b.doc.path b.current → last ≤ (b.doc.node id).stop
  apart : ∀ child ∈ b.doc.children id,
    child ∉ b.doc.path b.current ∧ (b.doc.node child).stop ≤ first ∨
      last ≤ (b.doc.node child).start

variable {text : Text} {pos first last opening : Nat} {kind : TokenKind}

/-- What comes behind a stretch leaves it to its node. -/
theorem Owns.step (owns : b.Owns id first last) (linked : b.Linked) (linked' : b'.Linked)
    (lt : id < b.doc.count) (isElement : b.doc.frame id = .element) (takes : Takes kind b b')
    (beyond : Beyond last b b') : b'.Owns id first last := by
  obtain ⟨-, start_eq, stop_eq⟩ := takes.place_eq linked lt
  constructor
  · rw [start_eq]
    exact owns.start_le
  · intro notOpen
    by_cases wasOpen : id ∈ b.doc.path b.current
    · exact beyond.stops id wasOpen notOpen isElement
    · rw [stop_eq wasOpen]
      exact owns.le_stop wasOpen
  · intro child mem
    have childLt := (linked'.doc.lt_of_mem_children mem).2
    rcases takes.children_cases linked mem with wasChild | ⟨rfl, -⟩
    · have wasLt := (linked.doc.lt_of_mem_children wasChild).2
      obtain ⟨-, childStart, childStop⟩ := takes.place_eq linked wasLt
      rcases owns.apart child wasChild with ⟨notOpen, le⟩ | le
      · rw [childStop notOpen]
        refine .inl ⟨fun isOpen ↦ ?_, le⟩
        rcases takes.mem_path_cases linked isOpen with wasOpen | ⟨isNew, -⟩
        · exact notOpen wasOpen
        · exact absurd isNew (Nat.ne_of_lt wasLt)
      · exact .inr (childStart ▸ le)
    · exact .inr (beyond.starts _ (Nat.le_refl _) childLt)

/-- What was read behind the children of the current node belongs to it. -/
private theorem Nested.owns_current {mode : Mode} (nested : b.Nested text mode pos)
    (linked : b.Linked) (last : Nat) : b.Owns b.current pos last where
  start_le := nested.start_le linked.current_lt
  le_stop notOpen := absurd Document.Linked.mem_path_self notOpen
  apart child mem := by
    have notOpen := Nested.not_mem_path_of_mem_children linked mem
    exact .inl ⟨notOpen, (nested.ended child (linked.doc.lt_of_mem_children mem).2 notOpen).2⟩

theorem Retouched.owns_current (h : b.Retouched b') (linked : b.Linked)
    (owns : b.Owns b.current first last) : b'.Owns b'.current first last where
  start_le := by
    rw [h.current_eq, h.doc.start_eq]
    exact owns.start_le
  le_stop notOpen := absurd Document.Linked.mem_path_self notOpen
  apart child mem := by
    rw [h.current_eq, h.doc.children_eq] at mem
    have notOpen := Nested.not_mem_path_of_mem_children linked mem
    rw [h.current_eq, h.doc.path_eq, h.doc.start_eq,
      h.doc.stop_eq child fun isOpen ↦ notOpen isOpen.1]
    exact owns.apart child mem

/-- An end tag belongs to the element that it matches or gets. -/
theorem owns_nameEndTag (nested : b.Nested text .xml opening) (linked : b.Linked)
    (atOpening : b.endTagOpen = some opening) (last : Nat) :
    (b.nameEndTag token).Owns (b.nameEndTag token).current opening last := by
  have cases := nameEndTag_cases b token
  simp only [atOpening, Option.getD_some] at cases
  rcases cases with ⟨before, element, after, path, isMatch, -, eq⟩ | ⟨-, eq⟩
  · have left := nested.leaveUnmatched linked path
    have returned := returned_foldl_setStop (fun _ _ ↦ opening) path
    have leftLinked := returned.linked linked
    have changed := retouched_endTagOpen leftLinked
      ((returned.doc.frame_eq element).trans (frame_of_matchesTag isMatch)) opening token.stop
    rw [eq]
    exact changed.owns_current leftLinked (left.owns_current leftLinked last)
  · have ended := retouched_endAll (List.Subset.refl (b.doc.path b.current)) opening
    have lt := (ended.linked linked).current_lt
    have opened : (b.strayElement token).start = opening := by
      rw [strayElement, atOpening, Option.getD_some]
    rw [eq]
    constructor
    · rw [openNode, Document.start_addChild lt, if_pos rfl, opened]
    · exact fun notOpen ↦ absurd Document.Linked.mem_path_self notOpen
    · intro child mem
      have lt := ((ended.linked linked).openNode rfl).doc.lt_of_mem_children mem
      have current : ((b.endAll opening (b.doc.path b.current)).openNode
        (b.strayElement token)).current = (b.endAll opening (b.doc.path b.current)).doc.count := rfl
      rw [openNode, Document.count_addChild, ← openNode] at lt
      omega

end Builder

end TolerantXml
