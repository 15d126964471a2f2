import Mathlib.Data.List.TakeWhile
import TolerantXml.Proofs.Tree.Spine
import TolerantXml.Tree.Parse

/-!
# The moves of a builder

What each operation of a builder does to the spine: most change open nodes only (`retouched_…`), an
end tag returns to the element it closes or opens one of its own (`nameEndTag_cases`), and whatever
stands in a document type returns to it (`spine_returnToDoctype`).
-/

namespace TolerantXml

/-- What stands before the first element that satisfies a predicate. -/
private theorem takeWhile_not_eq {α : Type} {p : α → Bool} {before after : List α} {x : α}
    (found : p x = true) (others : ∀ y ∈ before, p y = false) :
    (before ++ x :: after).takeWhile (fun y ↦ !p y) = before := by
  rw [List.takeWhile_append_of_pos, List.takeWhile_cons_of_neg, List.append_nil]
  · simp [found]
  · intro y mem
    simp [others y mem]

namespace NodeKind

theorem frame_modifyElement (change : Element → Element) (kind : NodeKind) :
    (kind.modifyElement change).frame = kind.frame := by
  cases kind <;> rfl

theorem frame_modifyInstruction (change : Instruction → Instruction) (kind : NodeKind) :
    (kind.modifyInstruction change).frame = kind.frame := by
  cases kind <;> rfl

theorem frame_modifyDoctype (change : Doctype → Doctype) (kind : NodeKind) :
    (kind.modifyDoctype change).frame = kind.frame := by
  cases kind <;> rfl

theorem frame_modifyAttributes (change : List Attribute → List Attribute) (kind : NodeKind) :
    (kind.modifyAttributes change).frame = kind.frame := by
  cases kind <;> rfl

end NodeKind

/-- Whether a token of a kind leaves the current node where it is, and adds no other. -/
def TokenKind.stays : TokenKind → Bool
  | .startTag | .startTagClose | .endTagOpen | .attributeName | .attributeValue | .comment | .cdata
  | .prologTarget | .instructionTarget | .instructionData | .doctypeName | .doctypePublic
  | .doctypeSystem | .doctypePublicId | .doctypeSystemId | .subsetOpen | .elementDeclName
  | .elementDeclCategory | .elementDeclContent | .attlistElement | .attlistName | .attlistType
  | .attlistDefault | .entityPercent | .entityName | .entityValue | .entityPublic | .entitySystem
  | .entityPublicId | .entitySystemId | .unrecognized | .assign | .whitespace | .unknown | .eos =>
    true
  | _ => false

namespace Builder

variable {b : Builder} {token : Token} {span : Span} {id offset stop : Nat}
  {frame : Frame} {inner outer : List Frame}

/-! ### Operations on open nodes -/

theorem retouched_nameElement (b : Builder) (token : Token) :
    b.Retouched (b.nameElement token) := by
  unfold nameElement
  split
  · exact (retouched_modifyKind (NodeKind.frame_modifyElement _) b).trans
      (retouched_setCurrentStop _ _)
  · exact .refl b

theorem retouched_endStartTag (b : Builder) (span : Span) : b.Retouched (b.endStartTag span) := by
  refine (retouched_modifyKind (fun kind ↦ ?_) b).trans (retouched_setCurrentStop _ _)
  rw [NodeKind.frame_modifyInstruction, NodeKind.frame_modifyElement]

theorem retouched_openEndTag (b : Builder) (span : Span) : b.Retouched (b.openEndTag span) := by
  have recorded : b.Retouched { b with endTagOpen := some span.start } := ⟨.refl _, rfl⟩
  exact recorded.trans (retouched_setCurrentStop _ _)

theorem endTagOpen_openEndTag (b : Builder) (span : Span) :
    (b.openEndTag span).endTagOpen = some span.start :=
  congrArg Memory.endTagOpen (memory_setCurrentStop _ _)

theorem retouched_nameAttribute (b : Builder) (token : Token) :
    b.Retouched (b.nameAttribute token) := by
  refine Retouched.trans ?_ (retouched_setCurrentStop _ _)
  split
  · exact .refl b
  · have named := retouched_modifyKind
      (NodeKind.frame_modifyAttributes (Attribute.put · (.named token.text token.span))) b
    exact ⟨named.doc, named.current_eq⟩

theorem retouched_setAttributeValue (b : Builder) (token : Token) :
    b.Retouched (b.setAttributeValue token) := by
  refine Retouched.trans ?_ (retouched_setCurrentStop _ _)
  split
  · exact .refl b
  · next owner index _ =>
    have valued := retouched_modifyAt (NodeKind.frame_modifyAttributes fun attributes ↦
      attributes.modify index (·.withValue token.text token.span)) b owner
    exact ⟨valued.doc, valued.current_eq⟩

theorem retouched_setComment (b : Builder) (span : Span) : b.Retouched (b.setComment span) :=
  retouched_modifyKind (fun kind ↦ by cases kind <;> rfl) b

theorem retouched_setCdata (b : Builder) (span : Span) : b.Retouched (b.setCdata span) := by
  unfold setCdata
  split
  · exact (retouched_modifyKind (fun kind ↦ by cases kind <;> rfl) b).trans
      (retouched_setCurrentStop _ _)
  · exact .refl b

theorem retouched_setTarget (b : Builder) (token : Token) (isProlog : Bool) :
    b.Retouched (b.setTarget token isProlog) :=
  retouched_modifyKind (NodeKind.frame_modifyInstruction _) b

theorem retouched_setInstructionData (b : Builder) (span : Span) :
    b.Retouched (b.setInstructionData span) :=
  retouched_modifyKind (NodeKind.frame_modifyInstruction _) b

theorem retouched_openSubset (b : Builder) (start : Nat) : b.Retouched (b.openSubset start) :=
  retouched_modifyKind (NodeKind.frame_modifyDoctype _) b

theorem retouched_addDoctypeParameter (b : Builder) (token : Token)
    (set : Parameter → Doctype → Doctype) : b.Retouched (b.addDoctypeParameter token set) :=
  retouched_modifyKind (NodeKind.frame_modifyDoctype _) b

theorem retouched_addParameter (b : Builder) (token : Token) :
    b.Retouched (b.addParameter token) := by
  refine retouched_modifyKind (fun kind ↦ ?_) b
  cases kind with
  | doctype =>
    simp only
    split
    · rfl
    · rfl
  | _ => rfl

/-- A token that stays in the current node changes open nodes only. -/
theorem retouched_apply (b : Builder) (stays : token.kind.stays = true) :
    b.Retouched (b.apply token) := by
  cases kind : token.kind with
  | startTag =>
    simp only [apply, kind]
    exact retouched_nameElement b token
  | startTagClose =>
    simp only [apply, kind]
    exact retouched_endStartTag b token.span
  | endTagOpen =>
    simp only [apply, kind]
    exact retouched_openEndTag b token.span
  | attributeName =>
    simp only [apply, kind]
    exact retouched_nameAttribute b token
  | attributeValue =>
    simp only [apply, kind]
    exact retouched_setAttributeValue b token
  | comment =>
    simp only [apply, kind]
    exact retouched_setComment b token.span
  | cdata =>
    simp only [apply, kind]
    exact retouched_setCdata b token.span
  | prologTarget | instructionTarget =>
    simp only [apply, kind]
    exact retouched_setTarget b token _
  | instructionData =>
    simp only [apply, kind]
    exact retouched_setInstructionData b token.span
  | doctypeName | doctypePublic | doctypeSystem | doctypePublicId | doctypeSystemId =>
    simp only [apply, kind]
    exact retouched_addDoctypeParameter b token _
  | subsetOpen =>
    simp only [apply, kind]
    exact retouched_openSubset b token.start
  | elementDeclName | elementDeclCategory | elementDeclContent | attlistElement | attlistName
  | attlistType | attlistDefault | entityPercent | entityName | entityValue | entityPublic
  | entitySystem | entityPublicId | entitySystemId | unrecognized =>
    simp only [apply, kind]
    exact retouched_addParameter b token
  | assign | whitespace | unknown | eos =>
    simp only [apply, kind]
    exact .refl b
  | _ =>
    rw [kind] at stays
    cases stays

/-! ### The document type around the current node -/

/-- A split of the spine is a split of the path. -/
theorem exists_path_of_spine (h : b.spine = inner ++ frame :: outer) :
    ∃ before id after, b.doc.path b.current = before ++ id :: after ∧
      before.map b.doc.frame = inner ∧ b.doc.frame id = frame ∧ after.map b.doc.frame = outer := by
  obtain ⟨before, others, path, front, back⟩ := List.map_eq_append_iff.1 h
  obtain ⟨id, after, rfl, same, last⟩ := List.map_eq_cons_iff.1 back
  exact ⟨before, id, after, path, front, same, last⟩

/-- Where a document type is open, the nodes in it end one after another. -/
theorem returnToDoctype_eq {before after : List Nat} {doctype : Nat}
    (path : b.doc.path b.current = before ++ doctype :: after)
    (isDoctype : b.doc.frame doctype = .doctype)
    (others : ∀ id ∈ before, b.doc.frame id ≠ .doctype) (offset : Nat) :
    b.returnToDoctype offset =
      { before.foldl (endBefore offset) b with current := doctype } := by
  have found : (b.doc.node doctype).kind.isDoctype = true := by
    rw [NodeKind.isDoctype_eq, decide_eq_true_eq]
    exact isDoctype
  have others : ∀ id ∈ before, (b.doc.node id).kind.isDoctype = false := by
    intro id mem
    rw [NodeKind.isDoctype_eq, decide_eq_false_iff_not]
    exact others id mem
  have isFound : (b.doc.path b.current).find? (fun id ↦ (b.doc.node id).kind.isDoctype) =
      some doctype := by
    rw [path, List.find?_eq_some_iff_append]
    refine ⟨found, before, after, rfl, ?_⟩
    intro id mem
    rw [others id mem, Bool.not_false]
  have isBefore : (b.doc.path b.current).takeWhile
      (fun id ↦ !(b.doc.node id).kind.isDoctype) = before := by
    rw [path]
    exact takeWhile_not_eq found others
  simp only [returnToDoctype, isFound, isBefore]

theorem returnToDoctype_of_not_mem (h : .doctype ∉ b.spine) (offset : Nat) :
    b.returnToDoctype offset = b := by
  have notFound : (b.doc.path b.current).find? (fun id ↦ (b.doc.node id).kind.isDoctype) =
      none := by
    rw [List.find?_eq_none]
    intro id mem isDoctype
    rw [NodeKind.isDoctype_eq, decide_eq_true_eq] at isDoctype
    exact h (List.mem_map.2 ⟨id, mem, isDoctype⟩)
  simp only [returnToDoctype, notFound]

/-- Open nodes get their ends before a node around them becomes the current one. -/
theorem returned_foldl_setStop (stopOf : Builder → Nat → Nat) {before after : List Nat}
    {target : Nat} (path : b.doc.path b.current = before ++ target :: after) :
    b.Returned
      { before.foldl (fun b id ↦ b.setStop (stopOf b id) id) b with current := target } := by
  have inside : before ⊆ b.doc.path b.current := by
    rw [path]
    exact List.subset_append_left _ _
  refine ⟨(retouched_foldl_setStop stopOf inside).doc, ?_⟩
  rw [path]
  exact List.mem_append_right _ List.mem_cons_self

theorem returned_foldl_endBefore {before after : List Nat} {target : Nat}
    (path : b.doc.path b.current = before ++ target :: after) (offset : Nat) :
    b.Returned { before.foldl (endBefore offset) b with current := target } :=
  returned_foldl_setStop _ path

/-- The innermost document type on the spine becomes the current node. -/
theorem spine_returnToDoctype (linked : b.Linked) (h : b.spine = inner ++ .doctype :: outer)
    (others : .doctype ∉ inner) (offset : Nat) :
    (b.returnToDoctype offset).spine = .doctype :: outer := by
  obtain ⟨before, doctype, after, path, rfl, isDoctype, rfl⟩ := exists_path_of_spine h
  have others : ∀ id ∈ before, b.doc.frame id ≠ .doctype := by
    intro id mem isDoctype
    exact others (List.mem_map.2 ⟨id, mem, isDoctype⟩)
  rw [returnToDoctype_eq path isDoctype others]
  rw [(returned_foldl_endBefore path offset).spine_eq linked path, List.map_cons, isDoctype]

theorem returned_returnToDoctype (b : Builder) (offset : Nat) :
    b.Returned (b.returnToDoctype offset) := by
  by_cases isIn : .doctype ∈ b.spine
  · obtain ⟨inner, outer, split, others⟩ := List.eq_append_cons_of_mem isIn
    obtain ⟨before, doctype, after, path, rfl, isDoctype, rfl⟩ := exists_path_of_spine split
    rw [returnToDoctype_eq path isDoctype fun id mem isDoctype ↦
      others (List.mem_map.2 ⟨id, mem, isDoctype⟩)]
    exact returned_foldl_endBefore path offset
  · rw [returnToDoctype_of_not_mem isIn]
    exact (Retouched.refl b).returned

theorem Linked.returnToDoctype (linked : b.Linked) (offset : Nat) :
    (b.returnToDoctype offset).Linked :=
  (returned_returnToDoctype b offset).linked linked

/-! ### End tags -/

theorem frame_of_matchesTag {name : Text} (h : b.matchesTag name id = true) :
    b.doc.frame id = .element := by
  rw [matchesTag] at h
  rw [Document.frame]
  cases kind : (b.doc.node id).kind with
  | element e => rfl
  | _ => simp [kind, NodeKind.element?] at h

/-- The node that an end tag without a match gets. -/
def strayElement (b : Builder) (token : Token) : Node where
  kind := .element
    { tagName := some token.text, endTagOpen := some (b.endTagOpen.getD token.start) }
  start := b.endTagOpen.getD token.start
  stop := token.stop

/-- The nodes that the name of an end tag passes end where the end tag starts. -/
def endAll (b : Builder) (stop : Nat) (ids : List Nat) : Builder :=
  ids.foldl (fun b id ↦ b.setStop stop id) b

theorem retouched_endAll {ids : List Nat} (h : ids ⊆ b.doc.path b.current) (stop : Nat) :
    b.Retouched (b.endAll stop ids) :=
  retouched_foldl_setStop (fun _ _ ↦ stop) h

/-- Moving ends changes nothing but nodes. -/
theorem endAll_eq (b : Builder) (stop : Nat) (ids : List Nat) :
    b.endAll stop ids =
      { b with doc := { b.doc with nodes := (b.endAll stop ids).doc.nodes } } := by
  induction ids generalizing b with
  | nil => rfl
  | cons id ids ih =>
    have first : b.setStop stop id =
        { b with doc := { b.doc with nodes := (b.setStop stop id).doc.nodes } } := by
      unfold setStop
      split
      · rfl
      · rfl
    have rest := ih (b.setStop stop id)
    rw [first] at rest
    rw [endAll, List.foldl_cons, ← endAll, first]
    exact rest

/-- Of the nodes that are ended only the ends change. -/
theorem node_endAll (b : Builder) {ids : List Nat} (lt : ∀ id ∈ ids, id < b.doc.count)
    (stop other : Nat) :
    (b.endAll stop ids).doc.node other =
      if other ∈ ids ∧ other ≠ Document.root then { b.doc.node other with stop := stop }
      else b.doc.node other := by
  induction ids generalizing b with
  | nil => simp [endAll]
  | cons id ids ih =>
    have first := node_setStop b (lt id List.mem_cons_self) stop other
    have rest := ih (b.setStop stop id) fun id mem ↦
      b.count_setStop stop _ ▸ lt id (List.mem_cons_of_mem _ mem)
    rw [first] at rest
    rw [endAll, List.foldl_cons, ← endAll, rest]
    simp only [List.mem_cons]
    grind

/-- The name of an end tag passes the nodes that it does not match, and closes the first element
that it matches, which becomes the current node. -/
theorem nameEndTag_of_match {before after : List Nat} {element : Nat}
    (path : b.doc.path b.current = before ++ element :: after)
    (isMatch : b.matchesTag token.text element = true)
    (others : ∀ id ∈ before, b.matchesTag token.text id = false) :
    b.nameEndTag token =
      { b.endAll (b.endTagOpen.getD token.start) before with
        doc := (b.endAll (b.endTagOpen.getD token.start) before).doc.modify element fun node ↦
          { node with
            closed := true
            stop := token.stop
            kind := node.kind.modifyElement fun e ↦
              { e with endTagOpen := some (b.endTagOpen.getD token.start) } }
        current := element } := by
  have isFound : (b.doc.path b.current).find? (b.matchesTag token.text) = some element := by
    rw [path, List.find?_eq_some_iff_append]
    refine ⟨isMatch, before, after, rfl, ?_⟩
    intro id mem
    rw [others id mem, Bool.not_false]
  have isBefore : (b.doc.path b.current).takeWhile
      (fun id ↦ !b.matchesTag token.text id) = before := by
    rw [path]
    exact takeWhile_not_eq isMatch others
  simp only [nameEndTag, isFound, isBefore, endAll]

/-- The name of an end tag that matches nothing opens a stray element in the current node. -/
theorem nameEndTag_of_no_match
    (others : ∀ id ∈ b.doc.path b.current, b.matchesTag token.text id = false) :
    b.nameEndTag token =
      (b.endAll (b.endTagOpen.getD token.start) (b.doc.path b.current)).openNode
        (b.strayElement token) := by
  have isFound : (b.doc.path b.current).find? (b.matchesTag token.text) = none := by
    rw [List.find?_eq_none]
    intro id mem
    rw [others id mem]
    decide
  have isBefore : (b.doc.path b.current).takeWhile
      (fun id ↦ !b.matchesTag token.text id) = b.doc.path b.current := by
    rw [List.takeWhile_eq_self_iff]
    intro id mem
    rw [others id mem, Bool.not_false]
  simp only [nameEndTag, isFound, isBefore, endAll, strayElement]

/-- The name of an end tag matches an open element or none. -/
theorem nameEndTag_cases (b : Builder) (token : Token) :
    let opening := b.endTagOpen.getD token.start
    (∃ before element after, b.doc.path b.current = before ++ element :: after ∧
      b.matchesTag token.text element = true ∧ (∀ id ∈ before, b.matchesTag token.text id = false) ∧
      b.nameEndTag token =
        { b.endAll opening before with
          doc := (b.endAll opening before).doc.modify element fun node ↦
            { node with
              closed := true
              stop := token.stop
              kind := node.kind.modifyElement fun e ↦ { e with endTagOpen := some opening } }
          current := element }) ∨
    ((∀ id ∈ b.doc.path b.current, b.matchesTag token.text id = false) ∧
      b.nameEndTag token =
        (b.endAll opening (b.doc.path b.current)).openNode (b.strayElement token)) := by
  cases isFound : (b.doc.path b.current).find? (b.matchesTag token.text) with
  | some element =>
    left
    obtain ⟨isMatch, before, after, path, others⟩ := List.find?_eq_some_iff_append.1 isFound
    have others : ∀ id ∈ before, b.matchesTag token.text id = false := by
      intro id mem
      simpa using others id mem
    exact ⟨before, element, after, path, isMatch, others, nameEndTag_of_match path isMatch others⟩
  | none =>
    right
    have others : ∀ id ∈ b.doc.path b.current, b.matchesTag token.text id = false := by
      intro id mem
      simpa using List.find?_eq_none.1 isFound id mem
    exact ⟨others, nameEndTag_of_no_match others⟩

/-- The element that an end tag matches is changed where it is the current node. -/
theorem retouched_endTagOpen {c : Builder} (linked : c.Linked)
    (isElement : c.doc.frame c.current = .element) (opening stop : Nat) :
    c.Retouched { c with
      doc := c.doc.modify c.current fun node ↦
        { node with
          closed := true
          stop := stop
          kind := node.kind.modifyElement fun e ↦ { e with endTagOpen := some opening } } } := by
  have notRoot : c.current ≠ Document.root := by
    apply linked.doc.ne_root_of_frame
    rw [isElement]
    decide
  refine ⟨Document.retouched_modify _ _ ?_ ?_ ?_ ?_ (.inl ⟨Document.Linked.mem_path_self, notRoot⟩),
    rfl⟩
  · exact fun _ ↦ rfl
  · exact fun _ ↦ rfl
  · exact fun node ↦ NodeKind.frame_modifyElement _ node.kind
  · exact fun _ ↦ rfl

theorem returned_closeMatch {before after : List Nat} {element opening : Nat} (linked : b.Linked)
    (path : b.doc.path b.current = before ++ element :: after)
    (isElement : b.doc.frame element = .element) (stop : Nat) :
    b.Returned
      { b.endAll opening before with
        doc := (b.endAll opening before).doc.modify element fun node ↦
          { node with
            closed := true
            stop := stop
            kind := node.kind.modifyElement fun e ↦ { e with endTagOpen := some opening } }
        current := element } := by
  have returned := returned_foldl_setStop (fun _ _ ↦ opening) path
  have changed := retouched_endTagOpen (returned.linked linked)
    ((returned.doc.frame_eq element).trans isElement) opening stop
  refine ⟨returned.doc.trans (changed.doc.mono fun id isOpen ↦ ⟨?_, isOpen.2⟩),
    returned.current_mem⟩
  have mem := isOpen.1
  rw [returned.doc.path_eq] at mem
  exact (linked.doc.path_suffix linked.current_lt returned.current_mem).subset mem

/-- The name of an end tag returns to an element around, or opens a stray one. -/
theorem spine_nameEndTag (linked : b.Linked) (token : Token) :
    (∃ outer, (b.nameEndTag token).spine = .element :: outer ∧ .element :: outer <:+ b.spine) ∨
      (b.nameEndTag token).spine = .element :: b.spine := by
  rcases nameEndTag_cases b token with
    ⟨before, element, after, path, isMatch, -, eq⟩ | ⟨-, eq⟩
  · left
    have frame := frame_of_matchesTag isMatch
    have returned : b.Returned (b.nameEndTag token) := by
      rw [eq]
      exact returned_closeMatch linked path frame token.stop
    have current : (b.nameEndTag token).current = element := by rw [eq]
    have spine := returned.spine_eq linked (current ▸ path)
    rw [current, List.map_cons, frame] at spine
    refine ⟨after.map b.doc.frame, spine, ?_⟩
    rw [← spine]
    exact returned.spine_suffix linked
  · right
    have ended := retouched_endAll (List.Subset.refl (b.doc.path b.current))
      (b.endTagOpen.getD token.start)
    rw [eq, spine_openNode (ended.linked linked), ended.spine_eq]
    rfl

/-! ### Closing -/

theorem spine_closeIf (linked : b.Linked) (h : b.spine = frame :: outer)
    (notDocument : frame ≠ .document) {p : NodeKind → Bool}
    (holds : p b.currentNode.kind = true) (stop : Nat) : (b.closeIf p stop).spine = outer := by
  have left := left_close linked (linked.ne_root_of_spine h notDocument) stop
  have spine := left.spine_eq linked
  rw [h] at spine
  rw [closeIf, if_pos holds]
  exact (List.cons.inj spine).2.symm

theorem spine_closeTag (linked : b.Linked) (h : b.spine = frame :: outer)
    (notDocument : frame ≠ .document) (stop : Nat) : (b.closeTag stop).spine = outer := by
  rcases closeTag_cases linked stop with ⟨isRoot, -⟩ | left
  · exact absurd isRoot (linked.ne_root_of_spine h notDocument)
  · have spine := left.spine_eq linked
    rw [h] at spine
    exact (List.cons.inj spine).2.symm

/-- A declaration that is left is taken off the spine. -/
theorem spine_leaveDeclaration (linked : b.Linked) (h : b.spine = frame :: outer) (offset : Nat) :
    (b.leaveDeclaration offset).spine = if frame.isDeclaration then outer else b.spine := by
  have head := head_spine h
  rcases leaveDeclaration_cases linked offset with ⟨notDecl, eq⟩ | ⟨isDecl, left⟩
  · rw [head] at notDecl
    rw [eq, notDecl]
    rfl
  · have spine := left.spine_eq linked
    rw [h] at spine
    rw [head] at isDecl
    rw [isDecl, if_pos rfl]
    exact (List.cons.inj spine).2.symm

theorem returned_leaveDeclaration (linked : b.Linked) (offset : Nat) :
    b.Returned (b.leaveDeclaration offset) := by
  rcases leaveDeclaration_cases linked offset with ⟨-, eq⟩ | ⟨-, left⟩
  · rw [eq]
    exact (Retouched.refl b).returned
  · exact left.returned linked

theorem Linked.leaveDeclaration (linked : b.Linked) (offset : Nat) :
    (b.leaveDeclaration offset).Linked :=
  (returned_leaveDeclaration linked offset).linked linked

/-! ### Opening -/

theorem spine_openToEnd (linked : b.Linked) (kind : NodeKind) (start : Nat) :
    (b.openToEnd kind start).spine = kind.frame :: b.spine :=
  spine_openNode linked _

/-- A declaration is opened in the document type that the builder returns to. -/
theorem spine_openDeclaration (linked : b.Linked) {start : Nat}
    (h : (b.returnToDoctype start).spine = .doctype :: outer) (keyword : Text)
    (kind : Parameter → NodeKind) :
    (b.openDeclaration start keyword kind).spine =
      (kind (.keywordAt b.doc.text start keyword)).frame :: .doctype :: outer := by
  have isDoctype : (b.returnToDoctype start).currentNode.kind.isDoctype = true := by
    rw [NodeKind.isDoctype_eq, head_spine h]
    rfl
  have text := (returned_returnToDoctype b start).doc.text_eq
  simp only [openDeclaration, isDoctype, ↓reduceIte, text]
  rw [spine_openToEnd ((returned_returnToDoctype b start).linked linked), h]

end Builder

end TolerantXml
