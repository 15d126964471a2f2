import TolerantXml.Proofs.Tree.Spared

/-!
# Landmarks

The landmarks of a node are what it records of the tokens that delimit it: the name and the tags of
an element, and the brackets of a document type (`NodeKind.landmarks`). A token records at most one
of them in a node that is there, and a node that it opens starts with those of the token
(`Builder.marks_apply`).
-/

namespace TolerantXml

/-- The name of an element and the places of its tags, or the places of the brackets of a document
type, as far as they were seen. -/
structure Landmarks where
  tagName : Option Text := none
  startTagOpen : Option Nat := none
  endTagOpen : Option Nat := none
  subsetStart : Option Nat := none
  subsetStop : Option Nat := none

/-- The landmarks of a node. -/
def NodeKind.landmarks : NodeKind → Landmarks
  | .element e =>
    { tagName := e.tagName, startTagOpen := e.startTagOpen, endTagOpen := e.endTagOpen }
  | .doctype d => { subsetStart := d.subsetStart, subsetStop := d.subsetStop }
  | _ => {}

/-- The landmarks of a node in a document. -/
def Document.landmarks (doc : Document) (id : Nat) : Landmarks := (doc.node id).kind.landmarks

/-- Only an element records tags. -/
theorem Document.frame_of_landmarks {doc : Document} {id place : Nat}
    (h : (doc.landmarks id).startTagOpen = some place ∨
      (doc.landmarks id).endTagOpen = some place) : doc.frame id = .element := by
  rw [Document.landmarks] at h
  rw [Document.frame]
  cases kind : (doc.node id).kind with
  | element e => rfl
  | _ => simp [kind, NodeKind.landmarks] at h

/-- The landmarks of a node that a token opens while some end tag was opened last. -/
def Token.landmarks (token : Token) (endTagOpen : Option Nat) : Landmarks :=
  match token.kind with
  | .startTagOpen => { startTagOpen := some token.start }
  | .endTag => { tagName := some token.text, endTagOpen := some (endTagOpen.getD token.start) }
  | _ => {}

/-- What a token that a builder takes makes of the landmarks of a node. -/
inductive Landmarks.Takes (b : Builder) (token : Token) (id : Nat) (before : Landmarks) :
    Landmarks → Prop where
  | same : Takes b token id before before
  | startTag (isName : token.kind = .startTag) (isCurrent : id = b.current)
    (isElement : b.doc.frame id = .element) :
    Takes b token id before { before with tagName := some token.text }
  | endTag (isName : token.kind = .endTag) (isMatch : b.matchesTag token.text id = true) :
    Takes b token id before
      { before with endTagOpen := some (b.endTagOpen.getD token.start) }
  | subsetOpen (isOpening : token.kind = .subsetOpen) (isCurrent : id = b.current)
    (isDoctype : b.doc.frame id = .doctype) :
    Takes b token id before { before with subsetStart := some token.start }
  | subsetClose (isClosing : token.kind = .subsetClose)
    (isReturn : id = (b.returnToDoctype token.start).current)
    (isDoctype : b.doc.frame id = .doctype) :
    Takes b token id before { before with subsetStop := some token.start }

/-- A new node has no brackets. -/
private theorem Token.brackets_landmarks (token : Token) (endTagOpen : Option Nat) :
    (token.landmarks endTagOpen).subsetStart = none ∧
      (token.landmarks endTagOpen).subsetStop = none := by
  unfold landmarks
  split <;> exact ⟨rfl, rfl⟩

namespace Landmarks.Takes

variable {b : Builder} {token : Token} {id : Nat} {before after : Landmarks}

theorem startTagOpen_eq (takes : before.Takes b token id after) :
    after.startTagOpen = before.startTagOpen := by
  cases takes <;> rfl

theorem tagName_cases (takes : before.Takes b token id after) :
    after.tagName = before.tagName ∨
      token.kind = .startTag ∧ id = b.current ∧ after.tagName = some token.text := by
  cases takes with
  | same | endTag | subsetOpen | subsetClose => exact .inl rfl
  | startTag isName isCurrent => exact .inr ⟨isName, isCurrent, rfl⟩

theorem endTagOpen_cases (takes : before.Takes b token id after) :
    after.endTagOpen = before.endTagOpen ∨
      token.kind = .endTag ∧ b.matchesTag token.text id = true ∧
        after.endTagOpen = some (b.endTagOpen.getD token.start) := by
  cases takes with
  | same | startTag | subsetOpen | subsetClose => exact .inl rfl
  | endTag isName isMatch => exact .inr ⟨isName, isMatch, rfl⟩

theorem subsetStart_cases (takes : before.Takes b token id after) :
    after.subsetStart = before.subsetStart ∨
      token.kind = .subsetOpen ∧ id = b.current ∧ after.subsetStart = some token.start := by
  cases takes with
  | same | startTag | endTag | subsetClose => exact .inl rfl
  | subsetOpen isOpening isCurrent => exact .inr ⟨isOpening, isCurrent, rfl⟩

theorem subsetStop_cases (takes : before.Takes b token id after) :
    after.subsetStop = before.subsetStop ∨
      token.kind = .subsetClose ∧ after.subsetStop = some token.start := by
  cases takes with
  | same | startTag | endTag | subsetOpen => exact .inl rfl
  | subsetClose isClosing => exact .inr ⟨isClosing, rfl⟩

end Landmarks.Takes

/-- A parameter of the header is no bracket. -/
theorem Doctype.landmarks_take (doctype : Doctype) (token : Token) :
    (NodeKind.doctype (doctype.take token)).landmarks = (NodeKind.doctype doctype).landmarks := by
  simp only [NodeKind.landmarks, take, setPart]
  split <;> rfl

namespace NodeKind

theorem landmarks_modifyInstruction (change : Instruction → Instruction) (kind : NodeKind) :
    (kind.modifyInstruction change).landmarks = kind.landmarks := by
  cases kind <;> rfl

theorem landmarks_modifyAttributes (change : List Attribute → List Attribute) (kind : NodeKind) :
    (kind.modifyAttributes change).landmarks = kind.landmarks := by
  cases kind <;> rfl

theorem landmarks_takeParameter (token : Token) (kind : NodeKind) :
    (kind.takeParameter token).landmarks = kind.landmarks := by
  cases kind with
  | doctype d =>
    rw [takeParameter]
    split
    · exact d.landmarks_take token
    · rfl
  | _ => rfl

end NodeKind

namespace Builder

variable {b b' : Builder} {token : Token} {id : Nat}

/-- In front of the text there are no landmarks. -/
theorem landmarks_start (text uri : Text) (mode : Mode) (id : Nat) :
    (start text uri mode).doc.landmarks id = {} := by
  rw [Document.landmarks]
  rcases kind_start text uri mode id with kind | ⟨-, -, kind⟩
  · rw [kind]
    rfl
  · rw [kind]
    rfl

/-! ### Tokens -/

/-- What a token does to the landmarks of nodes: old nodes take what it records, and new nodes have
those that it comes with. -/
structure Marks (token : Token) (b b' : Builder) : Prop where
  old : ∀ id < b.doc.count, (b.doc.landmarks id).Takes b token id (b'.doc.landmarks id)
  new : ∀ id, b.doc.count ≤ id → id < b'.doc.count →
    b'.doc.landmarks id = token.landmarks b.endTagOpen

/-- A node that was not there before has the landmarks that the token comes with, and what is no
node has none. -/
private theorem Marks.landmarks_of_count_le (marks : Marks token b b') (ge : b.doc.count ≤ id) :
    b'.doc.landmarks id = token.landmarks b.endTagOpen ∨ b'.doc.landmarks id = {} := by
  rcases Nat.lt_or_ge id b'.doc.count with lt | ge'
  · exact .inl (marks.new id ge lt)
  · right
    rw [Document.landmarks, Document.node_of_count_le ge']
    rfl

theorem Marks.brackets_eq_none (marks : Marks token b b') (ge : b.doc.count ≤ id) :
    (b'.doc.landmarks id).subsetStart = none ∧ (b'.doc.landmarks id).subsetStop = none := by
  rcases marks.landmarks_of_count_le ge with new | none
  · rw [new]
    exact token.brackets_landmarks b.endTagOpen
  · rw [none]
    exact ⟨rfl, rfl⟩

/-- An element that is opened by a start tag has no name yet. -/
theorem Marks.tagName_eq_none (marks : Marks token b b') (ge : b.doc.count ≤ id) {start : Nat}
    (h : (b'.doc.landmarks id).startTagOpen = some start) :
    (b'.doc.landmarks id).tagName = none := by
  rcases marks.landmarks_of_count_le ge with new | none
  · rw [new, Token.landmarks] at h ⊢
    split at h
    · rfl
    · cases h
    · cases h
  · rw [none]

/-- An element that is opened with an end tag has the name of that. -/
theorem Marks.landmarks_eq_of_endTagOpen (marks : Marks token b b') (ge : b.doc.count ≤ id)
    {start : Nat} (h : (b'.doc.landmarks id).endTagOpen = some start) :
    token.kind = .endTag ∧ b'.doc.landmarks id =
      { tagName := some token.text, endTagOpen := some (b.endTagOpen.getD token.start) } := by
  rcases marks.landmarks_of_count_le ge with new | none
  · rw [new, Token.landmarks] at h ⊢
    split at h
    · cases h
    · next isName => exact ⟨isName, rfl⟩
    · cases h
  · rw [none] at h
    cases h

/-- The start tag of an element that was not there before is opened by the token. -/
theorem Marks.startTagOpen_cases (marks : Marks token b b') {start : Nat}
    (h : (b'.doc.landmarks id).startTagOpen = some start) :
    id < b.doc.count ∧ (b.doc.landmarks id).startTagOpen = some start ∨
      token.kind = .startTagOpen ∧ b.doc.count ≤ id ∧ id < b'.doc.count ∧ start = token.start := by
  rcases Nat.lt_or_ge id b.doc.count with lt | ge
  · exact .inl ⟨lt, (marks.old id lt).startTagOpen_eq.symm.trans h⟩
  · rcases Nat.lt_or_ge id b'.doc.count with lt | ge'
    · rw [marks.new id ge lt, Token.landmarks] at h
      split at h
      · next kind => exact .inr ⟨kind, ge, lt, (Option.some.inj h).symm⟩
      · cases h
      · cases h
    · rw [Document.landmarks, Document.node_of_count_le ge'] at h
      cases h

/-- An opening bracket was there before, or it is the token. -/
theorem Marks.subsetStart_cases (marks : Marks token b b') {start : Nat}
    (h : (b'.doc.landmarks id).subsetStart = some start) :
    (b.doc.landmarks id).subsetStart = some start ∨
      token.kind = .subsetOpen ∧ id = b.current ∧ start = token.start := by
  rcases Nat.lt_or_ge id b.doc.count with lt | ge
  · rcases (marks.old id lt).subsetStart_cases with same | ⟨kind, isCurrent, recorded⟩
    · exact .inl (same.symm.trans h)
    · exact .inr ⟨kind, isCurrent, Option.some.inj (h.symm.trans recorded)⟩
  · rw [(marks.brackets_eq_none ge).1] at h
    cases h

/-- A closing bracket was there before, or it is the token. -/
theorem Marks.subsetStop_cases (marks : Marks token b b') {stop : Nat}
    (h : (b'.doc.landmarks id).subsetStop = some stop) :
    (b.doc.landmarks id).subsetStop = some stop ∨
      token.kind = .subsetClose ∧ stop = token.start := by
  rcases Nat.lt_or_ge id b.doc.count with lt | ge
  · rcases (marks.old id lt).subsetStop_cases with same | ⟨kind, recorded⟩
    · exact .inl (same.symm.trans h)
    · exact .inr ⟨kind, Option.some.inj (h.symm.trans recorded)⟩
  · rw [(marks.brackets_eq_none ge).2] at h
    cases h

/-- The element that the name of an end tag matches or gets is the one that records the tag. -/
theorem endTagOpen_nameEndTag (linked : b.Linked) (token : Token) (id : Nat) :
    ((b.nameEndTag token).doc.landmarks id).endTagOpen =
      if id = (b.nameEndTag token).current then some (b.endTagOpen.getD token.start)
      else (b.doc.landmarks id).endTagOpen := by
  rcases nameEndTag_cases b token with ⟨before, element, after, path, isMatch, -, eq⟩ | ⟨-, eq⟩
  · have lt : element < b.doc.count := by
      apply linked.lt_of_mem_path
      rw [path]
      exact List.mem_append_right _ List.mem_cons_self
    have inside : before ⊆ b.doc.path b.current := path ▸ List.subset_append_left _ _
    have passed := retouched_endAll inside (b.endTagOpen.getD token.start)
    have same := (kind_endAll b (b.endTagOpen.getD token.start) before element).1
    have isElement := frame_of_matchesTag isMatch
    rw [eq, Document.landmarks, Document.node_modify _ (passed.doc.count_eq ▸ lt)]
    split
    · simp only [same]
      rw [Document.frame] at isElement
      cases kind : (b.doc.node element).kind with
      | element e => rfl
      | _ => simp [kind, NodeKind.frame] at isElement
    · rw [(kind_endAll b _ before id).1]
      rfl
  · have ended := retouched_endAll (List.Subset.refl (b.doc.path b.current))
      (b.endTagOpen.getD token.start)
    have lt := (ended.linked linked).current_lt
    rw [eq, openNode, Document.landmarks, Document.node_addChild _ lt]
    split
    · rfl
    · split
      · next isCurrent =>
        rw [isCurrent]
        exact congrArg (fun kind : NodeKind ↦ kind.landmarks.endTagOpen) (kind_endAll b _ _ _).1
      · rw [(kind_endAll b _ _ id).1]
        rfl

/-- What a token writes into an element is one of its landmarks, or leaves them. -/
private theorem takes_modifyElement {change : Element → Element} {kind : NodeKind}
    (takes : ∀ e, kind = .element e →
      (NodeKind.element e).landmarks.Takes b token id (NodeKind.element (change e)).landmarks) :
    kind.landmarks.Takes b token id (kind.modifyElement change).landmarks := by
  cases kind with
  | element e => exact takes e rfl
  | _ => exact .same

private theorem takes_modifyDoctype {change : Doctype → Doctype} {kind : NodeKind}
    (takes : ∀ d, kind = .doctype d →
      (NodeKind.doctype d).landmarks.Takes b token id (NodeKind.doctype (change d)).landmarks) :
    kind.landmarks.Takes b token id (kind.modifyDoctype change).landmarks := by
  cases kind with
  | doctype d => exact takes d rfl
  | _ => exact .same

/-- The name of an end tag is recorded in the element that it matches. -/
private theorem matchesTag_subject (isName : token.kind = .endTag)
    (lt : b.subject token < b.doc.count) : b.matchesTag token.text (b.subject token) = true := by
  rw [subject, isName] at lt ⊢
  simp only [apply, isName] at lt ⊢
  rcases nameEndTag_cases b token with ⟨before, element, after, -, isMatch, -, eq⟩ | ⟨-, eq⟩
  · rw [eq]
    exact isMatch
  · have ended := retouched_endAll (List.Subset.refl (b.doc.path b.current))
      (b.endTagOpen.getD token.start)
    rw [eq, openNode, ended.doc.count_eq] at lt
    exact absurd lt (Nat.lt_irrefl _)

/-- The node that a token writes into takes what the token records. -/
private theorem takes_rewrite (lt : b.subject token < b.doc.count) :
    (b.doc.landmarks (b.subject token)).Takes b token (b.subject token)
      (b.rewrite token (b.doc.node (b.subject token)).kind).landmarks := by
  have frame {kind : NodeKind} (isKind : (b.doc.node (b.subject token)).kind = kind) :
      b.doc.frame (b.subject token) = kind.frame :=
    congrArg NodeKind.frame isKind
  rw [Document.landmarks, rewrite]
  cases isKind : token.kind with
  | startTag =>
    have isCurrent : b.subject token = b.current := by rw [subject, isKind]
    exact takes_modifyElement fun _ isElement ↦ .startTag isKind isCurrent (frame isElement)
  | endTag =>
    exact takes_modifyElement fun _ _ ↦ .endTag isKind (matchesTag_subject isKind lt)
  | subsetOpen =>
    have isCurrent : b.subject token = b.current := by rw [subject, isKind]
    exact takes_modifyDoctype fun _ isDoctype ↦ .subsetOpen isKind isCurrent (frame isDoctype)
  | subsetClose =>
    have isReturn : b.subject token = (b.returnToDoctype token.start).current := by
      simp only [subject, apply, isKind]
      rfl
    exact takes_modifyDoctype fun _ isDoctype ↦ .subsetClose isKind isReturn (frame isDoctype)
  | startTagClose =>
    rw [NodeKind.landmarks_modifyInstruction]
    exact takes_modifyElement fun _ _ ↦ .same
  | emptyTagClose | endTagClose => exact takes_modifyElement fun _ _ ↦ .same
  | doctypeName | doctypePublic | doctypeSystem | doctypePublicId | doctypeSystemId =>
    refine takes_modifyDoctype fun doctype _ ↦ ?_
    rw [doctype.landmarks_take]
    exact .same
  | attributeName | attributeValue =>
    rw [NodeKind.landmarks_modifyAttributes]
    exact .same
  | prologTarget | instructionTarget | instructionData =>
    rw [NodeKind.landmarks_modifyInstruction]
    exact .same
  | comment | cdata =>
    cases (b.doc.node (b.subject token)).kind <;> exact .same
  | elementDeclName | elementDeclCategory | elementDeclContent | attlistElement | attlistName
  | attlistType | attlistDefault | entityPercent | entityName | entityValue | entityPublic
  | entitySystem | entityPublicId | entitySystemId | unrecognized =>
    rw [NodeKind.landmarks_takeParameter]
    exact .same
  | _ => exact .same

/-- Any token records at most one landmark in an old node, and opens nodes with its own. -/
theorem marks_apply (linked : b.Linked) (token : Token) : Marks token b (b.apply token) := by
  have records := records_apply linked token
  constructor
  · intro id lt
    rw [Document.landmarks, Document.landmarks, records.old id lt]
    split
    · next isSubject =>
      subst isSubject
      exact takes_rewrite lt
    · exact .same
  · intro id ge lt
    rw [Document.landmarks, records.new id ge lt, added, Token.landmarks]
    cases token.kind <;> rfl

/-- An element that an end tag matches has a name that is the same but for letter case. -/
theorem tagName_of_matchesTag {name : Text} (h : b.matchesTag name id = true) :
    ∃ tagName, (b.doc.landmarks id).tagName = some tagName ∧ sameTagName tagName name = true := by
  rw [matchesTag] at h
  rw [Document.landmarks]
  cases kind : (b.doc.node id).kind with
  | element e =>
    rw [kind] at h
    exact (Option.any_eq_true _ e.tagName).1 h
  | _ => simp [kind, NodeKind.element?] at h

/-- The opening bracket is recorded where a document type is the current node. -/
theorem subsetStart_openSubset (linked : b.Linked) (isDoctype : b.doc.frame b.current = .doctype)
    (start : Nat) : ((b.openSubset start).doc.landmarks b.current).subsetStart = some start := by
  rw [Document.landmarks, openSubset, modifyKind, Document.node_modify _ linked.current_lt,
    if_pos rfl, Node.modifyKind]
  rw [Document.frame] at isDoctype
  cases kind : (b.doc.node b.current).kind with
  | doctype d => rfl
  | _ => simp [kind, NodeKind.frame] at isDoctype

end Builder

end TolerantXml
