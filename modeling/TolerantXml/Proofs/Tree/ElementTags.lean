import TolerantXml.Proofs.Tree.Interrupted
import TolerantXml.Proofs.Tree.Kinds

/-!
# What a token does to an element

A token changes an element in one way at most (`Element.Takes`), and a new element has nothing but
the tag that it was made for (`Builder.element_cases`). An element is closed by the end of a tag,
while it is the current node, or by the name of an end tag that it matches, and by no other token
(`Builder.closed_apply_iff`).
-/

namespace TolerantXml

/-- What becomes of an element at a token. -/
inductive Element.Takes (b : Builder) (token : Token) (id : Nat) (e : Element) :
    Element → Prop where
  | same : Takes b token id e e
  | attributes (attributes : List Attribute)
      (isPart : token.kind = .attributeName ∨ token.kind = .attributeValue) :
    Takes b token id e { e with attributes := attributes }
  | startTag (kind : token.kind = .startTag) (isCurrent : id = b.current) :
    Takes b token id e { e with tagName := some token.text }
  | startTagClose (kind : token.kind = .startTagClose) (isCurrent : id = b.current) :
    Takes b token id e { e with startTagClose := some token.start }
  | emptyTagClose (kind : token.kind = .emptyTagClose) (isCurrent : id = b.current) :
    Takes b token id e { e with selfClosed := true }
  | endTag (kind : token.kind = .endTag) (isCurrent : id = (b.apply token).current) :
    Takes b token id e { e with endTagOpen := some (b.endTagOpen.getD token.start) }
  | endTagClose (kind : token.kind = .endTagClose) (isCurrent : id = b.current) :
    Takes b token id e { e with endTagClose := some token.start }

namespace Element.Takes

variable {b : Builder} {token : Token} {id : Nat} {e e' : Element}

theorem startTagOpen_eq (takes : Element.Takes b token id e e') :
    e'.startTagOpen = e.startTagOpen := by
  cases takes <;> rfl

theorem tagName_cases (takes : Element.Takes b token id e e') :
    e'.tagName = e.tagName ∨ token.kind = .startTag ∧ id = b.current ∧
      e' = { e with tagName := some token.text } := by
  cases takes with
  | startTag kind isCurrent => exact .inr ⟨kind, isCurrent, rfl⟩
  | _ => exact .inl rfl

theorem startTagClose_cases (takes : Element.Takes b token id e e') :
    e'.startTagClose = e.startTagClose ∨ token.kind = .startTagClose ∧ id = b.current ∧
      e' = { e with startTagClose := some token.start } := by
  cases takes with
  | startTagClose kind isCurrent => exact .inr ⟨kind, isCurrent, rfl⟩
  | _ => exact .inl rfl

theorem endTagOpen_cases (takes : Element.Takes b token id e e') :
    e'.endTagOpen = e.endTagOpen ∨ token.kind = .endTag ∧ id = (b.apply token).current ∧
      e' = { e with endTagOpen := some (b.endTagOpen.getD token.start) } := by
  cases takes with
  | endTag kind isCurrent => exact .inr ⟨kind, isCurrent, rfl⟩
  | _ => exact .inl rfl

theorem endTagClose_cases (takes : Element.Takes b token id e e') :
    e'.endTagClose = e.endTagClose ∨ token.kind = .endTagClose ∧ id = b.current ∧
      e' = { e with endTagClose := some token.start } := by
  cases takes with
  | endTagClose kind isCurrent => exact .inr ⟨kind, isCurrent, rfl⟩
  | _ => exact .inl rfl

theorem selfClosed_cases (takes : Element.Takes b token id e e') :
    e'.selfClosed = e.selfClosed ∨ token.kind = .emptyTagClose ∧ id = b.current ∧
      e' = { e with selfClosed := true } := by
  cases takes with
  | emptyTagClose kind isCurrent => exact .inr ⟨kind, isCurrent, rfl⟩
  | _ => exact .inl rfl

end Element.Takes

/-- What stands in an element that a token adds. -/
inductive Element.Added (b : Builder) (token : Token) : Element → Prop where
  | startTag (kind : token.kind = .startTagOpen) :
    Added b token { startTagOpen := some token.start }
  | endTag (kind : token.kind = .endTag) :
    Added b token
      { tagName := some token.text, endTagOpen := some (b.endTagOpen.getD token.start) }

/-- There are elements only among the nodes of a document. -/
theorem Document.lt_count_of_element {doc : Document} {id : Nat} {e : Element}
    (isElement : (doc.node id).kind = .element e) : id < doc.count := by
  by_contra outside
  rw [Document.node_of_count_le (Nat.le_of_not_lt outside)] at isElement
  cases isElement

/-- The root is no element. -/
theorem Document.Linked.ne_root_of_element {doc : Document} {id : Nat} {e : Element}
    (linked : doc.Linked) (isElement : (doc.node id).kind = .element e) : id ≠ root := by
  have frame : doc.frame id = .element := congrArg NodeKind.frame isElement
  apply linked.ne_root_of_frame
  rw [frame]
  decide

namespace Builder

variable {b : Builder} {token : Token} {id : Nat} {e' : Element} {kind : NodeKind}

/-! ### Fields -/

private theorem rewrite_element (b : Builder) (token : Token) (e : Element) :
    ∃ e', b.rewrite token (.element e) = .element e' ∧
      Element.Takes b token (b.subject token) e e' := by
  unfold rewrite subject
  cases kind : token.kind with
  | startTag => exact ⟨_, rfl, .startTag kind rfl⟩
  | startTagClose => exact ⟨_, rfl, .startTagClose kind rfl⟩
  | emptyTagClose => exact ⟨_, rfl, .emptyTagClose kind rfl⟩
  | endTag => exact ⟨_, rfl, .endTag kind rfl⟩
  | endTagClose => exact ⟨_, rfl, .endTagClose kind rfl⟩
  | attributeName => exact ⟨_, rfl, .attributes _ (.inl kind)⟩
  | attributeValue => exact ⟨_, rfl, .attributes _ (.inr kind)⟩
  | _ => exact ⟨_, rfl, .same⟩

private theorem exists_of_rewrite_element (isElement : b.rewrite token kind = .element e') :
    ∃ e, kind = .element e ∧ Element.Takes b token (b.subject token) e e' := by
  have frame := b.frame_rewrite token kind
  rw [isElement] at frame
  cases kind with
  | element e =>
    obtain ⟨changed, eq, takes⟩ := b.rewrite_element token e
    obtain rfl := NodeKind.element.inj (eq.symm.trans isElement)
    exact ⟨e, rfl, takes⟩
  | _ => cases frame

private theorem added_of_element (isElement : b.added token = .element e') :
    Element.Added b token e' := by
  unfold added at isElement
  split at isElement
  case h_1 isKind =>
    obtain rfl := NodeKind.element.inj isElement
    exact .startTag isKind
  case h_2 isKind =>
    obtain rfl := NodeKind.element.inj isElement
    exact .endTag isKind
  all_goals cases isElement

/-- An element was there before and takes what the token is for, or it is new. -/
theorem element_cases (linked : b.Linked)
    (isElement : ((b.apply token).doc.node id).kind = .element e') :
    id < b.doc.count ∧ (∃ e, (b.doc.node id).kind = .element e ∧ Element.Takes b token id e e') ∨
      b.doc.count ≤ id ∧ Element.Added b token e' := by
  have records := records_apply linked token
  rcases Nat.lt_or_ge id b.doc.count with old | new
  · refine .inl ⟨old, ?_⟩
    rw [records.old id old] at isElement
    split at isElement
    · next isSubject =>
      obtain ⟨e, isOld, takes⟩ := exists_of_rewrite_element isElement
      exact ⟨e, isOld, isSubject ▸ takes⟩
    · exact ⟨e', isElement, .same⟩
  · refine .inr ⟨new, added_of_element ?_⟩
    rcases Nat.lt_or_ge id (b.apply token).doc.count with lt | ge
    · rw [← records.new id new lt, isElement]
    · rw [Document.node_of_count_le ge] at isElement
      cases isElement

theorem kind_start_ne_element (text uri : Text) (mode : Mode) (id : Nat) (e : Element) :
    ((start text uri mode).doc.node id).kind ≠ .element e := by
  intro isElement
  rcases kind_start text uri mode id with kind | ⟨-, -, kind⟩ <;>
    cases kind.symm.trans isElement

/-! ### What is closed -/

/-- The end of a tag closes the current element. -/
private theorem closed_closeTag_iff (linked : b.Linked) (isElement : b.doc.frame id = .element)
    (stop : Nat) : ((b.closeTag stop).doc.node id).closed = true ↔
      (b.doc.node id).closed = true ∨ id = b.current := by
  rw [doc_closeTag]
  by_cases isCurrent : id = b.current
  · subst isCurrent
    have notRoot : b.current ≠ Document.root := by
      apply linked.doc.ne_root_of_frame
      rw [isElement]
      decide
    obtain ⟨parent, -, eq⟩ := exists_close_eq linked notRoot stop
    rw [eq, Document.node_modify _ linked.current_lt, if_pos rfl]
    exact iff_of_true rfl (.inr rfl)
  · rw [node_close linked stop isCurrent, or_iff_left isCurrent]

/-- The name of an end tag closes the element that it matches. -/
private theorem closed_nameEndTag_iff (linked : b.Linked) (lt : id < b.doc.count) :
    ((b.nameEndTag token).doc.node id).closed = true ↔
      (b.doc.node id).closed = true ∨ id = (b.nameEndTag token).current := by
  rcases nameEndTag_cases b token with
    ⟨below, element, around, path, isMatch, others, eq⟩ | ⟨others, -⟩
  · have closes := closesElement_nameEndTag linked path isMatch others
    obtain ⟨data, -, node_eq⟩ := closes.element_eq
    have current : (b.nameEndTag token).current = element := by rw [eq]
    rw [current]
    by_cases isElement : id = element
    · rw [isElement, node_eq]
      exact iff_of_true rfl (.inr rfl)
    · rw [or_iff_left isElement]
      by_cases isBelow : id ∈ below
      · rw [closes.below_eq id isBelow]
      · rw [closes.others_eq id isElement isBelow]
  · have adds := addsElement_nameEndTag linked others
    have isNew : (b.nameEndTag token).current = b.doc.count :=
      congrArg Builder.current adds.builder_eq
    rw [isNew, or_iff_left (Nat.ne_of_lt lt), adds.others_eq id lt]

/-- Other tokens close no element that was there. -/
private theorem closed_apply_eq (linked : b.Linked) (lt : id < b.doc.count)
    (isElement : b.doc.frame id = .element) (notEnd : ¬ token.kind.Closes)
    (notName : token.kind ≠ .endTag) :
    ((b.apply token).doc.node id).closed = (b.doc.node id).closed := by
  obtain ⟨moved, written, grown, stages⟩ := hasStages_apply linked token
  have count := (stages.returned (frame_rewrite b token) linked).doc.count_eq
  rw [(stages.grows.node_eq (stages.grown_linked (frame_rewrite b token) linked) (count ▸ lt)).2,
    stages.closed_eq_of_element (frame_rewrite b token) linked isElement notEnd notName]

/-- A token closes an element that was there if it ends a tag and the element is the current one, or
if it names an end tag that the element matches. -/
theorem closed_apply_iff (linked : b.Linked) (lt : id < b.doc.count)
    (isElement : b.doc.frame id = .element) :
    ((b.apply token).doc.node id).closed = true ↔ (b.doc.node id).closed = true ∨
      token.kind.Closes ∧ id = b.current ∨ token.kind = .endTag ∧ id = (b.apply token).current := by
  by_cases closes : token.kind.Closes
  · have notName : ¬ (token.kind = .endTag ∧ id = (b.apply token).current) := by
      rintro ⟨isName, -⟩
      rw [isName] at closes
      cases closes
    rw [or_iff_left notName, and_iff_right closes]
    obtain ⟨change, -, eq⟩ := exists_markAndClose b closes
    have marked := retouched_modifyKind (NodeKind.frame_modifyElement change) b
    have same : ((b.modifyKind (.modifyElement change)).doc.node id).closed =
        (b.doc.node id).closed := by
      rw [modifyKind, Document.node_modify _ linked.current_lt]
      split
      · next isCurrent => rw [isCurrent, Node.modifyKind]
      · rfl
    rw [eq, closed_closeTag_iff (marked.linked linked) ((marked.doc.frame_eq id).trans isElement),
      same, marked.current_eq]
  · rw [or_iff_right fun ends : token.kind.Closes ∧ id = b.current ↦ closes ends.1]
    by_cases isName : token.kind = .endTag
    · rw [and_iff_right isName]
      simp only [apply, isName]
      exact closed_nameEndTag_iff linked lt
    · rw [closed_apply_eq linked lt isElement closes isName, or_iff_left fun named ↦ isName named.1]

end Builder

end TolerantXml
