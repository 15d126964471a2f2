import TolerantXml.Proofs.Print.Forest

/-!
# Reading a forest off a document

The nodes below a node of a document are the items of a forest (`Document.below`). If they are those
of a printed forest, it is that forest (`Forest.Laid.gather_eq`), and each of them is closed and
covers what its item is printed to (`Forest.Laid.covers`).
-/

namespace TolerantXml

namespace Document

/-- The item that a node is, if it is one, with a forest in it and another behind it. -/
def item (doc : Document) (id : Nat) (children rest : Forest) : Forest :=
  match (doc.node id).kind with
  | .element e =>
    .element
      { name := e.tagName.getD []
        attributes := e.attributes.map fun attr ↦ (attr.name, attr.value.getD [])
        selfClosed := e.selfClosed }
      children rest
  | .text => .leaf (.text (doc.nodeText id)) rest
  | .comment _ => .leaf (.comment ((doc.contentText id).getD [])) rest
  | .cdata _ => .leaf (.cdata ((doc.contentText id).getD [])) rest
  | .instruction i =>
    .leaf (.instruction (i.target.getD []) ((doc.contentText id).getD [])) rest
  | _ => rest

/-- The forest below a node. -/
def below (doc : Document) (id : Nat) : Forest :=
  (doc.children id).foldr
    (fun child rest ↦
      if _h : id < child ∧ child < doc.count then doc.item child (doc.below child) rest
      else rest)
    .nil
termination_by doc.count - id
decreasing_by omega

/-- The items of nodes that come behind another. -/
def gather (doc : Document) (parent : Nat) (ids : List Nat) : Forest :=
  ids.foldr
    (fun id rest ↦
      if parent < id ∧ id < doc.count then doc.item id (doc.below id) rest else rest)
    .nil

theorem below_eq_gather (doc : Document) (id : Nat) :
    doc.below id = doc.gather id (doc.children id) := by
  rw [below, gather]
  simp only [dite_eq_ite]

theorem gather_cons {doc : Document} {parent id : Nat} (after : parent < id)
    (lt : id < doc.count) (ids : List Nat) :
    doc.gather parent (id :: ids) = doc.item id (doc.below id) (doc.gather parent ids) := by
  rw [gather, List.foldr_cons, if_pos ⟨after, lt⟩, ← gather]

/-- A node is closed and covers what its item is printed to. -/
def Covers (doc : Document) (id : Nat) : Prop :=
  (doc.node id).closed = true ∧ doc.nodeText id = (doc.item id (doc.below id) .nil).print

end Document

variable {doc : Document} {forest : Forest} {parent id first offset : Nat}
  {before after content : Text}

/-! ### Slices -/

private theorem textOf_eq (text : doc.text = before ++ content ++ after) :
    doc.textOf ⟨before.byteSize, before.byteSize + content.byteSize⟩ = content := by
  rw [Document.textOf, text, Span.text_eq]

/-- What stands between the delimiters of a node is what the text has there. -/
private theorem contentText_eq (before after : Text)
    (isSpan : (doc.node id).kind.content = contentSpan offset content)
    (text : doc.text = before ++ content ++ after) (atOffset : before.byteSize = offset) :
    (doc.contentText id).getD [] = content := by
  rw [Document.contentText, isSpan, contentSpan]
  split
  · next empty => exact empty.symm
  · rw [← atOffset]
    exact textOf_eq text

/-! ### Items -/

/-- What stands in the node of a leaf is what stands in the leaf. -/
private theorem item_leaf {leaf : Leaf} {sameLine : Bool}
    (node : doc.node id = ⟨leaf.kind before.byteSize sameLine, before.byteSize,
      before.byteSize + leaf.print.byteSize, true, some parent, []⟩)
    (text : doc.text = before ++ leaf.print ++ after) (children rest : Forest) :
    doc.item id children rest = .leaf leaf rest := by
  have kind : (doc.node id).kind = leaf.kind before.byteSize sameLine := by rw [node]
  cases leaf with
  | text content =>
    have isText : doc.nodeText id = content := by
      rw [Document.nodeText, node]
      exact textOf_eq text
    simp only [Document.item, kind, Leaf.kind, isText]
  | comment content =>
    have isContent : (doc.contentText id).getD [] = content := by
      apply contentText_eq (before ++ Delimiter.commentOpen) (Delimiter.commentClose ++ after)
      · rw [kind]
        rfl
      · rw [text, Leaf.print]
        simp only [List.append_assoc]
      · exact Text.byteSize_append _ _
    simp only [Document.item, kind, Leaf.kind, isContent]
  | cdata content =>
    have isContent : (doc.contentText id).getD [] = content := by
      apply contentText_eq (before ++ Delimiter.cdataOpen) (Delimiter.cdataClose ++ after)
      · rw [kind]
        rfl
      · rw [text, Leaf.print]
        simp only [List.append_assoc]
      · exact Text.byteSize_append _ _
    simp only [Document.item, kind, Leaf.kind, isContent]
  | instruction target data =>
    have isContent : (doc.contentText id).getD [] = data := by
      by_cases empty : data = []
      · rw [Document.contentText, kind, empty]
        rfl
      · apply contentText_eq (before ++ Delimiter.instructionOpen ++ target ++ [' '])
          (Delimiter.instructionClose ++ after)
        · rw [kind]
          rfl
        · rw [text, Leaf.print, Leaf.printData, if_neg empty]
          simp only [List.append_assoc, List.cons_append, List.nil_append]
        · simp only [Text.byteSize_append]
          rfl
    simp only [Document.item, kind, Leaf.kind, isContent, Option.getD_some]

/-- What stands in the node of an element are its tags. -/
private theorem item_element {tag : Tag} {printed : Forest}
    (kind : (doc.node id).kind = .element (tag.element offset printed))
    (children rest : Forest) : doc.item id children rest = .element tag children rest := by
  simp only [Document.item, kind, Tag.tagName_element, Tag.attributes_element,
    Tag.selfClosed_element, Tag.attributesAt_pairs, Option.getD_some]

/-! ### Forests -/

namespace Forest

/-- Where a forest is printed, an item and the items behind it are. -/
theorem text_append (item rest : Forest)
    (text : doc.text = before ++ (item.append rest).print ++ after) :
    doc.text = before ++ item.print ++ (rest.print ++ after) ∧
      doc.text = before ++ item.print ++ rest.print ++ after := by
  rw [print_append] at text
  simp only [List.append_assoc] at text ⊢
  exact ⟨text, text⟩

/-- Where an element is printed, the forest in it is. -/
private theorem text_inside {tag : Tag} {children rest : Forest}
    (empty : tag.selfClosed = true → children = .nil)
    (text : doc.text = before ++ (element tag children rest).print ++ after) :
    children = .nil ∨ doc.text = before ++ tag.opening ++ ['>'] ++ children.print ++
      (tag.ending ++ rest.print ++ after) := by
  cases selfClosed : tag.selfClosed with
  | true => exact .inl (empty selfClosed)
  | false =>
    rw [print, selfClosed, if_neg Bool.false_ne_true] at text
    simp only [List.append_assoc] at text ⊢
    exact .inr text

/-- The forest in an element starts behind the start tag. -/
theorem size_inside (before : Text) (tag : Tag) :
    Text.byteSize (before ++ tag.opening ++ ['>']) =
      before.byteSize + tag.opening.byteSize + 1 := by
  simp only [Text.byteSize_append]
  rfl

/-- The nodes of a printed forest make up that forest. -/
theorem Laid.gather_eq (laid : forest.Laid doc parent first offset)
    (wellFormed : forest.WellFormed) (text : doc.text = before ++ forest.print ++ after)
    (atOffset : before.byteSize = offset) (behind : parent < first)
    (inside : first + forest.size ≤ doc.count) :
    doc.gather parent (forest.roots first) = forest := by
  induction forest generalizing parent first offset before after with
  | nil => rfl
  | leaf leaf rest ih =>
    obtain ⟨⟨sameLine, node⟩, others⟩ := laid
    obtain ⟨textFirst, textRest⟩ := text_append (Forest.leaf leaf nil) rest text
    subst atOffset
    rw [size] at inside
    rw [print_leaf] at textFirst textRest
    have isRest :=
      ih others wellFormed.2.1 textRest (Text.byteSize_append _ _) (by omega) (by omega)
    rw [roots, Document.gather_cons behind (by omega), isRest]
    exact item_leaf node textFirst _ _
  | element tag children rest ihChildren ih =>
    obtain ⟨node, below, others⟩ := laid
    obtain ⟨-, empty, isChildren, isRest⟩ := wellFormed
    obtain ⟨textFirst, textRest⟩ := text_append (element tag children nil) rest text
    subst atOffset
    rw [size] at inside
    have isBelow : doc.below first = children := by
      rw [Document.below_eq_gather, Document.children, node]
      rcases text_inside empty text with rfl | textInside
      · rfl
      · exact ihChildren below isChildren textInside (size_inside _ _) (by omega) (by omega)
    have isOthers :=
      ih others isRest textRest (Text.byteSize_append _ _) (by omega) (by omega)
    rw [roots, Document.gather_cons behind (by omega), isBelow, isOthers]
    exact item_element (by rw [node]) _ _

/-- The node of a single printed item covers it. -/
private theorem Laid.covers_item {item : Forest} (laid : item.Laid doc parent id before.byteSize)
    (wellFormed : item.WellFormed) (text : doc.text = before ++ item.print ++ after)
    (behind : parent < id) (inside : id + item.size ≤ doc.count) (nonempty : 0 < item.size)
    (single : item.roots id = [id]) (closed : (doc.node id).closed = true)
    (span : (doc.node id).span = ⟨before.byteSize, before.byteSize + item.print.byteSize⟩) :
    doc.Covers id := by
  have isItem := laid.gather_eq wellFormed text rfl behind inside
  rw [single, Document.gather_cons behind (by omega)] at isItem
  refine ⟨closed, ?_⟩
  rw [Document.nodeText, span, textOf_eq text]
  exact congrArg print isItem.symm

/-- Every node of a printed forest covers its item. -/
theorem Laid.covers (laid : forest.Laid doc parent first offset)
    (wellFormed : forest.WellFormed) (text : doc.text = before ++ forest.print ++ after)
    (atOffset : before.byteSize = offset) (behind : parent < first)
    (inside : first + forest.size ≤ doc.count) (ge : first ≤ id) (lt : id < first + forest.size) :
    doc.Covers id := by
  induction forest generalizing parent first offset before after with
  | nil =>
    rw [size] at lt
    omega
  | leaf leaf rest ih =>
    obtain ⟨⟨sameLine, node⟩, others⟩ := laid
    obtain ⟨textFirst, textRest⟩ := text_append (Forest.leaf leaf nil) rest text
    subst atOffset
    rw [size] at inside lt
    by_cases isFirst : id = first
    · subst isFirst
      have laid : (Forest.leaf leaf nil).Laid doc parent id before.byteSize :=
        ⟨⟨sameLine, node⟩, trivial⟩
      apply laid.covers_item ⟨wellFormed.1, trivial, fun _ ↦ rfl⟩ textFirst behind
      · rw [size, size]
        omega
      · exact Nat.one_pos
      · rfl
      · rw [node]
      · rw [node, print_leaf]
        rfl
    · rw [print_leaf] at textRest
      exact ih others wellFormed.2.1 textRest (Text.byteSize_append _ _) (by omega) (by omega)
        (by omega) (by omega)
  | element tag children rest ihChildren ih =>
    obtain ⟨node, below, others⟩ := laid
    obtain ⟨isTag, empty, isChildren, isRest⟩ := wellFormed
    obtain ⟨textFirst, textRest⟩ := text_append (element tag children nil) rest text
    subst atOffset
    rw [size] at inside lt
    by_cases isFirst : id = first
    · subst isFirst
      have laid : (element tag children nil).Laid doc parent id before.byteSize :=
        ⟨node, below, trivial⟩
      apply laid.covers_item ⟨isTag, empty, isChildren, trivial⟩ textFirst behind
      · rw [size, size]
        omega
      · rw [size]
        omega
      · rfl
      · rw [node]
      · rw [node]
        rfl
    · by_cases isInside : id < first + 1 + children.size
      · rcases text_inside empty text with rfl | textInside
        · rw [size] at isInside
          omega
        · exact ihChildren below isChildren textInside (size_inside _ _) (by omega) (by omega)
            (by omega) isInside
      · exact ih others isRest textRest (Text.byteSize_append _ _) (by omega) (by omega)
          (by omega) (by omega)

end Forest

end TolerantXml
