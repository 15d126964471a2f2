import TolerantXml.Proofs.Print.ReadBack
import TolerantXml.Proofs.Reading.Passes

/-!
# Reading undoes printing

A printed start tag passes a builder on to one that has the element open (`passes_opening`), and a
printed element to one that has the element if the forest in it is read as it was printed
(`isTaken_element`). So every well-formed forest is read as it was printed
(`Forest.WellFormed.isTaken`), and its text has the document that holds the forest (`parse_print`).
-/

namespace TolerantXml

open Scanner

variable {config : Config} {b b' : Builder} {tail : Text} {start inner : Nat}

/-! ### Start tags -/

/-- The configurations in which attributes are read. -/
structure Scanner.Config.AtTag (config : Config) : Prop where
  state_eq : config.state = .tag
  noProlog : config.inProlog = false

private theorem Scanner.Config.AtTag.leaveTag (atTag : config.AtTag) :
    config.leaveTag.AtContent where
  state_eq := by
    rw [Config.leaveTag, atTag.noProlog]
    rfl
  noProlog := rfl

/-- A printed attribute is read into the open element, behind its other attributes. -/
private theorem passes_attribute {e : Element} {attr : Text × Text} (atTag : config.AtTag)
    (opened : b.Opened (.element e) start .nil inner b') (lt : b.current < b.doc.count)
    (isAttribute : Tag.IsAttribute attr) (new : attr.1 ∉ e.attributes.map (·.name))
    (offset : Nat) (tail : Text) :
    ∃ config' b'', Passes (Tag.printAttribute attr) tail config offset b' config' b'' ∧
      config'.AtTag ∧
      b.Opened
        (.element { e with attributes := e.attributes ++ [Tag.attributeAt offset attr] })
        start .nil inner b'' := by
  obtain ⟨nonempty, isName, isValue⟩ := isAttribute
  let quoted := Text.quote Text.doubleQuote attr.2
  have isQuoted : quoted ≠ [] := List.cons_ne_nil _ _
  have spaceEnds : ∀ c ∈ (attr.1 ++ (['='] ++ (quoted ++ tail))).head?, isSpace c = false := by
    rw [List.head?_append_of_ne_nil _ nonempty]
    intro c head
    exact Lexeme.isSpace_of_isAttributeNameChar
      (List.all_eq_true.1 isName c (List.mem_of_mem_head? head))
  have nameEnds : ∀ c ∈ (['='] ++ (quoted ++ tail)).head?,
      Lexeme.isAttributeNameChar false c = false := by
    rintro c ⟨⟩
    decide
  -- The configurations behind the space, the name and the assignment sign.
  let spaced : Config := { config with spaceSeen := true }
  let named : Config := { spaced with state := .assign, spaceSeen := false }
  have inTag : spaced.state = .tag := atTag.state_eq
  have inAssign : named.state = .assign := rfl
  have inValue : (named.moveTo .attributeValue).state = .attributeValue := rfl
  let token : Token := ⟨.attributeName, ⟨offset + 1, offset + 1 + attr.1.byteSize⟩, attr.1⟩
  obtain ⟨afterName, pending⟩ := opened.nameAttribute lt token new
  rw [opened.current_eq, ← afterName.current_eq] at pending
  have readSpace := passes_token (by decide) (step_tagSpace atTag.state_eq spaceEnds) offset b'
  have readName := passes_token nonempty
    (step_attributeName inTag atTag.noProlog rfl nonempty isName nameEnds) (offset + 1) b'
  have readAssign := passes_token (by decide)
    (fun before ↦ step_assign inAssign before (quoted ++ tail))
    (offset + Text.byteSize ([' '] ++ attr.1)) (b'.nameAttribute token)
  have readValue := passes_token isQuoted
    (fun before ↦ step_attributeValue inValue isValue before tail)
    (offset + Text.byteSize ([' '] ++ attr.1 ++ ['='])) (b'.nameAttribute token)
  refine ⟨_, _, ((readSpace.append readName).append readAssign).append readValue,
    ⟨rfl, atTag.noProlog⟩, afterName.setAttributeValue lt pending ?_⟩
  rw [NodeKind.modifyAttributes, modify_concat]
  exact congrArg (fun new ↦ NodeKind.element { e with attributes := e.attributes ++ [new] })
    (Tag.withValue_quote offset attr)

/-- Printed attributes are read into the open element, if it has none of their names. -/
private theorem passes_attributes {attributes : List (Text × Text)} {e : Element}
    (atTag : config.AtTag) (opened : b.Opened (.element e) start .nil inner b')
    (lt : b.current < b.doc.count)
    (areAttributes : ∀ attr ∈ attributes, Tag.IsAttribute attr)
    (distinct : (e.attributes.map (·.name) ++ attributes.map Prod.fst).Nodup) (offset : Nat)
    (tail : Text) :
    ∃ config' b'', Passes (Tag.printAttributes attributes) tail config offset b' config' b'' ∧
      config'.AtTag ∧
      b.Opened
        (.element { e with attributes := e.attributes ++ Tag.attributesAt offset attributes })
        start .nil inner b'' := by
  induction attributes generalizing config b' e offset with
  | nil =>
    rw [Tag.attributesAt, List.append_nil]
    exact ⟨config, b', .refl tail config offset b', atTag, opened⟩
  | cons attr attributes ih =>
    obtain ⟨isAttribute, others⟩ := List.forall_mem_cons.1 areAttributes
    have new : attr.1 ∉ e.attributes.map (·.name) := by
      intro mem
      exact (List.nodup_append.1 distinct).2.2 attr.1 mem attr.1 List.mem_cons_self rfl
    obtain ⟨config₁, b₁, passes₁, atTag₁, opened₁⟩ := passes_attribute atTag opened lt isAttribute
      new offset (Tag.printAttributes attributes ++ tail)
    have distinct₁ : ((e.attributes ++ [Tag.attributeAt offset attr]).map (·.name) ++
        attributes.map Prod.fst).Nodup := by
      rw [List.map_append, List.append_assoc]
      exact distinct
    obtain ⟨config₂, b₂, passes₂, atTag₂, opened₂⟩ :=
      ih atTag₁ opened₁ others distinct₁ (offset + (Tag.printAttribute attr).byteSize)
    refine ⟨config₂, b₂, passes₁.append passes₂, atTag₂, ?_⟩
    rw [List.append_assoc] at opened₂
    exact opened₂

/-- A start tag is read up to its end. -/
theorem passes_opening {tag : Tag} (wellFormed : tag.WellFormed)
    (ends : ∀ c ∈ tail.head?, isNameChar c = false) (atContent : config.AtContent)
    (takes : b.TakesItems) (offset inner : Nat) :
    ∃ config' b', Passes tag.opening tail config offset b config' b' ∧ config'.AtTag ∧
      b.Opened (.element (tag.opened offset)) offset .nil inner b' := by
  obtain ⟨isName, distinct, attributes⟩ := wellFormed
  have lt := takes.current_lt
  have nameEnds : ∀ c ∈ (Tag.printAttributes tag.attributes ++ tail).head?,
      isNameChar c = false := by
    cases tag.attributes with
    | nil => exact ends
    | cons attr rest =>
      rintro c ⟨⟩
      decide
  let token : Token := ⟨.startTag, ⟨offset + 1, offset + 1 + tag.name.byteSize⟩, tag.name⟩
  let inside : Config := { config with state := .startTagName, spaceSeen := false }
  have inName : inside.state = .startTagName := rfl
  have atTag : (inside.moveTo .tag).AtTag := ⟨rfl, atContent.noProlog⟩
  have unnamed : b.Opened (.element { startTagOpen := some offset }) offset .nil inner
      (b.openElement ⟨offset, offset + Text.byteSize ['<']⟩) :=
    (Builder.grown_setCurrentStop lt offset inner).openNode lt _ _ _ _
  have readOpen := passes_token (by decide) (fun before ↦ step_startTagOpen atContent.state_eq
    isName before (Tag.printAttributes tag.attributes ++ tail)) offset b
  have readName := passes_token (ne_nil_of_isName isName) (step_startTag inName isName nameEnds)
    (offset + 1) (b.openElement ⟨offset, offset + Text.byteSize ['<']⟩)
  obtain ⟨config', b', readAttributes, atTag', opened⟩ :=
    passes_attributes atTag (unnamed.nameElement lt token) lt attributes distinct
      (offset + Text.byteSize (['<'] ++ tag.name)) tail
  refine ⟨config', b', (readOpen.append readName).append readAttributes, atTag', ?_⟩
  rw [Text.byteSize_append, ← Nat.add_assoc] at opened
  exact opened

/-! ### Elements -/

/-- An element that is closed at once is read as it was printed. -/
private theorem isTaken_selfClosed {tag : Tag} (wellFormed : tag.WellFormed)
    (selfClosed : tag.selfClosed = true) (tail : Text) :
    (Forest.element tag .nil .nil).IsTaken tail := by
  intro config offset b atContent takes
  have lt := takes.current_lt
  have nameEnds : ∀ c ∈ (Delimiter.emptyTagClose ++ tail).head?, isNameChar c = false := by
    rintro c ⟨⟩
    decide
  obtain ⟨config', b', opening, atTag, opened⟩ := passes_opening wellFormed nameEnds atContent takes
    offset (offset + tag.opening.byteSize + 1)
  have closing := passes_token (by decide)
    (fun before ↦ step_emptyTagClose atTag.state_eq atTag.noProlog before tail)
    (offset + tag.opening.byteSize) b'
  have complete : b.Opened (.element (tag.element offset .nil)) offset .nil
      (offset + tag.opening.byteSize + 1)
      (b'.modifyKind (.modifyElement fun e ↦ { e with selfClosed := true })) := by
    rw [Tag.element, if_pos selfClosed]
    exact opened.modifyKind lt rfl
  have grown := complete.grown_closeTag lt
  rw [Forest.print_selfClosed selfClosed, Text.byteSize_append, ← Nat.add_assoc] at grown
  refine ⟨_, _, ?_, atTag.leaveTag, grown⟩
  rw [Forest.print_selfClosed selfClosed]
  exact opening.append closing

/-- The end tag of the open element is read as far as it closes the element. -/
private theorem passes_ending {tag : Tag} {e : Element} {children : Forest}
    (wellFormed : tag.WellFormed) (atContent : config.AtContent)
    (opened : b.Opened (.element e) start children inner b') (tagName : e.tagName = some tag.name)
    (lt : b.current < b.doc.count) (offset : Nat) (tail : Text) :
    ∃ config' b'', Passes tag.ending tail config offset b' config'
        (b''.closeTag (offset + tag.ending.byteSize)) ∧
      config'.AtContent ∧
      b.Opened
        (.element
          { e with
            endTagOpen := some offset
            endTagClose := some (offset + Delimiter.endTagOpen.byteSize + tag.name.byteSize) })
        start children inner b'' := by
  have isName := wellFormed.1
  have nameEnds : ∀ c ∈ (['>'] ++ tail).head?, isNameChar c = false := by
    rintro c ⟨⟩
    decide
  have inName : (config.moveTo .endTagName).state = .endTagName := rfl
  have inEnd : ((config.moveTo .endTagName).moveTo .endTag).state = .endTag := rfl
  let span : Span := ⟨offset, offset + Delimiter.endTagOpen.byteSize⟩
  let token : Token := ⟨.endTag, ⟨span.stop, span.stop + tag.name.byteSize⟩, tag.name⟩
  have reopened := opened.openEndTag lt span
  have named := reopened.nameEndTag lt token (Builder.endTagOpen_openEndTag b' span) tagName
  have readOpen := passes_token (by decide) (fun before ↦ step_endTagOpen atContent.state_eq before
    (tag.name ++ (['>'] ++ tail))) offset b'
  have readName := passes_token (ne_nil_of_isName isName) (step_endTag inName isName nameEnds)
    span.stop (b'.openEndTag span)
  have readClose := passes_token (by decide) (fun before ↦ step_endTagClose inEnd before tail)
    (offset + Text.byteSize (Delimiter.endTagOpen ++ tag.name))
    ((b'.openEndTag span).nameEndTag token)
  have passes := (readOpen.append readName).append readClose
  have isClose : Text.byteSize (Delimiter.endTagOpen ++ tag.name) =
      Delimiter.endTagOpen.byteSize + tag.name.byteSize := Text.byteSize_append _ _
  have isStop : Text.byteSize (Delimiter.endTagOpen ++ tag.name) + Text.byteSize ['>'] =
      tag.ending.byteSize := (Text.byteSize_append _ _).symm
  rw [Nat.add_assoc, isStop, isClose, ← Nat.add_assoc] at passes
  exact ⟨_, _, passes, ⟨rfl, atContent.noProlog⟩, named.modifyKind lt rfl⟩

/-- An element of two tags is read as it was printed, if what is between them is. -/
theorem isTaken_element {tag : Tag} {children : Forest} (wellFormed : tag.WellFormed)
    (notSelfClosed : tag.selfClosed = false) (isTaken : children.IsTaken (tag.ending ++ tail)) :
    (Forest.element tag children .nil).IsTaken tail := by
  intro config offset b atContent takes
  have lt := takes.current_lt
  have nameEnds : ∀ c ∈ (['>'] ++ (children.print ++ (tag.ending ++ tail))).head?,
      isNameChar c = false := by
    rintro c ⟨⟩
    decide
  let inner := offset + tag.opening.byteSize
  let outer := inner + 1 + children.print.byteSize
  obtain ⟨config₁, b₁, opening, atTag, opened₁⟩ :=
    passes_opening wellFormed nameEnds atContent takes offset (inner + 1)
  have startClose := passes_token (by decide) (fun before ↦
    step_startTagClose atTag.state_eq atTag.noProlog before
      (children.print ++ (tag.ending ++ tail))) inner b₁
  have opened₂ := opened₁.endStartTag lt ⟨inner, inner + 1⟩
  have takes₂ : (b₁.endStartTag ⟨inner, inner + 1⟩).TakesItems := by
    refine ⟨opened₂.current_lt, ?_⟩
    rw [opened₂.kind_eq]
    rfl
  obtain ⟨config₂, b₂, content, atContent₂, grown⟩ :=
    isTaken _ (inner + 1) _ atTag.leaveTag takes₂
  obtain ⟨config₃, b₃, ending, atContent₃, opened₃⟩ :=
    passes_ending wellFormed atContent₂ (opened₂.grown grown lt) rfl lt outer tail
  have isInner : offset + Text.byteSize (tag.opening ++ ['>']) = inner + 1 := by
    rw [Text.byteSize_append, ← Nat.add_assoc]
    rfl
  have isOuter : offset + Text.byteSize (tag.opening ++ ['>'] ++ children.print) = outer := by
    rw [Text.byteSize_append, ← Nat.add_assoc, isInner]
  have isStop : offset + (Forest.element tag children .nil).print.byteSize =
      outer + tag.ending.byteSize := by
    rw [Forest.print_element notSelfClosed, Text.byteSize_append, ← Nat.add_assoc, isOuter]
  have complete : b.Opened (.element (tag.element offset children)) offset children (inner + 1)
      b₃ := by
    rw [Tag.element, notSelfClosed, if_neg Bool.false_ne_true]
    exact opened₃
  refine ⟨config₃, b₃.closeTag (outer + tag.ending.byteSize), ?_, atContent₃, ?_⟩
  · rw [Forest.print_element notSelfClosed]
    have inside : Passes (tag.opening ++ ['>'] ++ children.print) (tag.ending ++ tail) config
        offset b config₂ b₂ := by
      apply (opening.append startClose).append
      rw [isInner]
      exact content
    apply inside.append
    rw [isOuter]
    exact ending
  · rw [← isStop]
    exact complete.grown_closeTag lt

/-! ### Forests -/

/-- In front of markup or the end of the text, a forest that does not start with a text starts with
markup. -/
private theorem Forest.head_print {forest : Forest} (notText : forest.startsWithText = false)
    (ends : ∀ c ∈ tail.head?, c = '<') : ∀ c ∈ (forest.print ++ tail).head?, c = '<' := by
  cases forest with
  | nil => exact ends
  | leaf first rest =>
    cases first with
    | text content => cases notText
    | comment content => rintro c ⟨⟩; rfl
    | cdata content => rintro c ⟨⟩; rfl
    | instruction target data => rintro c ⟨⟩; rfl
  | element tag children rest => rintro c ⟨⟩; rfl

/-- In front of markup or the end of the text, a well-formed forest is read as it was printed. -/
theorem Forest.WellFormed.isTaken {forest : Forest} (wellFormed : forest.WellFormed)
    (ends : ∀ c ∈ tail.head?, c = '<') : forest.IsTaken tail := by
  induction forest generalizing tail with
  | nil => exact isTaken_nil tail
  | leaf first rest ih =>
    obtain ⟨isLeaf, isRest, notText⟩ := wellFormed
    have isFirst : (leaf first nil).IsTaken (rest.print ++ tail) := by
      cases first with
      | text content => exact isTaken_text isLeaf (head_print (notText rfl) ends)
      | comment content => exact isTaken_comment isLeaf _
      | cdata content => exact isTaken_cdata isLeaf _
      | instruction target data => exact isTaken_instruction isLeaf _
    exact isFirst.append (ih isRest ends)
  | element tag children rest ihChildren ih =>
    obtain ⟨isTag, empty, isChildren, isRest⟩ := wellFormed
    have isFirst : (element tag children nil).IsTaken (rest.print ++ tail) := by
      cases selfClosed : tag.selfClosed with
      | true =>
        rw [empty selfClosed]
        exact isTaken_selfClosed isTag selfClosed _
      | false =>
        apply isTaken_element isTag selfClosed
        apply ihChildren isChildren
        rintro c ⟨⟩
        rfl
    exact isFirst.append (ih isRest ends)

/-! ### Documents -/

/-- A builder that is back at the root leaves the document as it is. -/
private theorem Builder.Grown.finish_eq {text uri : Text} {forest : Forest} {b : Builder}
    (grown : (Builder.start text uri .xml).Grown forest 0 b) : b.finish = b.doc := by
  have atRoot : b.current = Document.root := grown.current_eq
  obtain ⟨stop, node⟩ := grown.around
  have noParent : (b.doc.node Document.root).parent = none := by
    show (b.doc.node (Builder.start text uri .xml).current).parent = none
    rw [node]
    rfl
  rw [finish, atRoot, Document.path, Document.ancestors_of_none noParent, List.foldl_cons,
    List.foldl_nil, setStop, if_pos rfl]

/-- The document of a printed forest has the nodes of the forest below the root, and no others. -/
theorem laid_parse {forest : Forest} (wellFormed : forest.WellFormed) (uri : Text) :
    let doc := Document.parse forest.print uri .xml
    doc.text = forest.print ∧ doc.count = 1 + forest.size ∧
      (doc.node Document.root).kind = .document ∧
      doc.children Document.root = forest.roots 1 ∧ forest.Laid doc Document.root 1 0 := by
  let b := Builder.start forest.print uri .xml
  have atContent : (Config.initial .xml).AtContent := ⟨rfl, rfl⟩
  have takes : b.TakesItems := ⟨Nat.one_pos, rfl⟩
  have isTaken : forest.IsTaken [] := wellFormed.isTaken (by simp)
  obtain ⟨config, b', passes, -, grown⟩ := isTaken (.initial .xml) 0 b atContent takes
  have atStart :
      (Reading.start forest.print uri .xml).At (.initial .xml) 0 (forest.print ++ []) b :=
    ⟨rfl, rfl, (List.append_nil _).symm, rfl⟩
  obtain ⟨n, atEnd⟩ := passes _ atStart
  have isDoc : Document.parse forest.print uri .xml = b'.doc := by
    rw [Reading.parse_eq_finish atEnd.rest_eq, atEnd.builder_eq, grown.finish_eq]
  obtain ⟨stop, node⟩ := grown.around
  have root : b'.doc.node Document.root = _ := node
  rw [isDoc]
  refine ⟨grown.text_eq, grown.count_eq, ?_, ?_, grown.laid⟩
  · rw [root]
    rfl
  · rw [Document.children, root]
    rfl

/-- Parsing undoes printing. The document of a printed forest has just that forest below its root,
its nodes are where the items were printed, and each but the root is closed and covers what its item
is printed to. -/
theorem parse_print {forest : Forest} (wellFormed : forest.WellFormed) (uri : Text) :
    let doc := Document.parse forest.print uri .xml
    doc.below Document.root = forest ∧
      (doc.node Document.root).kind = .document ∧
      doc.children Document.root = forest.roots 1 ∧
      forest.Laid doc Document.root 1 0 ∧
      doc.count = 1 + forest.size ∧
      ∀ id, id ≠ Document.root → id < doc.count → doc.Covers id := by
  intro doc
  obtain ⟨text, count, isRoot, children, laid⟩ := laid_parse wellFormed uri
  have cut : doc.text = [] ++ forest.print ++ [] := by
    rw [List.nil_append, List.append_nil]
    exact text
  have behind : Document.root < 1 := Nat.one_pos
  have inside : 1 + forest.size ≤ doc.count := count.ge
  refine ⟨?_, isRoot, children, laid, count, ?_⟩
  · rw [Document.below_eq_gather, children]
    exact laid.gather_eq wellFormed cut rfl behind inside
  · intro id notRoot lt
    have ge : 1 ≤ id := Nat.one_le_iff_ne_zero.2 notRoot
    exact laid.covers wellFormed cut rfl behind inside ge (count ▸ lt)

/-- A paragraph with text and an empty element in it, and a comment behind it. -/
theorem parse_print_paragraph :
    let forest : Forest :=
      .element ⟨['p'], [(['k'], ['v', '>'])], false⟩
        (.leaf (.text ['x']) (.element ⟨['p'], [], true⟩ .nil .nil))
        (.leaf (.comment ['-']) .nil)
    forest.WellFormed ∧ (Document.parse forest.print [] .xml).below Document.root = forest := by
  intro forest
  have wellFormed : forest.WellFormed := by decide
  exact ⟨wellFormed, (parse_print wellFormed []).1⟩

end TolerantXml
