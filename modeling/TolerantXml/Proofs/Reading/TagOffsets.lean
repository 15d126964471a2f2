import TolerantXml.Proofs.Reading.AttributeAt
import TolerantXml.Proofs.Reading.TagPartner
import TolerantXml.Proofs.Tree.ElementTags

/-!
# The offsets of tags

An element records where its tags open and close. While its start tag is read, nothing but the
opening and the attributes is recorded (`Element.IsUnended`), so the tag is closed once, behind its
attributes and in front of all children and of the end tag. The close of an end tag, and that of an
empty tag, leave the element for good, so what is recorded then stays (`Reading.Ended`). Together
these say that every offset points at its bytes in the text, in order (`tagOffsets_parse`).
-/

namespace TolerantXml

/-- Whether neither the end of the start tag of an element was seen nor anything of its end tag. -/
structure Element.IsUnended (e : Element) : Prop where
  startTagClose : e.startTagClose = none
  endTagOpen : e.endTagOpen = none
  endTagClose : e.endTagClose = none
  selfClosed : e.selfClosed = false

/-- The text of a delimiter that opens a start tag or closes a tag. -/
def TokenKind.tagBracket? : TokenKind → Option Text
  | .startTagOpen => some ['<']
  | .startTagClose | .endTagClose => some ['>']
  | .emptyTagClose => some Delimiter.emptyTagClose
  | _ => none

private theorem Scanner.Config.Emits.eq_of_tagBracket? {config next : Scanner.Config}
    {kind : TokenKind} {taken bracket : Text} (emits : config.Emits kind taken next)
    (isBracket : kind.tagBracket? = some bracket) : taken = bracket := by
  cases emits with
  | startTagOpen | startTagClose | endTagClose | emptyTagClose => exact Option.some.inj isBracket
  | doctypePart _ fills | elementPart _ fills | attlistPart _ fills | entityPart _ fills =>
    cases fills <;> cases isBracket
  | _ => cases isBracket

/-- Two slices that follow each other are one. -/
private theorem Text.slice?_append {text part part' : Text} {start place stop : Nat}
    (head : text.slice? start place = some part) (tail : text.slice? place stop = some part') :
    text.slice? start stop = some (part ++ part') := by
  obtain ⟨first, last, eq, size, rfl⟩ := slice?_eq_some_iff.1 head
  obtain ⟨first', last', eq', size', rfl⟩ := slice?_eq_some_iff.1 tail
  have same : first' ++ (part' ++ last') = (first ++ part) ++ last := by
    rw [← List.append_assoc, ← eq', eq]
  obtain ⟨rfl, rfl⟩ := append_inj_of_byteSize same (by rw [byteSize_append, size, size'])
  refine slice?_eq_some_iff.2 ⟨first, last', ?_, size, ?_⟩
  · rw [eq, List.append_assoc, List.append_assoc, List.append_assoc]
  · rw [byteSize_append, Nat.add_assoc]

namespace Reading

variable {text uri : Text} {mode : Mode} {passed : List Token} {r : Reading} {token : Token}
  {next : Scanner.Config} {id place : Nat} {e e' : Element}

/-- Whether the start tag of an element ends at a place of a text: its attributes come before it,
and its children and its end tag behind it. -/
structure StartTagEnds (text : Text) (r : Reading) (id : Nat) (e : Element) (place : Nat) :
    Prop where
  slice : text.slice? place (place + 1) = some ['>']
  past : r.Past (place + 1)
  attributes : ∀ attr ∈ e.attributes, attr.span.stop ≤ place
  children : ∀ child ∈ r.builder.doc.children id, place < (r.builder.doc.node child).start
  endTag : ∀ opening, e.endTagOpen = some opening → place < opening

/-- What is known of the tags of an element in a reading of a text. -/
structure Started (text : Text) (r : Reading) (id : Nat) (e : Element) : Prop where
  hasTag : e.startTagOpen.isSome = true ∨ e.endTagOpen.isSome = true
  opens : ∀ place, e.startTagOpen = some place → text.slice? place (place + 1) = some ['<']
  closes : ∀ place, e.startTagClose = some place → StartTagEnds text r id e place

/-- What is known of an element in a reading of a text if the end of its end tag was seen, or that
it has none. -/
structure Ended (text : Text) (r : Reading) (id : Nat) (e : Element) : Prop where
  left : e.endTagClose.isSome = true ∨ e.selfClosed = true →
    id ∉ r.builder.doc.path r.builder.current
  closes : ∀ place, e.endTagClose = some place → text.slice? place (place + 1) = some ['>'] ∧
    (r.builder.doc.node id).stop = place + 1 ∧
    ∀ opening, e.endTagOpen = some opening → opening < place
  empty : e.selfClosed = true → { e with selfClosed := false }.IsUnended ∧
    (r.builder.doc.node id).closed = true ∧ r.builder.doc.children id = [] ∧
    ∃ inside, text.slice? (r.builder.doc.node id).start (r.builder.doc.node id).stop =
      some (inside ++ Delimiter.emptyTagClose)

private theorem Ended.of_isOpen (h : Ended text r id e)
    (isOpen : id ∈ r.builder.doc.path r.builder.current) :
    e.endTagClose = none ∧ e.selfClosed = false := by
  constructor
  · rw [← Option.not_isSome_iff_eq_none]
    exact fun isEnded ↦ h.left (.inl isEnded) isOpen
  · rw [Bool.eq_false_iff]
    exact fun isEmpty ↦ h.left (.inr isEmpty) isOpen

private theorem Ended.of_unended (noClose : e.endTagClose = none)
    (notEmpty : e.selfClosed = false) : Ended text r id e where
  left := by simp [noClose, notEmpty]
  closes place isPlace := by cases noClose.symm.trans isPlace
  empty isEmpty := by cases notEmpty.symm.trans isEmpty

/-- What holds of the offsets of tags in a reading of a text, behind some tokens. -/
structure TagsPlaced (text : Text) (mode : Mode) (passed : List Token) (r : Reading) : Prop where
  held : AttributesHeld text mode passed r
  owned : TagsOwned text mode passed r
  unended : r.scanner.config.state.withinTag = true → ∀ e,
    r.builder.currentNode.kind = .element e → e.IsUnended
  started : ∀ id e, (r.builder.doc.node id).kind = .element e → Started text r id e
  ended : ∀ id e, (r.builder.doc.node id).kind = .element e → Ended text r id e

namespace TagsPlaced

theorem rescans (h : TagsPlaced text mode passed r) (rescans : r.scanner.config.Rescans next) :
    TagsPlaced text mode passed ⟨⟨next, r.scanner.cursor⟩, r.builder⟩ where
  held := h.held.rescans rescans
  owned := h.owned.rescans rescans
  unended within := h.unended (rescans.withinTag h.held.cut.nested.inStep.sound within)
  started id e isElement :=
    have started := h.started id e isElement
    { started with
      closes place closed :=
        have closes := started.closes place closed
        { closes with past := closes.past.rescans h.held.cut.nested.inStep.sound rescans } }
  ended id e isElement := { h.ended id e isElement with }

section Emits

variable (h : TagsPlaced text mode passed r) (emits : r.Emits token next)
include h emits

/-- While a start tag is read, its element has no end of it. -/
private theorem unended_apply (within : next.state.withinTag = true)
    (isElement : (r.builder.apply token).currentNode.kind = .element e') : e'.IsUnended := by
  have linked := h.held.cut.nested.inStep.linked
  have sound := h.held.cut.nested.inStep.sound
  cases before : r.scanner.config.state.withinTag with
  | true =>
    have stays := (emits.transition.withinTag_eq sound before).symm.trans within
    have current := r.builder.current_apply_of_staysInTag stays
    rw [Builder.currentNode, current] at isElement
    rcases Builder.element_cases linked isElement with ⟨-, e, isOld, takes⟩ | ⟨isNew, -⟩
    · have unended := h.unended before e isOld
      cases takes with
      | same => exact unended
      | attributes | startTag => exact { unended with }
      | startTagClose kind | emptyTagClose kind | endTag kind | endTagClose kind =>
        rw [kind] at stays
        cases stays
    · exact absurd linked.current_lt (Nat.not_lt_of_le isNew)
  | false =>
    -- The token opens a tag, so the current node is a new one.
    have opens := emits.transition.opensTag_of_withinTag sound before within
    have current := (Builder.tagOpening_of_opensTag linked opens).1
    rcases Builder.element_cases linked isElement with ⟨isOld, -⟩ | ⟨-, added⟩
    · omega
    · cases added with
      | startTag => exact ⟨rfl, rfl, rfl, rfl⟩
      | endTag kind =>
        rw [kind] at opens
        cases opens

omit emits in
private theorem hasTag_apply
    (isElement : ((r.builder.apply token).doc.node id).kind = .element e') :
    e'.startTagOpen.isSome = true ∨ e'.endTagOpen.isSome = true := by
  have linked := h.held.cut.nested.inStep.linked
  rcases Builder.element_cases linked isElement with ⟨-, e, isOld, takes⟩ | ⟨-, added⟩
  · have hasTag := (h.started id e isOld).hasTag
    rw [takes.startTagOpen_eq]
    rcases takes.endTagOpen_cases with same | ⟨-, -, rfl⟩
    · exact same ▸ hasTag
    · exact .inr rfl
  · cases added with
    | startTag => exact .inl rfl
    | endTag => exact .inr rfl

/-- A delimiter of a tag stands in the text where its token starts. -/
private theorem slice?_of_tagBracket? {bracket : Text}
    (isBracket : token.kind.tagBracket? = some bracket) :
    text.slice? token.start (token.start + bracket.byteSize) = some bracket := by
  have slice := h.held.cut.nested.standsIn.slice?_eq emits.starts
  rw [emits.transition.eq_of_tagBracket? isBracket] at slice
  rw [emits.start_eq]
  exact slice

private theorem opens_apply
    (isElement : ((r.builder.apply token).doc.node id).kind = .element e')
    (opened : e'.startTagOpen = some place) : text.slice? place (place + 1) = some ['<'] := by
  have linked := h.held.cut.nested.inStep.linked
  rcases Builder.element_cases linked isElement with ⟨-, e, isOld, takes⟩ | ⟨-, added⟩
  · exact (h.started id e isOld).opens place (takes.startTagOpen_eq ▸ opened)
  · cases added with
    | startTag kind =>
      obtain rfl := Option.some.inj opened
      exact h.slice?_of_tagBracket? emits (by rw [kind]; rfl)
    | endTag => cases opened

/-- The end of a start tag comes behind the attributes, and in front of anything else. -/
private theorem startTagEnds_apply_current
    (kind : token.kind = .startTagClose) (isElement : r.builder.currentNode.kind = .element e) :
    StartTagEnds text ⟨⟨next, r.scanner.cursor.advance token.text⟩, r.builder.apply token⟩
      r.builder.current { e with startTagClose := some token.start } token.start := by
  have nested := h.held.cut.nested
  have linked := nested.inStep.linked
  have atStart := emits.start_eq
  have within : r.scanner.config.state.withinTag = true := by
    rw [emits.transition.state_of_kind kind rfl]
    rfl
  have size : token.text.byteSize = 1 := by
    rw [emits.transition.eq_of_tagBracket? (by rw [kind]; rfl)]
    rfl
  constructor
  case slice => exact h.slice?_of_tagBracket? emits (by rw [kind]; rfl)
  case past => exact past_apply nested.inStep.sound emits (by omega) (by simp [kind])
  case attributes =>
    intro attr mem
    rw [atStart]
    refine (h.held.holds r.builder.current attr ?_).past.le_offset
    rw [Document.attributes, show (r.builder.doc.node r.builder.current).kind = .element e from
      isElement]
    exact mem
  case children =>
    have unchanged := (Builder.takes_apply linked token).children_eq linked
      (.inr (by rw [kind]; rfl) : r.builder.current ∉ r.builder.doc.path r.builder.current ∨ _)
    rw [unchanged, h.held.childless within]
    exact List.forall_mem_nil _
  case endTag =>
    intro opening isOpened
    have none := (h.unended within e isElement).endTagOpen
    cases none.symm.trans isOpened

/-- What comes behind the end of a start tag leaves it as it is. -/
private theorem startTagEnds_apply (lt : id < r.builder.doc.count)
    (isElement : (r.builder.doc.node id).kind = .element e)
    (isElement' : ((r.builder.apply token).doc.node id).kind = .element e')
    (takes : Element.Takes r.builder token id e e') (closed : e.startTagClose = some place) :
    StartTagEnds text ⟨⟨next, r.scanner.cursor.advance token.text⟩, r.builder.apply token⟩ id e'
      place := by
  have nested := h.held.cut.nested
  have linked := nested.inStep.linked
  have atStart := emits.start_eq
  have atStop := emits.stop_eq
  have ends := (h.started id e isElement).closes place closed
  have before := ends.past.le_offset
  -- An end tag that is named now was opened behind the start tag.
  have opened : token.kind = .endTag →
      place + 1 ≤ r.builder.endTagOpen.getD token.start := by
    intro kind
    have state : r.scanner.config.state = .endTagName := emits.transition.state_of_kind kind rfl
    obtain ⟨opening, -, atOpening, -⟩ := nested.endTag state
    rw [atOpening]
    exact ends.past.le_opening state opening atOpening
  constructor
  case slice => exact ends.slice
  case past => exact past_apply nested.inStep.sound emits (by omega) fun _ ↦ ends.past
  case attributes =>
    intro attr mem
    have mem : attr ∈ (r.builder.apply token).doc.attributes id := by
      rw [Document.attributes, isElement']
      exact mem
    rcases attributes_cases h.held.cut.aimed emits.transition mem with wasThere | ⟨isPart, rfl, -⟩
    · rw [Document.attributes, isElement] at wasThere
      exact ends.attributes attr wasThere
    · -- Attributes are read only as long as the tag has no end.
      have within := emits.transition.withinTag_of_attribute isPart
      have none := (h.unended within e isElement).startTagClose
      cases none.symm.trans closed
  case children =>
    intro child mem
    have takes := Builder.takes_apply linked token
    have childLt := ((linked.apply token).doc.lt_of_mem_children mem).2
    rcases takes.children_cases linked mem with wasChild | ⟨rfl, -⟩
    · rw [(takes.place_eq linked (linked.doc.lt_of_mem_children wasChild).2).2.1]
      exact ends.children child wasChild
    · have beyond :=
        Builder.beyond_apply linked nested.inStep.fits emits.transition (by omega) (by omega) opened
      exact beyond.starts _ (Nat.le_refl _) childLt
  case endTag =>
    intro opening isOpened
    rcases takes.endTagOpen_cases with same | ⟨kind, -, rfl⟩
    · exact ends.endTag opening (same.symm.trans isOpened)
    · obtain rfl := Option.some.inj isOpened
      exact opened kind

private theorem started_apply
    (isElement : ((r.builder.apply token).doc.node id).kind = .element e') :
    Started text ⟨⟨next, r.scanner.cursor.advance token.text⟩, r.builder.apply token⟩ id e' where
  hasTag := h.hasTag_apply isElement
  opens place opened := h.opens_apply emits isElement opened
  closes place closed := by
    have linked := h.held.cut.nested.inStep.linked
    rcases Builder.element_cases linked isElement with ⟨lt, e, isOld, takes⟩ | ⟨-, added⟩
    · rcases takes.startTagClose_cases with same | ⟨kind, rfl, rfl⟩
      · exact h.startTagEnds_apply emits lt isOld isElement takes (same.symm.trans closed)
      · obtain rfl := Option.some.inj closed
        exact h.startTagEnds_apply_current emits kind isOld
    · cases added with
      | startTag | endTag => cases closed

/-- What is left stays as it is. -/
private theorem ended_apply_of_left (lt : id < r.builder.doc.count)
    (notOpen : id ∉ r.builder.doc.path r.builder.current) (ended : Ended text r id e) :
    Ended text ⟨⟨next, r.scanner.cursor.advance token.text⟩, r.builder.apply token⟩ id e := by
  have linked := h.held.cut.nested.inStep.linked
  have keeps := h.held.cut.aimed.keeps_apply emits.transition
  have same := keeps.node_eq id lt notOpen
  constructor
  case left => exact fun _ isOpen ↦ notOpen (keeps.mem_path id lt isOpen)
  case closes =>
    rw [same]
    exact ended.closes
  case empty =>
    rw [same, (Builder.takes_apply linked token).children_eq linked (.inl notOpen)]
    exact ended.empty

/-- An end tag ends its element. -/
private theorem ended_apply_endTagClose
    (kind : token.kind = .endTagClose) (isElement : r.builder.currentNode.kind = .element e)
    (notEmpty : e.selfClosed = false) :
    Ended text ⟨⟨next, r.scanner.cursor.advance token.text⟩, r.builder.apply token⟩
      r.builder.current { e with endTagClose := some token.start } := by
  have linked := h.held.cut.nested.inStep.linked
  have notRoot := linked.doc.ne_root_of_element isElement
  have atStart := emits.start_eq
  have atStop := emits.stop_eq
  have size : token.text.byteSize = 1 := by
    rw [emits.transition.eq_of_tagBracket? (by rw [kind]; rfl)]
    rfl
  have closesTag := Builder.closesTag_apply linked (kind ▸ .endTag : token.kind.Closes)
  constructor
  case left => exact fun _ ↦ Builder.not_mem_path_of_left linked (closesTag.path_eq notRoot)
  case closes =>
    intro place isPlace
    obtain rfl := Option.some.inj isPlace
    refine ⟨?_, ?_, ?_⟩
    · exact h.slice?_of_tagBracket? emits (by rw [kind]; rfl)
    · rw [closesTag.stop_eq notRoot, atStop, atStart, size]
    · intro opening isOpening
      obtain ⟨_, _, -, rfl, owns⟩ := h.owned.endNames r.builder.current opening (by
        rw [Document.landmarks, show (r.builder.doc.node r.builder.current).kind = .element e from
          isElement]
        exact isOpening)
      have := owns.past.le_offset
      omega
  case empty =>
    intro isEmpty
    cases notEmpty.symm.trans isEmpty

/-- The close of an empty tag ends its element, which has no children. -/
private theorem ended_apply_emptyTagClose
    (kind : token.kind = .emptyTagClose) (isElement : r.builder.currentNode.kind = .element e) :
    Ended text ⟨⟨next, r.scanner.cursor.advance token.text⟩, r.builder.apply token⟩
      r.builder.current { e with selfClosed := true } := by
  have nested := h.held.cut.nested
  have linked := nested.inStep.linked
  have frame : r.builder.doc.frame r.builder.current = .element := congrArg NodeKind.frame isElement
  have notRoot := linked.doc.ne_root_of_element isElement
  have within : r.scanner.config.state.withinTag = true := by
    rw [emits.transition.state_of_kind kind rfl]
    rfl
  have unended := h.unended within e isElement
  have isEnd : token.kind.Closes := kind ▸ .emptyTag
  have closesTag := Builder.closesTag_apply linked isEnd
  have takes := Builder.takes_apply linked token
  constructor
  case left => exact fun _ ↦ Builder.not_mem_path_of_left linked (closesTag.path_eq notRoot)
  case closes =>
    intro place isPlace
    cases unended.endTagClose.symm.trans isPlace
  case empty =>
    refine fun _ ↦ ⟨{ unended with selfClosed := rfl }, ?_, ?_, ?_⟩
    · exact (Builder.closed_apply_iff linked linked.current_lt frame).2 (.inr (.inl ⟨isEnd, rfl⟩))
    · rw [takes.children_eq linked (.inr (by rw [kind]; rfl)), h.held.childless within]
    · -- The tag ends with the token, which starts at a boundary behind the start of the element.
      have atStart := emits.start_eq
      have atStop := emits.stop_eq
      have tail := nested.standsIn.slice?_eq emits.starts
      obtain ⟨inside, head⟩ := Text.exists_slice? (nested.spans.start_le linked.current_lt)
        (h.held.cut.starts _ linked.current_lt) nested.standsIn.isBoundary
      refine ⟨inside, ?_⟩
      have isBracket : token.text = Delimiter.emptyTagClose :=
        emits.transition.eq_of_tagBracket? (by rw [kind]; rfl)
      rw [(takes.place_eq linked linked.current_lt).2.1, closesTag.stop_eq notRoot, atStop,
        ← isBracket]
      exact Text.slice?_append head tail

private theorem ended_apply
    (isElement : ((r.builder.apply token).doc.node id).kind = .element e') :
    Ended text ⟨⟨next, r.scanner.cursor.advance token.text⟩, r.builder.apply token⟩ id e' := by
  have linked := h.held.cut.nested.inStep.linked
  rcases Builder.element_cases linked isElement with ⟨lt, e, isOld, takes⟩ | ⟨-, added⟩
  · by_cases isOpen : id ∈ r.builder.doc.path r.builder.current
    · obtain ⟨noClose, notEmpty⟩ := (h.ended id e isOld).of_isOpen isOpen
      cases takes with
      | endTagClose kind isCurrent =>
        subst isCurrent
        exact h.ended_apply_endTagClose emits kind isOld notEmpty
      | emptyTagClose kind isCurrent =>
        subst isCurrent
        exact h.ended_apply_emptyTagClose emits kind isOld
      | _ => exact .of_unended noClose notEmpty
    · have same := (h.held.cut.aimed.keeps_apply emits.transition).node_eq id lt isOpen
      rw [same] at isElement
      exact h.ended_apply_of_left emits lt isOpen (h.ended id e' isElement)
  · cases added with
    | startTag | endTag => exact .of_unended rfl rfl

end Emits

theorem emits (h : TagsPlaced text mode passed r) (emits : r.Emits token next) :
    TagsPlaced text mode (passed ++ [token])
      ⟨⟨next, r.scanner.cursor.advance token.text⟩, r.builder.apply token⟩ where
  held := h.held.emits emits
  owned := h.owned.emits emits
  unended within _ := h.unended_apply emits within
  started _ _ := h.started_apply emits
  ended _ _ := h.ended_apply emits

end TagsPlaced

theorem start_tagsPlaced (text uri : Text) (mode : Mode) :
    TagsPlaced text mode [] (start text uri mode) where
  held := start_attributesHeld text uri mode
  owned := start_tagsOwned text uri mode
  unended within := by cases mode <;> cases within
  started id e isElement := absurd isElement (Builder.kind_start_ne_element text uri mode id e)
  ended id e isElement := absurd isElement (Builder.kind_start_ne_element text uri mode id e)

end Reading

/-! ### Documents -/

/-- The delimiter that opens a tag stands in the text where its token starts. -/
theorem TagSide.Names.slice?_delimiter {side : TagSide} {text : Text} {mode : Mode}
    {opening name : Token} (names : side.Names (Scanner.tokenize text mode) opening name) :
    text.slice? opening.start (opening.start + side.delimiter.byteSize) =
      some side.delimiter := by
  have stop := names.bounds.1
  obtain ⟨-, before, after, split, kind, isDelimiter, first, gap, rfl, -⟩ := names
  have mem : opening ∈ Scanner.tokenize text mode := by simp [split]
  obtain ⟨-, -, -, slice⟩ := Scanner.slice?_of_mem_tokens (Cursor.atStart_standsIn text) mem
    (kind ▸ side.opens_ne_eos)
  rw [← stop, slice, isDelimiter]

/-- How the offsets of the tags of an element point at the text of a document. -/
structure Document.TagOffsets (doc : Document) (id : Nat) (e : Element) : Prop where
  hasTag : e.startTagOpen.isSome = true ∨ e.endTagOpen.isSome = true
  startTagOpen : ∀ place, e.startTagOpen = some place →
    (doc.node id).start = place ∧ doc.text.slice? place (place + 1) = some ['<']
  startTagClose : ∀ place, e.startTagClose = some place →
    doc.text.slice? place (place + 1) = some ['>'] ∧
      (∀ attr ∈ e.attributes, attr.span.stop ≤ place) ∧
      ∀ child ∈ doc.children id, place < (doc.node child).start
  endTagOpen : ∀ place, e.endTagOpen = some place →
    doc.text.slice? place (place + 2) = some ['<', '/'] ∧ (doc.node id).start ≤ place ∧
      place + 2 ≤ (doc.node id).stop ∧ ∀ close, e.startTagClose = some close → close < place
  endTagClose : ∀ place, e.endTagClose = some place →
    doc.text.slice? place (place + 1) = some ['>'] ∧ place + 1 = (doc.node id).stop ∧
      ∀ opening, e.endTagOpen = some opening → opening < place
  selfClosed : e.selfClosed = true →
    (doc.node id).closed = true ∧ doc.children id = [] ∧ e.startTagClose = none ∧
      e.endTagOpen = none ∧ e.endTagClose = none ∧
      Delimiter.emptyTagClose <:+ doc.nodeText id

/-- The offsets of the tags of an element point at the delimiters in the text, in order: the start
tag opens where the element starts, its end stands behind all attributes and before all children and
the end tag, and the end of the end tag is the end of the element. An empty tag has no other end. -/
theorem tagOffsets_parse (text uri : Text) (mode : Mode) {id : Nat} {e : Element}
    (kind : ((Document.parse text uri mode).node id).kind = .element e) :
    (Document.parse text uri mode).TagOffsets id e := by
  obtain ⟨n, passed, last, atEnd, -, placed⟩ :=
    Reading.exists_atEnd_of_history (fun _ _ _ h ↦ h.rescans)
      (fun _ _ _ _ h ↦ h.emits) (Reading.start_tagsPlaced text uri mode)
  have isText := Document.text_parse text uri mode
  obtain ⟨-, endTags⟩ := ownedTags_parse text uri mode kind
  have finish := Reading.parse_eq_finish atEnd
  generalize (Reading.start text uri mode).after n = r at atEnd placed finish
  rw [finish] at kind isText endTags ⊢
  have linked := placed.held.cut.nested.inStep.linked
  have retouched := Builder.retouched_finish r.builder
  obtain ⟨sameKind, sameClosed⟩ := Builder.kind_finish r.builder id
  have isElement : (r.builder.doc.node id).kind = .element e := sameKind ▸ kind
  have started := placed.started id e isElement
  have ended := placed.ended id e isElement
  have stays : e.endTagClose.isSome = true ∨ e.selfClosed = true →
      r.builder.finish.node id = r.builder.doc.node id :=
    fun isEnded ↦ Builder.node_finish linked (ended.left isEnded)
  constructor
  case hasTag => exact started.hasTag
  case startTagOpen =>
    intro place isPlace
    rw [isText, retouched.start_eq]
    refine ⟨placed.owned.starts id place ?_, started.opens place isPlace⟩
    rw [Document.landmarks, isElement]
    exact isPlace
  case startTagClose =>
    intro place isPlace
    have closes := started.closes place isPlace
    rw [isText, retouched.children_eq]
    refine ⟨closes.slice, closes.attributes, fun child mem ↦ ?_⟩
    rw [retouched.start_eq]
    exact closes.children child mem
  case endTagOpen =>
    intro place isPlace
    obtain ⟨opening, name, names, rfl, owns⟩ := endTags place isPlace
    rw [isText]
    refine ⟨names.slice?_delimiter, owns.start_le, ?_, fun close isClose ↦ ?_⟩
    · exact Nat.le_trans (Nat.le_add_right _ _) owns.le_stop
    · exact (started.closes close isClose).endTag _ isPlace
  case endTagClose =>
    intro place isPlace
    obtain ⟨slice, stop, before⟩ := ended.closes place isPlace
    rw [isText, stays (.inl (isPlace ▸ rfl))]
    exact ⟨slice, stop.symm, before⟩
  case selfClosed =>
    intro isEmpty
    obtain ⟨unended, closed, childless, inside, slice⟩ := ended.empty isEmpty
    refine ⟨sameClosed.trans closed, (retouched.children_eq id).trans childless,
      unended.startTagClose, unended.endTagOpen, unended.endTagClose, inside, ?_⟩
    rw [Document.nodeText, Document.textOf, isText, stays (.inr isEmpty), Span.text]
    exact (congrArg (·.getD []) slice).symm

/-- An element with both tags, around an empty one. -/
theorem tagOffsets_parse_pair :
    let text : Text := ['<', 'a', ' ', 'b', '=', '1', '>', '<', 'd', '/', '>', '<', '/', 'a', '>']
    let outer : Element :=
      { tagName := some ['a'], attributes := [⟨['b'], ⟨3, 4⟩, some ['1'], some ⟨5, 6⟩⟩],
        startTagOpen := some 0, startTagClose := some 6, endTagOpen := some 11,
        endTagClose := some 14 }
    ((Document.parse text [] .xml).node 1).kind = .element outer ∧
      (Document.parse text [] .xml).TagOffsets 1 outer := by
  intro text outer
  have kind : ((Document.parse text [] .xml).node 1).kind = .element outer := by decide +kernel
  exact ⟨kind, tagOffsets_parse text [] .xml kind⟩

end TolerantXml
