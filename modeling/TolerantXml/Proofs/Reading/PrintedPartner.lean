import TolerantXml.Proofs.Print.TagPairs
import TolerantXml.Proofs.Reading.NodeAt
import TolerantXml.Proofs.Reading.RoundTrip
import TolerantXml.Proofs.Reading.TagPartner

/-!
# Partner tags of a printed forest

In the document of a printed forest, the partners are the places in the names of two tags of an
element, each with the place at the same distance from the start of the other name, and no other
place has a partner (`tagPartner_parse_print`). An element of the document covers its tags, and its
children are printed between them (`Document.HasTags`), so the search for the node at a place in
one of the names comes to the element.
-/

namespace TolerantXml

variable {doc : Document} {forest : Forest} {pair : TagPair} {e : Element}
  {parent first id offset distance place partner : Nat}

namespace Document

/-- A node is an element with two tags, and its children are between them. -/
structure HasTags (doc : Document) (id : Nat) (pair : TagPair) : Prop where
  kind : ∃ e, (doc.node id).kind = .element e ∧ e.tagName = some pair.name ∧
    e.startTagOpen = some pair.startTag ∧ e.endTagOpen = some pair.endTag ∧ e.selfClosed = false
  start_le : (doc.node id).start ≤ pair.startTag
  lt_stop : pair.endName + pair.name.byteSize < (doc.node id).stop
  ordered : pair.startName + pair.name.byteSize ≤ pair.endTag
  apart : ∀ child ∈ doc.children id,
    pair.startName + pair.name.byteSize < (doc.node child).start ∧
      (doc.node child).stop ≤ pair.endTag

namespace HasTags

/-- In the names of its tags and right behind them the element is found. -/
private theorem nodeAt_eq (h : doc.HasTags id pair) (nested : doc.WellNested) (linked : doc.Linked)
    (lt : id < doc.count) (covers : pair.Covers place) : doc.nodeAt place = id := by
  have startName := pair.startName_eq
  have endName := pair.endName_eq
  obtain ⟨-, start_le, lt_stop, ordered, apart⟩ := h
  obtain ⟨distance, le, isPlace⟩ := covers
  refine Document.nodeAt_eq nested linked lt ?_ fun child isChild contains ↦ ?_
  · rw [containsAt_iff]
    omega
  · have := apart child isChild
    rw [containsAt_iff] at contains
    omega

/-- Places at the same distance from the starts of the names are partners. -/
private theorem exists_partnerOffset (h : doc.HasTags id pair)
    (le : distance ≤ pair.name.byteSize) :
    ∃ e, (doc.node id).kind = .element e ∧
      e.partnerOffset (pair.startName + distance) = some (pair.endName + distance) ∧
      e.partnerOffset (pair.endName + distance) = some (pair.startName + distance) := by
  have startName := pair.startName_eq
  have endName := pair.endName_eq
  obtain ⟨⟨e, kind, tagName, startTagOpen, endTagOpen, selfClosed⟩, -, -, ordered, -⟩ := h
  refine ⟨e, kind, ?_⟩
  obtain ⟨_, _, _, _, _, _, _⟩ := e
  subst tagName startTagOpen endTagOpen selfClosed
  simp only [Element.partnerOffset]
  constructor
  · rw [if_pos (by omega)]
    exact congrArg some (by omega)
  · rw [if_neg (by omega), if_pos (by omega)]
    exact congrArg some (by omega)

/-- The places at a distance from the starts of the names are positions, and partners. -/
private theorem tagPartner_comm (h : doc.HasTags id pair) (nested : doc.WellNested)
    (linked : doc.Linked) (lt : id < doc.count) (le : distance ≤ pair.name.byteSize) :
    ∃ inStart inEnd, doc.text.positionAt (pair.startName + distance) = .ok inStart ∧
      doc.text.positionAt (pair.endName + distance) = .ok inEnd ∧
      doc.tagPartner inStart = .ok (some inEnd) ∧ doc.tagPartner inEnd = .ok (some inStart) := by
  have inText : pair.startName + distance ≤ doc.text.byteSize ∧
      pair.endName + distance ≤ doc.text.byteSize := by
    have := pair.endName_eq
    have := h.lt_stop
    have := h.ordered
    have : (doc.node id).stop ≤ doc.text.byteSize := nested.stop_le_length id lt
    omega
  obtain ⟨inStart, isStart⟩ := Text.exists_positionAt_iff.2 inText.1
  obtain ⟨inEnd, isEnd⟩ := Text.exists_positionAt_iff.2 inText.2
  have foundStart := h.nodeAt_eq nested linked lt ⟨distance, le, .inl rfl⟩
  have foundEnd := h.nodeAt_eq nested linked lt ⟨distance, le, .inr rfl⟩
  obtain ⟨e, kind, toEnd, toStart⟩ := h.exists_partnerOffset le
  refine ⟨inStart, inEnd, isStart, isEnd, ?_, ?_⟩
  · exact tagPartner_eq_ok_some (Text.positionAt_eq_ok_iff_offsetAt.1 isStart)
      (foundStart.symm ▸ kind) toEnd isEnd
  · exact tagPartner_eq_ok_some (Text.positionAt_eq_ok_iff_offsetAt.1 isEnd)
      (foundEnd.symm ▸ kind) toStart isStart

end HasTags

end Document

/-! ### The elements of a printed forest -/

namespace Forest.Laid

/-- The items of a forest are where it is printed. -/
private theorem span_of_mem_roots (laid : forest.Laid doc parent first offset)
    (mem : id ∈ forest.roots first) :
    offset ≤ (doc.node id).start ∧ (doc.node id).stop ≤ offset + forest.print.byteSize := by
  induction forest generalizing first offset with
  | nil => cases mem
  | leaf leaf rest ih =>
    obtain ⟨⟨sameLine, node⟩, others⟩ := laid
    rw [print, Text.byteSize_append]
    rcases List.mem_cons.1 mem with rfl | mem
    · rw [node]
      exact ⟨Nat.le_refl _, Nat.add_le_add_left (Nat.le_add_right _ _) _⟩
    · have := ih others mem
      omega
  | element tag children rest _ ih =>
    obtain ⟨node, -, others⟩ := laid
    rw [print_element_append, Text.byteSize_append]
    rcases List.mem_cons.1 mem with rfl | mem
    · rw [node]
      exact ⟨Nat.le_refl _, Nat.add_le_add_left (Nat.le_add_right _ _) _⟩
    · have := ih others mem
      omega

/-- The node of an element with two tags has them. -/
private theorem hasTags {tag : Tag} {children : Forest} (notSelfClosed : tag.selfClosed = false)
    (laid : (element tag children nil).Laid doc parent id offset) :
    doc.HasTags id (tag.pair offset children) := by
  obtain ⟨node, inside, -⟩ := laid
  have start : (doc.node id).start = offset := by rw [node]
  have stop : (doc.node id).stop = offset + (element tag children nil).print.byteSize := by
    rw [node]
  have startName := tag.startName_pair_le offset children
  have endName := tag.endName_pair_add offset children notSelfClosed
  have name : (tag.pair offset children).name.byteSize = tag.name.byteSize := rfl
  have startTag : (tag.pair offset children).startTag = offset := rfl
  have endTag : (tag.pair offset children).endTag =
      offset + tag.opening.byteSize + 1 + children.print.byteSize := rfl
  refine ⟨⟨tag.element offset children, by rw [node], tag.tagName_element ..,
    tag.startTagOpen_element .., ?_, ?_⟩, by omega, by omega, by omega, fun child isChild ↦ ?_⟩
  · rw [Tag.endTagOpen_element, notSelfClosed, if_neg Bool.false_ne_true]
  · rw [Tag.selfClosed_element, notSelfClosed]
  · rw [Document.children, node] at isChild
    have := inside.span_of_mem_roots isChild
    omega

/-- The tags of a pair are those of a node. -/
private theorem exists_hasTags (laid : forest.Laid doc parent first offset)
    (mem : pair ∈ forest.tagPairs offset) :
    ∃ id < first + forest.size, doc.HasTags id pair := by
  induction forest generalizing parent first offset with
  | nil => cases mem
  | leaf leaf rest ih =>
    obtain ⟨-, others⟩ := laid
    obtain ⟨id, lt, has⟩ := ih others mem
    rw [size]
    exact ⟨id, by omega, has⟩
  | element tag children rest ihChildren ih =>
    obtain ⟨node, inside, others⟩ := laid
    rw [tagPairs, List.mem_append] at mem
    rw [size]
    rcases mem with within | behind
    · cases selfClosed : tag.selfClosed with
      | true => simp [selfClosed] at within
      | false =>
        rw [selfClosed, if_neg Bool.false_ne_true, List.mem_cons] at within
        rcases within with rfl | within
        · exact ⟨first, by omega, hasTags selfClosed ⟨node, inside, trivial⟩⟩
        · obtain ⟨id, lt, has⟩ := ihChildren inside within
          exact ⟨id, by omega, has⟩
    · obtain ⟨id, lt, has⟩ := ih others behind
      exact ⟨id, by omega, has⟩

/-- The tags of a node are those of a pair, if it has two. -/
private theorem exists_pair (laid : forest.Laid doc parent first offset)
    (wellFormed : forest.WellFormed) (ge : first ≤ id) (lt : id < first + forest.size)
    (kind : (doc.node id).kind = .element e) (endTagOpen : e.endTagOpen = some place) :
    ∃ pair ∈ forest.tagPairs offset, e.tagName = some pair.name ∧
      e.startTagOpen = some pair.startTag ∧ place = pair.endTag := by
  induction forest generalizing parent first offset with
  | nil =>
    rw [size] at lt
    omega
  | leaf leaf rest ih =>
    obtain ⟨⟨sameLine, node⟩, others⟩ := laid
    rw [size] at lt
    rcases Nat.eq_or_lt_of_le ge with rfl | behind
    · rw [node] at kind
      cases leaf <;> cases kind
    · exact ih others wellFormed.2.1 behind (by omega)
  | element tag children rest ihChildren ih =>
    obtain ⟨node, inside, others⟩ := laid
    obtain ⟨-, empty, isChildren, isRest⟩ := wellFormed
    rw [size] at lt
    simp only [tagPairs, List.mem_append]
    rcases Nat.lt_or_ge id (first + 1 + children.size) with within | behind
    · cases selfClosed : tag.selfClosed with
      | true =>
        rw [empty selfClosed, size] at within
        obtain rfl : id = first := by omega
        rw [node] at kind
        obtain rfl := NodeKind.element.inj kind
        rw [Tag.endTagOpen_element, if_pos selfClosed] at endTagOpen
        cases endTagOpen
      | false =>
        rw [if_neg Bool.false_ne_true]
        rcases Nat.eq_or_lt_of_le ge with rfl | inner
        · rw [node] at kind
          obtain rfl := NodeKind.element.inj kind
          rw [Tag.endTagOpen_element, selfClosed, if_neg Bool.false_ne_true] at endTagOpen
          exact ⟨tag.pair offset children, .inl List.mem_cons_self, tag.tagName_element ..,
            tag.startTagOpen_element .., (Option.some.inj endTagOpen).symm⟩
        · obtain ⟨pair, mem, isPair⟩ := ihChildren inside isChildren inner (by omega)
          exact ⟨pair, .inl (List.mem_cons_of_mem _ mem), isPair⟩
    · obtain ⟨pair, mem, isPair⟩ := ih others isRest behind (by omega)
      exact ⟨pair, .inr mem, isPair⟩

/-- Where an element of the document has a partner for an offset, a pair covers the offset. -/
private theorem exists_covers (laid : forest.Laid doc parent first offset)
    (wellFormed : forest.WellFormed) (ge : first ≤ id) (lt : id < first + forest.size)
    (kind : (doc.node id).kind = .element e) (isPartner : e.partnerOffset place = some partner) :
    ∃ pair ∈ forest.tagPairs offset, pair.Covers place := by
  obtain ⟨name, startTag, endTag, tagName, startTagOpen, endTagOpen, distance, le, lookedUp⟩ :=
    Element.partnerOffset_eq_some isPartner
  obtain ⟨pair, mem, sameName, sameStart, rfl⟩ :=
    laid.exists_pair wellFormed ge lt kind endTagOpen
  obtain rfl := Option.some.inj (tagName.symm.trans sameName)
  obtain rfl := Option.some.inj (startTagOpen.symm.trans sameStart)
  refine ⟨pair, mem, distance, le, ?_⟩
  rcases lookedUp with ⟨isPlace, -⟩ | ⟨isPlace, -⟩
  · exact .inl isPlace
  · exact .inr isPlace

end Forest.Laid

/-- The partners in the document of a printed forest: a place in the name of a start tag or right
behind it, and the place at the same distance from the start of the name in the end tag of the same
element, are partners of each other. No other place in the text has one. -/
theorem tagPartner_parse_print {forest : Forest} (wellFormed : forest.ItemsWellFormed)
    (uri : Text) :
    let text := forest.print
    let doc := Document.parse text uri .xml
    (∀ pair ∈ forest.tagPairs 0,
      text.slice? pair.startTag (pair.startName + pair.name.byteSize) =
        some (['<'] ++ pair.name) ∧
      text.slice? pair.endTag (pair.endName + pair.name.byteSize) =
        some (Delimiter.endTagOpen ++ pair.name) ∧
      ∀ distance ≤ pair.name.byteSize, ∃ inStart inEnd,
        text.positionAt (pair.startName + distance) = .ok inStart ∧
        text.positionAt (pair.endName + distance) = .ok inEnd ∧
        doc.tagPartner inStart = .ok (some inEnd) ∧
        doc.tagPartner inEnd = .ok (some inStart)) ∧
    ∀ offset ≤ text.byteSize, (∀ pair ∈ forest.tagPairs 0, ¬ pair.Covers offset) →
      ∃ position, text.positionAt offset = .ok position ∧
        doc.tagPartner position = .ok none := by
  intro text doc
  obtain ⟨r, nested, atEnd, eq⟩ := Reading.exists_nested text uri .xml
  obtain ⟨-, -, linked, nested⟩ := nested.finish atEnd
  have finish : r.builder.finish = doc := eq.symm
  rw [finish] at linked nested
  have joined := wellFormed.joinTexts
  obtain ⟨isText, count, isRoot, -, laid⟩ := laid_parse joined uri
  rw [Forest.print_joinTexts] at isText count isRoot laid
  rw [← Forest.tagPairs_joinTexts]
  constructor
  · intro pair mem
    obtain ⟨id, lt, hasTags⟩ := laid.exists_hasTags mem
    rw [Forest.tagPairs_joinTexts] at mem
    have printed := forest.slice?_of_mem_tagPairs [] [] mem
    rw [List.nil_append, List.append_nil] at printed
    refine ⟨printed.1, printed.2, fun distance le ↦ ?_⟩
    have := hasTags.tagPartner_comm nested linked (count ▸ lt) le
    rwa [isText] at this
  · intro offset le apart
    obtain ⟨position, located⟩ := Text.exists_positionAt_iff.2 le
    have accepted := Text.positionAt_eq_ok_iff_offsetAt.1 located
    rw [← show doc.text = text from isText] at accepted
    refine ⟨position, located, (Document.tagPartner_cases accepted).resolve_right ?_⟩
    rintro ⟨e, partner, kind, isPartner, -⟩
    have lt : doc.nodeAt offset < doc.count := Document.nodeAtFrom_lt linked.root_lt offset
    have notRoot : doc.nodeAt offset ≠ Document.root := by
      intro same
      rw [same, isRoot] at kind
      cases kind
    obtain ⟨pair, mem, covers⟩ := laid.exists_covers joined
      (Nat.one_le_iff_ne_zero.2 notRoot) (count ▸ lt) kind isPartner
    exact apart pair mem covers

/-- An element with two texts and another element of the same name in it, and a third one that is
closed at once behind it. -/
theorem tagPartner_parse_print_nested :
    let forest : Forest :=
      .element ⟨['a'], [], false⟩
        (.leaf (.text ['x']) (.leaf (.text ['y']) (.element ⟨['a'], [], false⟩ .nil .nil)))
        (.element ⟨['a'], [], true⟩ .nil .nil)
    let doc := Document.parse forest.print [] .xml
    forest.ItemsWellFormed ∧ forest.tagPairs 0 = [⟨['a'], 0, 12⟩, ⟨['a'], 5, 8⟩] ∧
      doc.tagPartner ⟨0, 6⟩ = .ok (some ⟨0, 10⟩) ∧ doc.tagPartner ⟨0, 17⟩ = .ok none := by
  intro forest doc
  have wellFormed : forest.ItemsWellFormed := by decide
  have pairs : forest.tagPairs 0 = [⟨['a'], 0, 12⟩, ⟨['a'], 5, 8⟩] := by decide
  obtain ⟨partners, others⟩ := tagPartner_parse_print wellFormed []
  refine ⟨wellFormed, pairs, ?_, ?_⟩
  · have inner : ⟨['a'], 5, 8⟩ ∈ forest.tagPairs 0 := by
      rw [pairs]
      exact List.mem_cons_of_mem _ List.mem_cons_self
    obtain ⟨-, -, atDistance⟩ := partners _ inner
    obtain ⟨_, _, isStart, isEnd, toEnd, -⟩ := atDistance 0 (Nat.zero_le _)
    have inStart : forest.print.positionAt 6 = .ok ⟨0, 6⟩ := by decide +kernel
    have inEnd : forest.print.positionAt 10 = .ok ⟨0, 10⟩ := by decide +kernel
    obtain rfl := Except.ok.inj (inStart.symm.trans isStart)
    obtain rfl := Except.ok.inj (inEnd.symm.trans isEnd)
    exact toEnd
  · have apart : ∀ pair ∈ forest.tagPairs 0, ¬ pair.Covers 17 := by decide
    obtain ⟨_, located, noPartner⟩ := others 17 (by decide) apart
    have place : forest.print.positionAt 17 = .ok ⟨0, 17⟩ := by decide +kernel
    obtain rfl := Except.ok.inj (place.symm.trans located)
    exact noPartner

end TolerantXml
