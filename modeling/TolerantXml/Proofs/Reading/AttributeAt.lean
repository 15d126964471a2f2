import TolerantXml.Proofs.Reading.AttributesApart
import TolerantXml.Proofs.Reading.Boundaries
import TolerantXml.Proofs.Reading.NodeAt
import TolerantXml.Proofs.Reading.TagPlaces

/-!
# The attribute at an offset

Attributes are read before their node has children, so an attribute lies in its node and in front
of all children, unless a token right behind it interrupts the node (`Reading.Holds`). An offset is
in an attribute or right behind it, but the look-up first finds the node at the offset, and a place
right behind a node or at the start of a child is not in the node. So the look-up finds every
attribute that includes the offset but for those (`attributeAt_parse`).
-/

namespace TolerantXml

namespace Reading

variable {text uri : Text} {mode : Mode} {passed : List Token} {r : Reading} {token : Token}
  {next : Scanner.Config} {first last id : Nat} {attr : Attribute}

/-- What holds of a stretch of the text that was read as a part of the tag of a node, behind some
tokens. -/
structure Holds (passed : List Token) (r : Reading) (id first last : Nat) : Prop where
  lt : id < r.builder.doc.count
  ordered : first < last
  start_le : (r.builder.doc.node id).start ≤ first
  le_stop : id ∉ r.builder.doc.path r.builder.current →
    last ≤ (r.builder.doc.node id).stop ∨
      ∃ token ∈ passed, r.builder.doc.InterruptedBy token id ∧ last ≤ token.start
  le_child : ∀ child ∈ r.builder.doc.children id, last ≤ (r.builder.doc.node child).start
  past : r.Past last

/-- What holds of the places of attributes in a reading of a text, behind some tokens. -/
structure AttributesHeld (text : Text) (mode : Mode) (passed : List Token) (r : Reading) :
    Prop where
  cut : Cut text mode passed r
  childless : r.scanner.config.state.withinTag = true →
    r.builder.doc.children r.builder.current = []
  holds : ∀ id, ∀ attr ∈ r.builder.doc.attributes id,
    Holds passed r id attr.span.start attr.span.stop

private theorem Holds.rescans (h : Holds passed r id first last) (sound : r.scanner.config.Sound)
    (rescans : r.scanner.config.Rescans next) :
    Holds passed ⟨⟨next, r.scanner.cursor⟩, r.builder⟩ id first last :=
  { h with past := h.past.rescans sound rescans }

/-- A token leaves what a node holds: what comes behind it starts and ends nodes behind it. -/
private theorem Holds.emits (h : Holds passed r id first last) (cut : Cut text mode passed r)
    (emits : r.Emits token next) :
    Holds (passed ++ [token]) ⟨⟨next, r.scanner.cursor.advance token.text⟩, r.builder.apply token⟩
      id first last := by
  have linked := cut.aimed.inStep.linked
  have start := emits.start_eq
  have stop := emits.stop_eq
  have le_offset := h.past.le_offset
  have spans : r.builder.Nested text mode token.start := start ▸ cut.nested.spans
  have ends : Builder.Ends (last ≤ ·) token r.builder (r.builder.apply token) := by
    refine Builder.ends_apply spans linked cut.aimed.inStep.fits emits.transition (by omega)
      (by omega) ?_ cut.unclosed
    intro kind opening opened
    exact h.past.le_opening (emits.transition.state_of_kind kind rfl) opening opened
  have takes := Builder.takes_apply linked token
  obtain ⟨-, start_eq, -⟩ := takes.place_eq linked h.lt
  constructor
  case lt => exact Nat.lt_of_lt_of_le h.lt takes.count_le
  case ordered => exact h.ordered
  case start_le => exact start_eq ▸ h.start_le
  case le_stop =>
    intro notOpen
    by_cases wasOpen : id ∈ r.builder.doc.path r.builder.current
    · refine (ends.left id wasOpen notOpen).imp_right fun interrupted ↦ ?_
      exact ⟨token, List.mem_append_right _ (List.mem_singleton_self token), interrupted,
        start ▸ le_offset⟩
    · have same := (cut.aimed.keeps_apply emits.transition).node_eq id h.lt wasOpen
      rw [same]
      refine (h.le_stop wasOpen).imp_right ?_
      rintro ⟨earlier, mem, interrupted, le⟩
      exact ⟨earlier, List.mem_append_left _ mem, interrupted.of_node_eq same, le⟩
  case le_child =>
    intro child mem
    rcases takes.children_cases linked mem with wasChild | ⟨rfl, -⟩
    · have childLt := (linked.doc.lt_of_mem_children wasChild).2
      rw [(takes.place_eq linked childLt).2.1]
      exact h.le_child child wasChild
    · have childLt := ((linked.apply token).doc.lt_of_mem_children mem).2
      exact ends.starts _ (Nat.le_refl _) childLt
  case past =>
    exact past_apply cut.nested.inStep.sound emits (by omega) fun _ ↦ h.past

/-- An attribute was there before, or the token is its name or its value, and its end then. -/
theorem attributes_cases (aimed : r.Aimed)
    (emits : r.scanner.config.Emits token.kind token.text next)
    (mem : attr ∈ (r.builder.apply token).doc.attributes id) :
    attr ∈ r.builder.doc.attributes id ∨
      (token.kind = .attributeName ∨ token.kind = .attributeValue) ∧ id = r.builder.current ∧
        attr.span.stop = token.stop ∧
        (attr.span.start = token.start ∨
          ∃ old ∈ r.builder.doc.attributes id, attr.span.start = old.span.start) := by
  have linked := aimed.inStep.linked
  have awaits := aimed.inStep.fits.awaits aimed.inStep.pending emits
  by_cases isName : token.kind = .attributeName
  · rw [isName] at awaits
    simp only [Builder.apply, isName, Builder.attributes_nameAttribute awaits linked] at mem
    split at mem
    · next isCurrent =>
      rcases Attribute.mem_of_mem_put mem with rfl | isOld
      · exact .inr ⟨.inl isName, isCurrent, rfl, .inl rfl⟩
      · exact .inl isOld
    · exact .inl mem
  by_cases isValue : token.kind = .attributeValue
  · obtain ⟨index, pending⟩ := aimed.value (by rw [emits.state_of_kind isValue rfl]; rfl)
    rw [isValue] at awaits
    simp only [Builder.apply, isValue,
      Builder.attributes_setAttributeValue pending awaits.1 linked] at mem
    split at mem
    · next isCurrent =>
      rcases Attribute.mem_of_mem_modify mem with isOld | ⟨old, isOld, rfl⟩
      · exact .inl isOld
      · exact .inr ⟨.inr isValue, isCurrent, rfl, .inr ⟨old, isOld, rfl⟩⟩
    · exact .inl mem
  rw [Builder.attributes_apply linked isName isValue] at mem
  exact .inl mem

namespace AttributesHeld

theorem rescans (h : AttributesHeld text mode passed r)
    (rescans : r.scanner.config.Rescans next) :
    AttributesHeld text mode passed ⟨⟨next, r.scanner.cursor⟩, r.builder⟩ where
  cut := h.cut.rescans rescans
  childless within := h.childless (rescans.withinTag h.cut.nested.inStep.sound within)
  holds id attr mem := (h.holds id attr mem).rescans h.cut.nested.inStep.sound rescans

/-- A node whose tag goes on has no children yet. -/
private theorem childless_apply (h : AttributesHeld text mode passed r)
    (emits : r.scanner.config.Emits token.kind token.text next)
    (within : next.state.withinTag = true) :
    (r.builder.apply token).doc.children (r.builder.apply token).current = [] := by
  have linked := h.cut.aimed.inStep.linked
  have sound := h.cut.aimed.inStep.sound
  have takes := Builder.takes_apply linked token
  cases before : r.scanner.config.state.withinTag with
  | true =>
    have stays := (emits.withinTag_eq sound before).symm.trans within
    have opens : token.kind.opens = none := by
      revert stays
      cases token.kind <;> simp [TokenKind.staysInTag, TokenKind.opens]
    rw [r.builder.current_apply_of_staysInTag stays, takes.children_eq linked (.inr opens)]
    exact h.childless before
  | false =>
    have isNew := (Builder.tagOpening_of_opensTag linked
      (emits.opensTag_of_withinTag sound before within)).1
    rw [isNew, List.eq_nil_iff_forall_not_mem]
    intro child mem
    -- A child would come behind the node, which is the last one.
    obtain ⟨less, lt⟩ := (linked.apply token).doc.lt_of_mem_children mem
    obtain ⟨isCount, -⟩ := takes.new_cases linked (Nat.le_of_lt less) lt
    omega

theorem emits (h : AttributesHeld text mode passed r) (emits : r.Emits token next) :
    AttributesHeld text mode (passed ++ [token])
      ⟨⟨next, r.scanner.cursor.advance token.text⟩, r.builder.apply token⟩ where
  cut := h.cut.emits emits
  childless := h.childless_apply emits.transition
  holds id attr mem := by
    have transition := emits.transition
    have linked := h.cut.aimed.inStep.linked
    rcases attributes_cases h.cut.aimed transition mem with isOld | ⟨isPart, rfl, stop, start⟩
    · exact (h.holds id attr isOld).emits h.cut emits
    · have size := emits.byteSize_pos
      have atStart := emits.start_eq
      have atStop := emits.stop_eq
      have within := transition.withinTag_of_attribute isPart
      have current : (r.builder.apply token).current = r.builder.current := by
        apply r.builder.current_apply_of_staysInTag
        rcases isPart with kind | kind <;> rw [kind] <;> rfl
      have tagGoesOn : next.state.withinTag = true := by
        rw [transition.withinTag_eq h.cut.aimed.inStep.sound within]
        rcases isPart with kind | kind <;> rw [kind] <;> rfl
      have started : (r.builder.doc.node r.builder.current).start ≤ attr.span.start ∧
          attr.span.start ≤ r.scanner.cursor.offset := by
        rcases start with isHere | ⟨old, isOld, isThere⟩
        · rw [isHere, atStart]
          exact ⟨h.cut.nested.spans.start_le linked.current_lt, Nat.le_refl _⟩
        · have before := h.holds _ old isOld
          have := before.past.le_offset
          have := before.ordered
          exact ⟨isThere ▸ before.start_le, by omega⟩
      have open' : r.builder.current ∈ (r.builder.apply token).doc.path
          (r.builder.apply token).current := current ▸ Document.Linked.mem_path_self
      have takes := Builder.takes_apply linked token
      constructor
      case lt => exact Nat.lt_of_lt_of_le linked.current_lt takes.count_le
      case ordered => omega
      case start_le => exact (takes.place_eq linked linked.current_lt).2.1 ▸ started.1
      case le_stop => exact fun notOpen ↦ absurd open' notOpen
      case le_child =>
        have none := h.childless_apply transition tagGoesOn
        rw [current] at none
        intro child isChild
        rw [none] at isChild
        cases isChild
      case past =>
        refine past_apply h.cut.nested.inStep.sound emits (by omega) fun other ↦ ?_
        rcases isPart with kind | kind <;> rw [kind] at other <;> simp at other

end AttributesHeld

theorem start_attributesHeld (text uri : Text) (mode : Mode) :
    AttributesHeld text mode [] (start text uri mode) where
  cut := start_cut text uri mode
  childless within := by cases mode <;> cases within
  holds id attr mem := by
    rw [attributes_start] at mem
    cases mem

end Reading

/-! ### The look-up -/

namespace Document

variable {doc : Document} {tokens : List Token} {id offset : Nat} {attr : Attribute}

/-- How it comes that a node with an attribute is not the one at an offset that the attribute
includes. The node ends right behind the attribute, or a child starts there; or a token right behind
the attribute interrupted the node, which takes one byte from it. -/
inductive Hides (doc : Document) (tokens : List Token) (id : Nat) (attr : Attribute)
    (offset : Nat) : Prop where
  | atStop (behind : offset = attr.span.stop) (ends : (doc.node id).stop = offset)
  | atChild (behind : offset = attr.span.stop) (child : Nat) (isChild : child ∈ doc.children id)
    (starts : (doc.node child).start = offset)
  | interrupted (token : Token) (mem : token ∈ tokens) (interrupted : doc.InterruptedBy token id)
    (behind : token.start = attr.span.stop) (le : attr.span.stop ≤ offset + 1)

/-- Where an attribute lies in a document behind some tokens. -/
structure HoldsAttribute (doc : Document) (tokens : List Token) (id : Nat) (attr : Attribute) :
    Prop where
  lt : id < doc.count
  notRoot : id ≠ root
  ordered : attr.span.start < attr.span.stop
  start_le : (doc.node id).start ≤ attr.span.start
  le_stop : attr.span.stop ≤ (doc.node id).stop ∨
    ∃ token ∈ tokens, doc.InterruptedBy token id ∧ attr.span.stop ≤ token.start
  le_child : ∀ child ∈ doc.children id, attr.span.stop ≤ (doc.node child).start

theorem attributeAt_eq_some_iff :
    doc.attributeAt offset = some (id, attr) ↔
      doc.nodeAt offset = id ∧ (doc.attributes id).find? (·.includes offset) = some attr := by
  rw [attributeAt, Option.map_eq_some_iff]
  constructor
  · rintro ⟨found, isFound, eq⟩
    obtain ⟨rfl, rfl⟩ := Prod.mk.inj eq
    exact ⟨rfl, isFound⟩
  · rintro ⟨rfl, isFound⟩
    exact ⟨attr, isFound, rfl⟩

/-- The look-up finds an attribute if its node is the one at the offset, as no other attribute of
the node includes the offset. -/
private theorem find?_includes (apart : (doc.attributes id).Pairwise Attribute.Apart)
    (mem : attr ∈ doc.attributes id) (includes : attr.includes offset = true) :
    (doc.attributes id).find? (·.includes offset) = some attr := by
  cases found : (doc.attributes id).find? (·.includes offset) with
  | none => exact absurd includes (List.find?_eq_none.1 found attr mem)
  | some other =>
    have otherIncludes : other.includes offset = true := by simpa using List.find?_some found
    by_contra differ
    have isOther : other ≠ attr := fun same ↦ differ (congrArg some same)
    exact apart.forall (List.mem_of_find?_eq_some found) mem isOther offset
      ⟨otherIncludes, includes⟩

namespace HoldsAttribute

variable (holds : doc.HoldsAttribute tokens id attr) (includes : attr.includes offset = true)
include holds includes

/-- What the attribute includes is in its node and in no child, unless it is hidden. -/
private theorem containsAt_of_not_hides (notHidden : ¬ doc.Hides tokens id attr offset) :
    doc.containsAt offset id ∧ ∀ child ∈ doc.children id, ¬ doc.containsAt offset child := by
  simp only [Attribute.includes, Span.touches, Bool.and_eq_true, decide_eq_true_eq] at includes
  have start_le := holds.start_le
  constructor
  · rw [containsAt_iff]
    refine ⟨by omega, ?_⟩
    by_contra ge
    rcases holds.le_stop with le | ⟨token, mem, interrupted, le⟩
    · exact notHidden (.atStop (by omega) (by omega))
    · have stop_succ := interrupted.stop_succ
      by_cases behind : token.start = attr.span.stop
      · exact notHidden (.interrupted token mem interrupted behind (by omega))
      · exact notHidden (.atStop (by omega) (by omega))
  · intro child isChild contains
    rw [containsAt_iff] at contains
    have le_child := holds.le_child child isChild
    exact notHidden (.atChild (by omega) child isChild (by omega))

omit includes in
/-- A hidden attribute is not in the node at the offset. -/
private theorem nodeAt_ne_of_hides (nested : doc.WellNested) (linked : doc.Linked)
    (nonempty : ∀ child ∈ doc.children id, 0 < (doc.node child).start →
      (doc.node child).start < (doc.node child).stop)
    (hidden : doc.Hides tokens id attr offset) : doc.nodeAt offset ≠ id := by
  intro found
  have contains : doc.containsAt offset id := by
    rcases doc.nodeAtFrom_eq_or_containsAt root offset with isRoot | contains
    · exact absurd (found.symm.trans isRoot) holds.notRoot
    · rwa [← nodeAt, found] at contains
  have bounds := containsAt_iff.1 contains
  cases hidden with
  | atStop _ ends => omega
  | atChild behind child isChild starts =>
    have ordered := holds.ordered
    have filled := nonempty child isChild (by omega)
    have isIn : doc.containsAt offset child := containsAt_iff.2 (by omega)
    have inText := Nat.lt_of_lt_of_le bounds.2 (nested.stop_le_length id holds.lt)
    -- The search passes through the child, which was made after the node.
    obtain ⟨less, lt⟩ := linked.lt_of_mem_children isChild
    have onPath := (containsAt_iff_mem_path_nodeAt nested linked inText).1 ⟨lt, isIn⟩
    rw [found] at onPath
    exact absurd (Linked.le_of_mem_path onPath) (Nat.not_le_of_lt less)
  | interrupted token _ interrupted behind le =>
    have stop_succ := interrupted.stop_succ
    omega

end HoldsAttribute

end Document

namespace Reading

variable {text : Text} {mode : Mode} {passed : List Token} {r : Reading} {id : Nat}

/-- At the end of the text, nodes that do not start with the text are not empty. -/
private theorem Nested.start_lt_stop_finish (nested : r.Nested text mode)
    (atEnd : r.scanner.cursor.rest = []) (lt : id < r.builder.doc.count)
    (positive : 0 < (r.builder.finish.node id).start) :
    (r.builder.finish.node id).start < (r.builder.finish.node id).stop := by
  have linked := nested.inStep.linked
  have offset := nested.standsIn.offset_add_rest
  rw [atEnd, Text.byteSize_nil, Nat.add_zero] at offset
  rw [(Builder.retouched_finish r.builder).start_eq] at positive ⊢
  rw [nested.spans.stop_finish linked]
  have notRoot : id ≠ Document.root := by
    rintro rfl
    rw [nested.spans.root_start] at positive
    exact Nat.lt_irrefl 0 positive
  split
  · rcases nested.spans.starts id lt notRoot with less | ⟨atZero, -⟩
    · exact offset ▸ less
    · omega
  · next notOpen => exact (nested.spans.ended id lt notOpen).1

private theorem AttributesHeld.finish (h : AttributesHeld text mode passed r)
    (atEnd : r.scanner.cursor.rest = []) {attr : Attribute}
    (mem : attr ∈ r.builder.finish.attributes id) :
    r.builder.finish.HoldsAttribute passed id attr := by
  have nested := h.cut.nested
  have linked := nested.inStep.linked
  have retouched := Builder.retouched_finish r.builder
  have kind := (Builder.kind_finish r.builder id).1
  have offset := nested.standsIn.offset_add_rest
  rw [atEnd, Text.byteSize_nil, Nat.add_zero] at offset
  have mem : attr ∈ r.builder.doc.attributes id := by
    rw [Document.attributes, kind] at mem
    exact mem
  have holds := h.holds id attr mem
  constructor
  case lt => exact retouched.count_eq ▸ holds.lt
  case notRoot =>
    apply linked.doc.ne_root_of_frame
    intro isDocument
    rw [Document.frame] at isDocument
    rw [Document.attributes] at mem
    cases isKind : (r.builder.doc.node id).kind <;> rw [isKind] at isDocument mem
    case document => cases mem
    all_goals cases isDocument
  case ordered => exact holds.ordered
  case start_le => exact retouched.start_eq id ▸ holds.start_le
  case le_stop =>
    by_cases isOpen : id ∈ r.builder.doc.path r.builder.current
    · rw [nested.spans.stop_finish linked, if_pos isOpen, ← offset]
      exact .inl holds.past.le_offset
    · have same := Builder.node_finish linked isOpen
      rw [same]
      refine (holds.le_stop isOpen).imp_right ?_
      rintro ⟨token, mem, interrupted, le⟩
      exact ⟨token, mem, interrupted.of_node_eq same, le⟩
  case le_child =>
    intro child isChild
    rw [retouched.children_eq] at isChild
    rw [retouched.start_eq]
    exact holds.le_child child isChild

end Reading

/-- The look-up finds an attribute of a node at an offset if the attribute includes the offset,
unless it is hidden there: an offset right behind an attribute is not in the node if the node ends
there or a child starts there, and a token right behind an attribute that interrupts the node takes
the last byte of the attribute from the node. It finds nothing else. -/
theorem attributeAt_parse (text uri : Text) (mode : Mode) (offset id : Nat) (attr : Attribute) :
    let doc := Document.parse text uri mode
    doc.attributeAt offset = some (id, attr) ↔
      attr ∈ doc.attributes id ∧ attr.includes offset = true ∧
        ¬ doc.Hides (Scanner.tokenize text mode) id attr offset := by
  intro doc
  obtain ⟨n, passed, last, atEnd, tokens, held⟩ :=
    Reading.exists_atEnd_of_history (fun _ _ _ h ↦ h.rescans)
      (fun _ _ _ _ h ↦ h.emits) (Reading.start_attributesHeld text uri mode)
  rw [List.nil_append] at held
  have tokenize : Scanner.tokenize text mode = passed ++ [last] := tokens
  have finish : ((Reading.start text uri mode).after n).builder.finish = doc :=
    (Reading.parse_eq_finish atEnd).symm
  obtain ⟨-, -, linked, nested⟩ := held.cut.nested.finish atEnd
  have holds : attr ∈ doc.attributes id →
      doc.HoldsAttribute (Scanner.tokenize text mode) id attr := by
    intro mem
    rw [← finish] at mem ⊢
    have holds := held.finish atEnd mem
    refine { holds with le_stop := holds.le_stop.imp_right ?_ }
    rintro ⟨token, isPassed, interrupted⟩
    exact ⟨token, tokenize ▸ List.mem_append_left _ isPassed, interrupted⟩
  rw [finish] at linked nested
  rw [Document.attributeAt_eq_some_iff]
  constructor
  · rintro ⟨found, isFirst⟩
    have mem := List.mem_of_find?_eq_some isFirst
    have includes : attr.includes offset = true := by simpa using List.find?_some isFirst
    refine ⟨mem, includes, fun hidden ↦ ?_⟩
    refine (holds mem).nodeAt_ne_of_hides nested linked (fun child isChild ↦ ?_) hidden found
    have lt := (linked.lt_of_mem_children isChild).2
    rw [← finish] at lt ⊢
    rw [(Builder.retouched_finish _).count_eq] at lt
    exact held.cut.nested.start_lt_stop_finish atEnd lt
  · rintro ⟨mem, includes, notHidden⟩
    obtain ⟨contains, others⟩ := (holds mem).containsAt_of_not_hides includes notHidden
    exact ⟨Document.nodeAt_eq nested linked (holds mem).lt contains others,
      Document.find?_includes (pairwise_apart_parse text uri mode id).2 mem includes⟩

/-- Right behind an attribute at the end of the text there is no node but the root. -/
theorem attributeAt_parse_atEnd :
    let doc := Document.parse ['<', 'a', ' ', 'b'] [] .xml
    let attr : Attribute := .named ['b'] ⟨3, 4⟩
    attr ∈ doc.attributes 1 ∧ attr.includes 4 = true ∧ doc.attributeAt 4 = none := by
  intro doc attr
  have attributes : (Document.parse ['<', 'a', ' ', 'b'] [] .xml).attributes 1 =
      [.named ['b'] ⟨3, 4⟩] := by decide +kernel
  have nothing : (Document.parse ['<', 'a', ' ', 'b'] [] .xml).attributeAt 4 = none := by
    decide +kernel
  exact ⟨attributes ▸ List.mem_singleton_self _, rfl, nothing⟩

/-- A declaration right behind the value takes its last quotation mark from the prolog. -/
example :
    let doc := Document.parse ['<', '?', 'x', 'm', 'l', ' ', 'a', '=', '"', '1', '"', '<', '!', 'E',
      'N', 'T', 'I', 'T', 'Y'] [] .dtd
    (doc.attributes 2).map (·.span) = [⟨6, 11⟩] ∧ (doc.attributeAt 9).map (·.1) = some 2 ∧
      doc.attributeAt 10 = none := by decide +kernel

end TolerantXml
