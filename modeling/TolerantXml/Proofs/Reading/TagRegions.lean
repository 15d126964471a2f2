import TolerantXml.Proofs.Reading.AttributesApart
import TolerantXml.Proofs.Reading.TagOffsets

/-!
# Offsets in tags

A start tag ends at the first token that may not stand in a tag (`tagEnd?`). The element records it
by what it is (`Element.EndsWith`): `>` with its place, `/>` without, and anything else not at all.
So the offsets in the start tag of an element are those behind `<` up to and with the `>` that ends
it, and there are none if something else ends it (`tagRegions_parse`).
-/

namespace TolerantXml

/-- The token that ends a tag, of those that come behind the delimiter that opens it. -/
def tagEnd? (behind : List Token) : Option Token := behind.find? fun token ↦ !token.kind.staysInTag

section TagEnd

variable {behind : List Token} {token close : Token}

private theorem tagEnd?_eq_none (goesOn : ∀ token ∈ behind, token.kind.staysInTag = true) :
    tagEnd? behind = none := by
  rw [tagEnd?, List.find?_eq_none]
  intro token mem
  rw [goesOn token mem]
  decide

/-- A tag that goes on ends at the next token that may not stand in it. -/
theorem tagEnd?_concat (goesOn : ∀ token ∈ behind, token.kind.staysInTag = true) (token : Token) :
    tagEnd? (behind ++ [token]) = if token.kind.staysInTag then none else some token := by
  have none := tagEnd?_eq_none goesOn
  rw [tagEnd?] at none ⊢
  rw [List.find?_append, none, Option.none_or, List.find?_singleton]
  cases token.kind.staysInTag <;> rfl

/-- A tag ends only once. -/
theorem tagEnd?_append (ended : ¬ ∀ token ∈ behind, token.kind.staysInTag = true)
    (ahead : List Token) : tagEnd? (behind ++ ahead) = tagEnd? behind := by
  have some : (tagEnd? behind).isSome = true := by
    rw [tagEnd?, List.find?_isSome]
    simpa using ended
  obtain ⟨close, found⟩ := Option.isSome_iff_exists.1 some
  rw [found]
  rw [tagEnd?] at found ⊢
  rw [List.find?_append, found, Option.some_or]

/-- What ends a tag comes behind all tokens of the tag. -/
private theorem eq_tagTokens_append (found : tagEnd? behind = some close) :
    ∃ ahead, behind = tagTokens behind ++ close :: ahead := by
  rw [tagEnd?, List.find?_eq_some_iff_append] at found
  obtain ⟨ends, inside, ahead, split, stays⟩ := found
  have tag : tagTokens behind = inside := by
    have inTag : ∀ token ∈ inside, token.kind.staysInTag = true := by simpa using stays
    rw [split, tagTokens, List.takeWhile_append_of_pos inTag,
      List.takeWhile_cons_of_neg (by simpa using ends), List.append_nil]
  exact ⟨ahead, by rw [tag, ← split]⟩

end TagEnd

/-- Whether an element records the token that ends its start tag, which may not have come. -/
structure Element.EndsWith (e : Element) (ending : Option Token) : Prop where
  startTagClose : e.startTagClose =
    (ending.filter fun close ↦ close.kind = .startTagClose).map (·.start)
  selfClosed : e.selfClosed = ending.any fun close ↦ close.kind = .emptyTagClose

namespace Element.EndsWith

variable {e : Element} {ending : Option Token}

theorem startTagClose_eq_some_iff (ends : e.EndsWith ending) {place : Nat} :
    e.startTagClose = some place ↔
      ∃ close, ending = some close ∧ close.kind = .startTagClose ∧ close.start = place := by
  simp only [ends.startTagClose, Option.map_eq_some_iff, Option.filter_eq_some_iff, and_assoc,
    decide_eq_true_iff]

/-- A token that ends no start tag makes no difference. -/
theorem concat {behind : List Token} {last : Token} (ends : e.EndsWith (tagEnd? behind))
    (notClose : last.kind ≠ .startTagClose) (notEmpty : last.kind ≠ .emptyTagClose) :
    e.EndsWith (tagEnd? (behind ++ [last])) := by
  by_cases goesOn : ∀ token ∈ behind, token.kind.staysInTag = true
  · rw [tagEnd?_concat goesOn]
    rw [tagEnd?_eq_none goesOn] at ends
    split
    · exact ends
    · constructor
      · rw [ends.startTagClose, Option.filter_some, if_neg (by simpa using notClose)]
        rfl
      · rw [ends.selfClosed, Option.any_some, decide_eq_false notEmpty]
        rfl
  · rwa [tagEnd?_append goesOn]

private theorem selfClosed_iff (ends : e.EndsWith ending) :
    e.selfClosed = true ↔ ∃ close, ending = some close ∧ close.kind = .emptyTagClose := by
  simp only [ends.selfClosed, Option.any_eq_true, decide_eq_true_iff]

end Element.EndsWith

/-- The end of an attribute is that of a token that writes it. -/
private theorem Attribute.exists_word_of_mem_occurrences {attr : Attribute} {tokens : List Token}
    (mem : attr ∈ occurrences tokens) : ∃ word ∈ tokens, attr.span.stop = word.stop := by
  induction tokens with
  | nil => cases mem
  | cons token tokens ih =>
    have later (mem : attr ∈ occurrences tokens) :
        ∃ word ∈ token :: tokens, attr.span.stop = word.stop := by
      obtain ⟨word, mem, stop⟩ := ih mem
      exact ⟨word, List.mem_cons_of_mem _ mem, stop⟩
    rw [occurrences] at mem
    split at mem
    · rcases List.mem_cons.1 mem with rfl | mem
      · rcases exists_word_of_written token (tokens.takeWhile (·.kind ≠ .attributeName)) with
          stop | ⟨value, mem, -, stop⟩
        · exact ⟨token, List.mem_cons_self, stop⟩
        · exact ⟨value, List.mem_cons_of_mem _ (List.takeWhile_subset _ mem), stop⟩
      · exact later mem
    · exact later mem

/-- What a tag writes stands behind the delimiter that opens it and in front of what ends it. -/
private theorem Attribute.between_of_mem_occurrences {attr : Attribute} {opening close : Token}
    {behind : List Token}
    (ordered : (opening :: behind).Pairwise fun first second ↦ first.stop ≤ second.start)
    (found : tagEnd? behind = some close) (mem : attr ∈ occurrences (tagTokens behind)) :
    opening.stop ≤ attr.span.start ∧ attr.span.stop ≤ close.start := by
  obtain ⟨ahead, split⟩ := eq_tagTokens_append found
  obtain ⟨first, ordered⟩ := List.pairwise_cons.1 ordered
  obtain ⟨name, isName, -, start⟩ := exists_name_of_mem_occurrences mem
  obtain ⟨word, isWord, stop⟩ := exists_word_of_mem_occurrences mem
  rw [start, stop]
  constructor
  · exact first name (List.takeWhile_subset _ ((List.dropWhile_suffix _).subset isName))
  · rw [split, List.pairwise_append] at ordered
    exact ordered.2.2 word isWord close List.mem_cons_self

theorem Attribute.between_of_tokenize {attr : Attribute} {text : Text} {mode : Mode}
    {before behind : List Token} {opening close : Token}
    (split : Scanner.tokenize text mode = before ++ opening :: behind)
    (notEnd : opening.kind ≠ .eos) (found : tagEnd? behind = some close)
    (mem : attr ∈ occurrences (tagTokens behind)) :
    opening.start < attr.span.start ∧ attr.span.stop ≤ close.start := by
  have ordered := Scanner.pairwise_tokens (Scanner.start text mode)
  have stands : (Scanner.start text mode).cursor.StandsIn text := Cursor.atStart_standsIn text
  have isToken : opening ∈ (Scanner.start text mode).tokens := by
    rw [← Scanner.tokenize, split]
    simp
  obtain ⟨nonempty, -⟩ := Scanner.slice?_of_mem_tokens stands isToken notEnd
  rw [← Scanner.tokenize, split] at ordered
  obtain ⟨behindOpening, beforeClose⟩ :=
    between_of_mem_occurrences (List.pairwise_append.1 ordered).2.1 found mem
  exact ⟨Nat.lt_of_lt_of_le nonempty behindOpening, beforeClose⟩

/-! ### What a token does to the end of a start tag -/

private theorem Scanner.Config.Emits.withinTag_of_startTagOpen {config next : Scanner.Config}
    {taken : Text} (emits : config.Emits .startTagOpen taken next) :
    next.state.withinTag = true := by
  cases emits with
  | startTagOpen => rfl
  | doctypePart _ fills | elementPart _ fills | attlistPart _ fills | entityPart _ fills =>
    cases fills

/-- The end of a start tag is recorded in the current node, and nothing else is. -/
theorem Builder.startTagEnd_apply {b : Builder} {token : Token} {id : Nat} {e e' : Element}
    (linked : b.Linked) (isOld : (b.doc.node id).kind = .element e)
    (isElement : ((b.apply token).doc.node id).kind = .element e') :
    e'.startTagClose = (if token.kind = .startTagClose ∧ id = b.current then some token.start
      else e.startTagClose) ∧
    e'.selfClosed =
      (decide (token.kind = .emptyTagClose ∧ id = b.current) || e.selfClosed) := by
  have lt := Document.lt_count_of_element isOld
  have records := (records_apply linked token).old id lt
  rw [isElement, isOld] at records
  by_cases isEnd : token.kind = .startTagClose ∨ token.kind = .emptyTagClose
  · rcases isEnd with kind | kind
    all_goals
      simp only [subject, rewrite, kind, NodeKind.modifyElement, NodeKind.modifyInstruction]
        at records
      split at records
      · next isCurrent =>
        obtain rfl := NodeKind.element.inj records
        simp [kind, isCurrent]
      · next notCurrent =>
        obtain rfl := NodeKind.element.inj records
        simp [kind, notCurrent]
  · rw [not_or] at isEnd
    rcases element_cases linked isElement with ⟨-, before, wasOld, takes⟩ | ⟨isNew, -⟩
    · obtain rfl := NodeKind.element.inj (isOld.symm.trans wasOld)
      rw [takes.startTagClose_cases.resolve_right fun change ↦ isEnd.1 change.1,
        takes.selfClosed_cases.resolve_right fun change ↦ isEnd.2 change.1]
      simp [isEnd]
    · exact absurd lt (Nat.not_lt_of_le isNew)

namespace Reading

variable {text uri : Text} {mode : Mode} {passed behind : List Token} {r : Reading}
  {token : Token} {next : Scanner.Config} {id : Nat} {e e' : Element}

/-- The tag that is being read is the one that goes on. -/
private theorem ReadsTag.eq_current_iff (reads : r.ReadsTag passed behind id)
    (within : r.scanner.config.state.withinTag = true) :
    id = r.builder.current ↔ ∀ token ∈ behind, token.kind.staysInTag = true := by
  constructor
  · exact reads.inside within
  · intro goesOn
    by_contra notCurrent
    obtain ⟨last, mem, ended⟩ := reads.outside within notCurrent
    rw [goesOn last mem] at ended
    cases ended

/-- What holds of the ends of start tags in a reading, behind some tokens. -/
structure TagsEnded (text : Text) (mode : Mode) (passed : List Token) (r : Reading) : Prop where
  placed : TagsPlaced text mode passed r
  read : AttributesRead passed r
  ends : ∀ id e, (r.builder.doc.node id).kind = .element e → e.startTagOpen.isSome = true →
    ∃ behind, r.ReadsTag passed behind id ∧ e.EndsWith (tagEnd? behind)
  tagless : ∀ id e, (r.builder.doc.node id).kind = .element e → e.startTagOpen = none →
    e.startTagClose = none

namespace TagsEnded

private theorem rescans (h : TagsEnded text mode passed r)
    (rescans : r.scanner.config.Rescans next) :
    TagsEnded text mode passed ⟨⟨next, r.scanner.cursor⟩, r.builder⟩ where
  placed := h.placed.rescans rescans
  read := h.read.rescans rescans
  ends id e isElement opened := by
    obtain ⟨behind, reads, ends⟩ := h.ends id e isElement opened
    exact ⟨behind, reads.rescans h.read.aimed.inStep.sound rescans, ends⟩
  tagless := h.tagless

section Emits

variable (h : TagsEnded text mode passed r) (emits : r.Emits token next)
include h emits

/-- The end of a start tag is recorded as it is read, and stays as it is. -/
private theorem endsWith_apply (reads : r.ReadsTag passed behind id)
    (ends : e.EndsWith (tagEnd? behind)) (isOld : (r.builder.doc.node id).kind = .element e)
    (isElement : ((r.builder.apply token).doc.node id).kind = .element e') :
    e'.EndsWith (tagEnd? (behind ++ [token])) := by
  have linked := h.read.aimed.inStep.linked
  obtain ⟨close, empty⟩ := Builder.startTagEnd_apply linked isOld isElement
  -- `>` and `/>` are read inside a tag, which is the one that did not end yet.
  have isCurrent (isEnd : token.kind = .startTagClose ∨ token.kind = .emptyTagClose) :
      id = r.builder.current ↔ ∀ token ∈ behind, token.kind.staysInTag = true := by
    apply reads.eq_current_iff
    rcases isEnd with kind | kind <;> rw [emits.transition.state_of_kind kind rfl] <;> rfl
  by_cases goesOn : ∀ token ∈ behind, token.kind.staysInTag = true
  · rw [tagEnd?_concat goesOn]
    have none := tagEnd?_eq_none goesOn
    have notClosed : e.startTagClose = .none := by rw [ends.startTagClose, none]; rfl
    have notEmpty : e.selfClosed = false := by rw [ends.selfClosed, none]; rfl
    constructor
    case startTagClose =>
      rw [close, notClosed]
      by_cases kind : token.kind = .startTagClose
      · rw [if_pos ⟨kind, (isCurrent (.inl kind)).2 goesOn⟩, kind]
        simp [TokenKind.staysInTag, kind]
      · rw [if_neg fun both ↦ kind both.1]
        split <;> simp [kind]
    case selfClosed =>
      rw [empty, notEmpty, Bool.or_false]
      by_cases kind : token.kind = .emptyTagClose
      · simp [TokenKind.staysInTag, kind, (isCurrent (.inr kind)).2 goesOn]
      · split <;> simp [kind]
  · rw [tagEnd?_append goesOn]
    constructor
    case startTagClose =>
      rw [close, if_neg fun both ↦ goesOn ((isCurrent (.inl both.1)).1 both.2)]
      exact ends.startTagClose
    case selfClosed =>
      rw [empty, decide_eq_false fun both ↦ goesOn ((isCurrent (.inr both.1)).1 both.2),
        Bool.false_or]
      exact ends.selfClosed

private theorem ends_apply (isElement : ((r.builder.apply token).doc.node id).kind = .element e')
    (opened : e'.startTagOpen.isSome = true) : ∃ behind,
      ReadsTag ⟨⟨next, r.scanner.cursor.advance token.text⟩, r.builder.apply token⟩
        (passed ++ [token]) behind id ∧ e'.EndsWith (tagEnd? behind) := by
  have linked := h.read.aimed.inStep.linked
  rcases Builder.element_cases linked isElement with ⟨-, e, isOld, takes⟩ | ⟨isNew, added⟩
  · rw [takes.startTagOpen_eq] at opened
    obtain ⟨behind, reads, ends⟩ := h.ends id e isOld opened
    have isTagged : r.builder.doc.IsTagged id := by
      left
      rwa [Document.landmarks, isOld]
    exact ⟨behind ++ [token], reads.emits h.read.aimed emits.transition isTagged,
      h.endsWith_apply emits reads ends isOld isElement⟩
  · cases added with
    | endTag => cases opened
    | startTag kind =>
      have read := h.read.emits emits
      have isTagged : (r.builder.apply token).doc.IsTagged id := by
        left
        rw [Document.landmarks, isElement]
        rfl
      obtain ⟨behind, reads⟩ := read.tagged id isTagged
      have isCurrent : id = (r.builder.apply token).current := by
        rcases Builder.isTagged_cases linked isTagged with was | ⟨-, isCurrent⟩
        · exact absurd was.lt (Nat.not_lt_of_le isNew)
        · exact isCurrent
      have within := (kind ▸ emits.transition).withinTag_of_startTagOpen
      refine ⟨behind, reads, ?_⟩
      rw [tagEnd?_eq_none (reads.inside within isCurrent)]
      exact ⟨rfl, rfl⟩

/-- An element without a start tag never gets the end of one. -/
private theorem tagless_apply (isElement : ((r.builder.apply token).doc.node id).kind = .element e')
    (notOpened : e'.startTagOpen = none) : e'.startTagClose = none := by
  have linked := h.read.aimed.inStep.linked
  rcases Builder.element_cases linked isElement with ⟨-, e, isOld, takes⟩ | ⟨-, added⟩
  · rw [takes.startTagOpen_eq] at notOpened
    rw [(Builder.startTagEnd_apply linked isOld isElement).1, if_neg,
      h.tagless id e isOld notOpened]
    rintro ⟨kind, rfl⟩
    have isTagged := h.read.current (by rw [emits.transition.state_of_kind kind rfl]; rfl)
    rw [Document.IsTagged, Document.landmarks, Document.frame, isOld] at isTagged
    rcases isTagged with opened | isInstruction
    · rw [NodeKind.landmarks, notOpened] at opened
      cases opened
    · cases isInstruction
  · cases added with
    | startTag | endTag => rfl

end Emits

private theorem emits (h : TagsEnded text mode passed r) (emits : r.Emits token next) :
    TagsEnded text mode (passed ++ [token])
      ⟨⟨next, r.scanner.cursor.advance token.text⟩, r.builder.apply token⟩ where
  placed := h.placed.emits emits
  read := h.read.emits emits
  ends _ _ := h.ends_apply emits
  tagless _ _ := h.tagless_apply emits

end TagsEnded

private theorem start_tagsEnded (text uri : Text) (mode : Mode) :
    TagsEnded text mode [] (start text uri mode) where
  placed := start_tagsPlaced text uri mode
  read := start_attributesRead text uri mode
  ends id e isElement := absurd isElement (Builder.kind_start_ne_element text uri mode id e)
  tagless id e isElement := absurd isElement (Builder.kind_start_ne_element text uri mode id e)

end Reading

/-! ### Offsets in the tags of an element -/

section Offsets

variable {node : Node} {e : Element} {offset : Nat}

private theorem Node.inStartTag_iff (isElement : node.kind = .element e) :
    node.inStartTag offset = true ↔ ∃ opening close, e.startTagOpen = some opening ∧
      e.startTagClose = some close ∧ opening < offset ∧ offset ≤ close := by
  rw [inStartTag, isElement, NodeKind.element?]
  rcases e with ⟨_, _, opened, closed, _, _, _⟩
  cases opened <;> cases closed <;> simp

private theorem Node.inStartTag_iff_of_endsWith {ending : Option Token} {place : Nat}
    (isElement : node.kind = .element e) (isPlace : e.startTagOpen = some place)
    (ends : e.EndsWith ending) :
    node.inStartTag offset = true ↔ ∃ close, ending = some close ∧
      close.kind = .startTagClose ∧ place < offset ∧ offset ≤ close.start := by
  rw [inStartTag_iff isElement]
  constructor
  · rintro ⟨opening, stop, isOpening, isClose, after, upTo⟩
    obtain rfl := Option.some.inj (isPlace.symm.trans isOpening)
    obtain ⟨close, found, isEnd, rfl⟩ := ends.startTagClose_eq_some_iff.1 isClose
    exact ⟨close, found, isEnd, after, upTo⟩
  · rintro ⟨close, found, isEnd, after, upTo⟩
    exact ⟨place, close.start, isPlace,
      ends.startTagClose_eq_some_iff.2 ⟨close, found, isEnd, rfl⟩, after, upTo⟩

private theorem Node.inEndTag_iff (isElement : node.kind = .element e) :
    node.inEndTag offset = true ↔ ∃ opening, e.endTagOpen = some opening ∧
      opening < offset ∧ offset < node.stop := by
  rw [inEndTag, isElement, NodeKind.element?, Option.bind_some, Option.any_eq_true]
  simp only [Bool.and_eq_true, decide_eq_true_iff]

end Offsets

private theorem Document.TagOpening.of_element {doc : Document} {id : Nat} {opening : Token}
    {e : Element}
    (opens : doc.TagOpening id opening) (isElement : (doc.node id).kind = .element e) :
    opening.kind = .startTagOpen ∧ e.startTagOpen = some opening.start := by
  cases opens with
  | element isOpening place =>
    rw [Document.landmarks, isElement] at place
    exact ⟨isOpening, place⟩
  | instruction _ frame =>
    rw [Document.frame, isElement] at frame
    cases frame

/-- What an element of a document records of the end of its start tag, and what comes behind it. -/
theorem exists_tagEnd_parse (text uri : Text) (mode : Mode) {id : Nat} {e : Element}
    (kind : ((Document.parse text uri mode).node id).kind = .element e) :
    (∀ place, e.startTagOpen = some place → ∃ before opening behind,
      Scanner.tokenize text mode = before ++ opening :: behind ∧ opening.kind = .startTagOpen ∧
        opening.start = place ∧ e.EndsWith (tagEnd? behind) ∧
        e.attributes = Attribute.collect (Attribute.occurrences (tagTokens behind))) ∧
    (e.startTagOpen = none → e.startTagClose = none) ∧
    ∀ close opening, e.startTagClose = some close → e.endTagOpen = some opening →
      close < opening := by
  obtain ⟨n, passed, last, atEnd, tokens, ended⟩ :=
    Reading.exists_atEnd_of_history (fun _ _ _ h ↦ h.rescans)
      (fun _ _ _ _ h ↦ h.emits) (Reading.start_tagsEnded text uri mode)
  rw [List.nil_append] at ended
  have tokenize : Scanner.tokenize text mode = passed ++ [last] := tokens
  have isEnd : last.kind = .eos := Scanner.kind_of_tokenize_eq_concat tokenize
  rw [Reading.parse_eq_finish atEnd, (Builder.kind_finish _ id).1] at kind
  refine ⟨fun place isPlace ↦ ?_, ended.tagless id e kind, fun close opening isClose isOpening ↦ ?_⟩
  · obtain ⟨behind, reads, ends⟩ := ended.ends id e kind (isPlace ▸ rfl)
    obtain ⟨before, opening, split, opens⟩ := reads.opened
    obtain ⟨isOpening, isStart⟩ := opens.of_element kind
    obtain rfl := Option.some.inj (isPlace.symm.trans isStart)
    refine ⟨before, opening, behind ++ [last], ?_, isOpening, rfl,
      ends.concat (by rw [isEnd]; decide) (by rw [isEnd]; decide), ?_⟩
    · rw [tokenize, split, List.append_assoc, List.cons_append]
    · rw [occurrences_tagTokens_concat (by rw [isEnd]; decide) (by rw [isEnd]; decide),
        ← reads.attributes_eq, Document.attributes, kind]
      rfl
  · exact ((ended.placed.started id e kind).closes close isClose).endTag opening isOpening

/-- Which offsets lie in the tags of an element: behind `<` those up to and with the `>` that ends
the start tag, and none if something else does. The attributes stand between what opens the start
tag and what ends it, and no offset is in both tags. -/
structure Document.TagRegions (doc : Document) (tokens : List Token) (id : Nat) (e : Element) :
    Prop where
  startTag : ∀ place, e.startTagOpen = some place → ∃ before opening behind,
    tokens = before ++ opening :: behind ∧ opening.kind = .startTagOpen ∧ opening.start = place ∧
      (∀ offset, (doc.node id).inStartTag offset = true ↔ ∃ close, tagEnd? behind = some close ∧
        close.kind = .startTagClose ∧ place < offset ∧ offset ≤ close.start) ∧
      (e.selfClosed = true ↔ ∃ close, tagEnd? behind = some close ∧ close.kind = .emptyTagClose) ∧
      ∀ close, tagEnd? behind = some close → ∀ attr ∈ e.attributes, ∀ offset,
        attr.span.contains offset = true → place < offset ∧ offset < close.start
  tagless : e.startTagOpen = none → ∀ offset, (doc.node id).inStartTag offset = false
  disjoint : ∀ offset,
    ¬ ((doc.node id).inStartTag offset = true ∧ (doc.node id).inEndTag offset = true)

/-- An offset is in the start tag of an element if it lies behind `<` and not behind the `>` that
ends the tag. All attributes lie there; a tag that `/>` ends has no such offsets. -/
theorem tagRegions_parse (text uri : Text) (mode : Mode) {id : Nat} {e : Element}
    (kind : ((Document.parse text uri mode).node id).kind = .element e) :
    (Document.parse text uri mode).TagRegions (Scanner.tokenize text mode) id e := by
  obtain ⟨opened, tagless, before⟩ := exists_tagEnd_parse text uri mode kind
  constructor
  case startTag =>
    intro place isPlace
    obtain ⟨front, opening, behind, split, isOpening, rfl, ends, attributes⟩ := opened place isPlace
    refine ⟨front, opening, behind, split, isOpening, rfl, fun offset ↦ ?_, ends.selfClosed_iff,
      fun close found attr mem offset inside ↦ ?_⟩
    · exact Node.inStartTag_iff_of_endsWith kind isPlace ends
    · rw [attributes, Attribute.collect_eq] at mem
      obtain ⟨behindOpening, beforeClose⟩ := Attribute.between_of_tokenize split
        (by rw [isOpening]; decide) found (Attribute.mem_of_mem_lastOfEach mem)
      simp only [Span.contains, Bool.and_eq_true, decide_eq_true_iff] at inside
      omega
  case tagless =>
    intro notOpened offset
    rw [Bool.eq_false_iff, ne_eq, Node.inStartTag_iff kind, notOpened]
    rintro ⟨_, _, ⟨⟩, -⟩
  case disjoint =>
    rintro offset ⟨inStartTag, inEndTag⟩
    obtain ⟨-, close, -, isClose, -, atMost⟩ := (Node.inStartTag_iff kind).1 inStartTag
    obtain ⟨opening, isOpening, behind, -⟩ := (Node.inEndTag_iff kind).1 inEndTag
    have := before close opening isClose isOpening
    omega

/-- An element with an attribute and both tags. -/
theorem tagRegions_parse_pair :
    let text : Text := ['<', 'a', ' ', 'b', '=', '1', '>', '<', '/', 'a', '>']
    let e : Element :=
      { tagName := some ['a'], attributes := [⟨['b'], ⟨3, 4⟩, some ['1'], some ⟨5, 6⟩⟩],
        startTagOpen := some 0, startTagClose := some 6, endTagOpen := some 7,
        endTagClose := some 10 }
    ((Document.parse text [] .xml).node 1).kind = .element e ∧
      (Document.parse text [] .xml).TagRegions (Scanner.tokenize text .xml) 1 e := by
  intro text e
  have kind : ((Document.parse text [] .xml).node 1).kind = .element e := by decide +kernel
  exact ⟨kind, tagRegions_parse text [] .xml kind⟩

/-- No offset is in a start tag that `/>` ends. -/
theorem inStartTag_parse_emptyTag :
    let text : Text := ['<', 'a', '/', '>']
    let e : Element := { tagName := some ['a'], startTagOpen := some 0, selfClosed := true }
    let doc := Document.parse text [] .xml
    (Scanner.tokenize text .xml).map (fun token ↦ (token.kind, token.start, token.stop)) =
        [(.startTagOpen, 0, 1), (.startTag, 1, 2), (.emptyTagClose, 2, 4), (.eos, 4, 4)] ∧
      (doc.node 1).kind = .element e ∧
      ¬ ∀ offset, (doc.node 1).inStartTag offset = true ↔ 0 < offset ∧ offset ≤ 3 := by
  intro text e doc
  have kind : ((Document.parse text [] .xml).node 1).kind = .element e := by decide +kernel
  refine ⟨by decide +kernel, kind, fun all ↦ ?_⟩
  obtain ⟨_, _, -, ⟨⟩, -⟩ := (Node.inStartTag_iff kind).1 ((all 1).2 ⟨by decide, by decide⟩)

end TolerantXml
