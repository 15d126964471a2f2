import TolerantXml.Proofs.Reading.TagTokens
import TolerantXml.Proofs.Tree.Owned

/-!
# The places of tags

The start tag of an element belongs to it up to the end of its name, and so does its last end tag
(`ownedTags_parse`): no child of the element reaches into them, and the start tag comes before the
end tag.
-/

namespace TolerantXml

namespace Reading

variable {text : Text} {mode : Mode} {passed : List Token} {r : Reading} {token : Token}
  {next : Scanner.Config} {place first last id : Nat}

/-- Whether a place was read, and comes before the end tag whose name is read next. -/
structure Past (r : Reading) (place : Nat) : Prop where
  le_offset : place ≤ r.scanner.cursor.offset
  le_opening : r.scanner.config.state = .endTagName →
    ∀ opening, r.builder.endTagOpen = some opening → place ≤ opening

/-- Whether a stretch of the text that was read belongs to a node and to none of its children. -/
structure Owns (r : Reading) (id first last : Nat) : Prop where
  spans : r.builder.Owns id first last
  past : r.Past last

theorem Past.rescans (h : r.Past place) (sound : r.scanner.config.Sound)
    (rescans : r.scanner.config.Rescans next) :
    Past ⟨⟨next, r.scanner.cursor⟩, r.builder⟩ place where
  le_offset := h.le_offset
  le_opening state := absurd state (rescans.ne_nameState sound .closing)

theorem past_apply (sound : r.scanner.config.Sound) (emits : r.Emits token next)
    (le : place ≤ r.scanner.cursor.offset + token.text.byteSize)
    (before : token.kind = .endTagOpen ∨ token.kind = .whitespace → r.Past place) :
    Past ⟨⟨next, r.scanner.cursor.advance token.text⟩, r.builder.apply token⟩ place where
  le_offset := le
  le_opening state opening endTagOpen := by
    rw [Builder.endTagOpen_apply] at endTagOpen
    rcases emits.transition.cases_of_nameState sound .closing state with
      ⟨kind, -⟩ | ⟨wasName, kind⟩
    · have kind : token.kind = .endTagOpen := kind
      rw [kind, if_pos rfl] at endTagOpen
      obtain rfl := Option.some.inj endTagOpen
      rw [emits.start_eq]
      exact (before (.inl kind)).le_offset
    · rw [kind, if_neg (by decide)] at endTagOpen
      exact (before (.inr kind)).le_opening wasName opening endTagOpen

/-- What holds of the places of tags in a reading of a text, behind some tokens. -/
structure TagsOwned (text : Text) (mode : Mode) (passed : List Token) (r : Reading) : Prop where
  nested : r.Nested text mode
  tags : TagsRead passed r
  starts : ∀ id place, (r.builder.doc.landmarks id).startTagOpen = some place →
    (r.builder.doc.node id).start = place
  childless : r.scanner.config.state = .startTagName →
    r.builder.doc.children r.builder.current = []
  beforeEndName : r.scanner.config.state = .endTagName → ∀ opening,
    r.builder.endTagOpen = some opening → opening + 2 ≤ r.scanner.cursor.offset
  startNames : ∀ id place name, (r.builder.doc.landmarks id).startTagOpen = some place →
    (r.builder.doc.landmarks id).tagName = some name →
      r.Owns id place (place + 1 + name.byteSize) ∧
        ∀ place', (r.builder.doc.landmarks id).endTagOpen = some place' →
          place + 1 + name.byteSize ≤ place'
  endNames : ∀ id place, (r.builder.doc.landmarks id).endTagOpen = some place →
    ∃ opening token, TagSide.closing.Names passed opening token ∧ opening.start = place ∧
      r.Owns id place (place + 2 + token.text.byteSize)

namespace TagsOwned

theorem rescans (h : TagsOwned text mode passed r) (rescans : r.scanner.config.Rescans next) :
    TagsOwned text mode passed ⟨⟨next, r.scanner.cursor⟩, r.builder⟩ where
  nested := h.nested.rescans rescans
  tags := h.tags.rescans rescans
  starts := h.starts
  childless state := absurd state (rescans.ne_nameState h.nested.inStep.sound .opening)
  beforeEndName state := absurd state (rescans.ne_nameState h.nested.inStep.sound .closing)
  startNames id place name startTagOpen tagName := by
    obtain ⟨owns, before⟩ := h.startNames id place name startTagOpen tagName
    exact ⟨⟨owns.spans, owns.past.rescans h.nested.inStep.sound rescans⟩, before⟩
  endNames id place endTagOpen := by
    obtain ⟨opening, token, names, start, owns⟩ := h.endNames id place endTagOpen
    exact ⟨opening, token, names, start, owns.spans,
      owns.past.rescans h.nested.inStep.sound rescans⟩

section Emits

variable (h : TagsOwned text mode passed r) (emits : r.Emits token next)
include h emits

/-- A token leaves what belongs to an element. -/
private theorem owns_apply (owns : r.Owns id first last)
    (isElement : r.builder.doc.frame id = .element) :
    Owns ⟨⟨next, r.scanner.cursor.advance token.text⟩, r.builder.apply token⟩ id first last := by
  have linked := h.nested.inStep.linked
  have start := emits.start_eq
  have stop := emits.stop_eq
  have before := owns.past.le_offset
  have lt : id < r.builder.doc.count := by
    by_contra outside
    rw [Document.frame, Document.node_of_count_le (Nat.le_of_not_lt outside)] at isElement
    cases isElement
  refine ⟨owns.spans.step linked (linked.apply token) lt isElement
    (Builder.takes_apply linked token) ?_, ?_⟩
  · refine Builder.beyond_apply linked h.nested.inStep.fits emits.transition (by omega) (by omega)
      ?_
    intro kind
    have state : r.scanner.config.state = .endTagName := emits.transition.state_of_kind kind rfl
    obtain ⟨opening, -, atOpening, -⟩ := h.nested.endTag state
    rw [atOpening]
    exact owns.past.le_opening state opening atOpening
  · exact past_apply h.nested.inStep.sound emits (by omega) fun _ ↦ owns.past

omit emits in
private theorem starts_apply {place : Nat}
    (startTagOpen : ((r.builder.apply token).doc.landmarks id).startTagOpen = some place) :
    ((r.builder.apply token).doc.node id).start = place := by
  have linked := h.nested.inStep.linked
  have takes := Builder.takes_apply linked token
  rcases (Builder.marks_apply linked token).startTagOpen_cases startTagOpen with
    ⟨lt, before⟩ | ⟨kind, ge, lt, rfl⟩
  · rw [(takes.place_eq linked lt).2.1]
    exact h.starts id place before
  · obtain ⟨-, -, -, isCurrent⟩ := takes.new_cases linked ge lt
    have isCurrent := isCurrent.resolve_left (by simp [kind])
    have opened := (Builder.openElement_eq linked token.span).1
    rw [← isCurrent]
    simp only [Builder.apply, kind]
    exact opened

private theorem childless_apply (state : next.state = .startTagName) :
    (r.builder.apply token).doc.children (r.builder.apply token).current = [] := by
  rcases emits.transition.cases_of_nameState h.nested.inStep.sound .opening state with
    ⟨kind, -⟩ | ⟨before, kind⟩
  · simp only [Builder.apply, kind, TagSide.opens]
    exact (Builder.openElement_eq h.nested.inStep.linked token.span).2
  · simp only [Builder.apply, kind]
    exact h.childless before

private theorem beforeEndName_apply {opening : Nat} (state : next.state = .endTagName)
    (endTagOpen : (r.builder.apply token).endTagOpen = some opening) :
    opening + 2 ≤ r.scanner.cursor.offset + token.text.byteSize := by
  rw [Builder.endTagOpen_apply] at endTagOpen
  rcases emits.transition.cases_of_nameState h.nested.inStep.sound .closing state with
    ⟨kind, taken⟩ | ⟨before, kind⟩
  · have kind : token.kind = .endTagOpen := kind
    have size : token.text.byteSize = 2 := congrArg Text.byteSize taken
    rw [kind, if_pos rfl, emits.start_eq] at endTagOpen
    have isOffset : r.scanner.cursor.offset = opening := Option.some.inj endTagOpen
    omega
  · rw [kind, if_neg (by decide)] at endTagOpen
    have := h.beforeEndName before opening endTagOpen
    omega

private theorem startNames_apply {place : Nat} {name : Text}
    (startTagOpen : ((r.builder.apply token).doc.landmarks id).startTagOpen = some place)
    (tagName : ((r.builder.apply token).doc.landmarks id).tagName = some name) :
    Owns ⟨⟨next, r.scanner.cursor.advance token.text⟩, r.builder.apply token⟩ id place
        (place + 1 + name.byteSize) ∧
      ∀ place', ((r.builder.apply token).doc.landmarks id).endTagOpen = some place' →
        place + 1 + name.byteSize ≤ place' := by
  have linked := h.nested.inStep.linked
  have sound := h.nested.inStep.sound
  have marks := Builder.marks_apply linked token
  rcases marks.startTagOpen_cases startTagOpen with ⟨lt, before⟩ | ⟨-, ge, -⟩
  · have takes := marks.old id lt
    have isElement := Document.frame_of_landmarks (.inl before)
    rcases takes.tagName_cases with same | ⟨kind, rfl, isName⟩
    · obtain ⟨owns, ends⟩ := h.startNames id place name before (same.symm.trans tagName)
      refine ⟨h.owns_apply emits owns isElement, fun place' endTagOpen ↦ ?_⟩
      rcases takes.endTagOpen_cases with same | ⟨kind, -, isPlace⟩
      · exact ends place' (same.symm.trans endTagOpen)
      · have state : r.scanner.config.state = .endTagName := emits.transition.state_of_kind kind rfl
        obtain ⟨opening, -, atOpening, -⟩ := h.nested.endTag state
        rw [atOpening, Option.getD_some, endTagOpen] at isPlace
        rw [Option.some.inj isPlace]
        exact owns.past.le_opening state opening atOpening
    · have state : r.scanner.config.state = .startTagName := emits.transition.state_of_kind kind rfl
      obtain ⟨_, -, landmarks⟩ := h.tags.beforeName state
      have startsAt := h.starts _ place before
      have xml : mode = .xml := h.nested.mode_eq.symm.trans
        (sound.mode_eq_xml (by simp [state, Scanner.State.ofDeclarations]))
      have notRoot : r.builder.current ≠ Document.root :=
        linked.doc.ne_root_of_frame (by rw [isElement]; decide)
      have spans := h.nested.spans
      rw [xml] at spans
      have before := spans.start_lt_of_xml linked.current_lt notRoot
      obtain rfl : name = token.text := Option.some.inj (tagName.symm.trans isName)
      have owns : r.builder.Owns r.builder.current place (place + 1 + token.text.byteSize) :=
        ⟨Nat.le_of_eq startsAt, fun notOpen ↦ absurd Document.Linked.mem_path_self notOpen,
          by rw [h.childless state]; exact List.forall_mem_nil _⟩
      have named := (Builder.retouched_nameElement r.builder token).owns_current linked owns
      refine ⟨⟨?_, past_apply sound emits (by omega) (by simp [kind])⟩, ?_⟩
      · simp only [Builder.apply, kind]
        exact (Builder.retouched_nameElement r.builder token).current_eq ▸ named
      · intro place' endTagOpen
        rcases takes.endTagOpen_cases with same | ⟨kind', -⟩
        · rw [landmarks] at same
          rw [same] at endTagOpen
          cases endTagOpen
        · rw [kind] at kind'
          cases kind'
  · rw [marks.tagName_eq_none ge startTagOpen] at tagName
    cases tagName

private theorem endNames_apply {place : Nat}
    (endTagOpen : ((r.builder.apply token).doc.landmarks id).endTagOpen = some place) :
    ∃ opening named, TagSide.closing.Names (passed ++ [token]) opening named ∧
      opening.start = place ∧
      Owns ⟨⟨next, r.scanner.cursor.advance token.text⟩, r.builder.apply token⟩ id place
        (place + 2 + named.text.byteSize) := by
  have linked := h.nested.inStep.linked
  have sound := h.nested.inStep.sound
  by_cases isNamed : token.kind = .endTag ∧ id = (r.builder.apply token).current
  · obtain ⟨kind, rfl⟩ := isNamed
    have state : r.scanner.config.state = .endTagName := emits.transition.state_of_kind kind rfl
    obtain ⟨opening, awaits, atOpening⟩ := h.tags.beforeEndName state
    obtain ⟨place', -, atPlace, spans⟩ := h.nested.endTag state
    obtain rfl : opening.start = place' := Option.some.inj (atOpening.symm.trans atPlace)
    have xml : mode = .xml := h.nested.mode_eq.symm.trans
      (sound.mode_eq_xml (by simp [state, Scanner.State.ofDeclarations]))
    rw [xml] at spans
    have recorded := Builder.endTagOpen_nameEndTag linked token (r.builder.nameEndTag token).current
    rw [if_pos rfl, atOpening, Option.getD_some] at recorded
    have applied : r.builder.apply token = r.builder.nameEndTag token := by
      simp only [Builder.apply, kind]
    rw [applied, recorded] at endTagOpen
    obtain rfl := Option.some.inj endTagOpen
    have before := h.beforeEndName state _ atOpening
    refine ⟨opening, token, awaits.names kind, rfl, ?_,
      past_apply sound emits (by omega) (by simp [kind])⟩
    rw [applied]
    exact Builder.owns_nameEndTag spans linked atOpening _
  · have before : (r.builder.doc.landmarks id).endTagOpen = some place := by
      by_cases kind : token.kind = .endTag
      · have recorded := Builder.endTagOpen_nameEndTag linked token id
        simp only [Builder.apply, kind, true_and] at isNamed endTagOpen
        rw [if_neg isNamed] at recorded
        exact recorded.symm.trans endTagOpen
      · have marks := Builder.marks_apply linked token
        rcases Nat.lt_or_ge id r.builder.doc.count with lt | ge
        · rcases (marks.old id lt).endTagOpen_cases with same | ⟨kind', -⟩
          · exact same.symm.trans endTagOpen
          · exact absurd kind' kind
        · exact absurd (marks.landmarks_eq_of_endTagOpen ge endTagOpen).1 kind
    obtain ⟨opening, named, names, start, owns⟩ := h.endNames id place before
    exact ⟨opening, named, names.append [token], start,
      h.owns_apply emits owns (Document.frame_of_landmarks (.inr before))⟩

end Emits

theorem emits (h : TagsOwned text mode passed r) (emits : r.Emits token next) :
    TagsOwned text mode (passed ++ [token])
      ⟨⟨next, r.scanner.cursor.advance token.text⟩, r.builder.apply token⟩ where
  nested := h.nested.emits emits
  tags := h.tags.emits emits
  starts _ _ := h.starts_apply
  childless := h.childless_apply emits
  beforeEndName state _ := h.beforeEndName_apply emits state
  startNames _ _ _ := h.startNames_apply emits
  endNames _ _ := h.endNames_apply emits

end TagsOwned

theorem start_tagsOwned (text uri : Text) (mode : Mode) :
    TagsOwned text mode [] (start text uri mode) where
  nested := start_nested text uri mode
  tags := start_tagsRead text uri mode
  starts id place startTagOpen := by
    rw [start, Builder.landmarks_start] at startTagOpen
    cases startTagOpen
  childless state := by
    cases mode <;> cases state
  beforeEndName state := by
    cases mode <;> cases state
  startNames id place name startTagOpen := by
    rw [start, Builder.landmarks_start] at startTagOpen
    cases startTagOpen
  endNames id place endTagOpen := by
    rw [start, Builder.landmarks_start] at endTagOpen
    cases endTagOpen

end Reading

/-- Whether a stretch of the text belongs to a node and to none of its children. -/
structure Document.Owns (doc : Document) (id first last : Nat) : Prop where
  start_le : (doc.node id).start ≤ first
  le_stop : last ≤ (doc.node id).stop
  apart : ∀ child ∈ doc.children id,
    (doc.node child).stop ≤ first ∨ last ≤ (doc.node child).start

/-- At the end of the text, what belonged to a node still does. -/
private theorem Reading.Owns.finish {text : Text} {mode : Mode} {r : Reading} {id first last : Nat}
    (owns : r.Owns id first last) (nested : r.Nested text mode)
    (atEnd : r.scanner.cursor.rest = []) : r.builder.finish.Owns id first last := by
  have retouched := Builder.retouched_finish r.builder
  have stops := nested.spans.stop_finish nested.inStep.linked
  have offset := nested.standsIn.offset_add_rest
  rw [atEnd, Text.byteSize_nil, Nat.add_zero] at offset
  constructor
  · rw [retouched.start_eq]
    exact owns.spans.start_le
  · rw [stops]
    split
    · exact offset ▸ owns.past.le_offset
    · next notOpen => exact owns.spans.le_stop notOpen
  · intro child mem
    rw [retouched.children_eq] at mem
    rw [stops, retouched.start_eq]
    refine (owns.spans.apart child mem).imp_left fun ⟨notOpen, le⟩ ↦ ?_
    rwa [if_neg notOpen]

/-- The tags of an element with a start tag and an end tag belong to it, and to none of its
children. -/
theorem ownedTags_parse (text uri : Text) (mode : Mode) {id : Nat} {e : Element}
    (kind : ((Document.parse text uri mode).node id).kind = .element e) :
    let doc := Document.parse text uri mode
    (∀ place name, e.startTagOpen = some place → e.tagName = some name →
      (doc.node id).start = place ∧ doc.Owns id place (place + 1 + name.byteSize) ∧
        ∀ place', e.endTagOpen = some place' → place + 1 + name.byteSize ≤ place') ∧
      ∀ place, e.endTagOpen = some place → ∃ opening token,
        TagSide.closing.Names (Scanner.tokenize text mode) opening token ∧
          opening.start = place ∧ doc.Owns id place (place + 2 + token.text.byteSize) := by
  intro doc
  obtain ⟨n, passed, last, atEnd, tokens, tags⟩ :=
    Reading.exists_atEnd_of_history (fun _ _ _ h ↦ h.rescans)
      (fun _ _ _ _ h ↦ h.emits) (Reading.start_tagsOwned text uri mode)
  rw [List.nil_append] at tags
  have tokenize : Scanner.tokenize text mode = passed ++ [last] := tokens
  have finish : doc = ((Reading.start text uri mode).after n).builder.finish :=
    Reading.parse_eq_finish atEnd
  have landmarks : ((Reading.start text uri mode).after n).builder.doc.landmarks id =
      (NodeKind.element e).landmarks := by
    rw [Document.landmarks, ← kind, Reading.parse_eq_finish atEnd, (Builder.kind_finish _ id).1]
  constructor
  · intro place name startTagOpen tagName
    have recorded := tags.starts id place (by rw [landmarks]; exact startTagOpen)
    obtain ⟨owns, before⟩ := tags.startNames id place name (by rw [landmarks]; exact startTagOpen)
      (by rw [landmarks]; exact tagName)
    rw [landmarks] at before
    rw [finish, (Builder.retouched_finish _).start_eq]
    exact ⟨recorded, owns.finish tags.nested atEnd, before⟩
  · intro place endTagOpen
    obtain ⟨opening, token, names, start, owns⟩ := tags.endNames id place
      (by rw [landmarks]; exact endTagOpen)
    rw [tokenize, finish]
    exact ⟨opening, token, names.append [last], start, owns.finish tags.nested atEnd⟩

end TolerantXml
