import TolerantXml.Proofs.Reading.SameLine
import TolerantXml.Proofs.Reading.TagOffsets

/-!
# End tags without a name

The end of an end tag ends the current element, but where the end tag opens is recorded at its name
only. An end tag without a name is one in which nothing but white space and what cannot be read
stands behind `</` (`EndTag.ClosesUnnamed`). So an element that is closed records where its end tag
opens, or that it is empty, unless an end tag without a name ended it (`knowsEndTag_parse_iff`).
-/

namespace TolerantXml

/-! ### Tokens -/

namespace EndTag

variable {tokens : List Token} {token close : Token}

/-- Whether the last of some tokens open an end tag and do not name it. -/
def OpensUnnamed (tokens : List Token) : Prop :=
  ∃ before opening gap, tokens = before ++ opening :: gap ∧ opening.kind = .endTagOpen ∧
    ∀ token ∈ gap, token.kind = .whitespace ∨ token.kind = .unknown

/-- Whether one of some tokens ends an end tag that was not named. -/
def ClosesUnnamed (tokens : List Token) (close : Token) : Prop :=
  close.kind = .endTagClose ∧
    ∃ before after, tokens = before ++ close :: after ∧ OpensUnnamed before

theorem OpensUnnamed.concat (h : OpensUnnamed tokens)
    (kind : token.kind = .whitespace ∨ token.kind = .unknown) :
    OpensUnnamed (tokens ++ [token]) := by
  obtain ⟨before, opening, gap, rfl, isOpening, isGap⟩ := h
  refine ⟨before, opening, gap ++ [token], by simp, isOpening, fun other mem ↦ ?_⟩
  rcases List.mem_append.1 mem with mem | mem
  · exact isGap other mem
  · rwa [List.mem_singleton.1 mem]

private theorem OpensUnnamed.closes (h : OpensUnnamed tokens) (kind : close.kind = .endTagClose) :
    ClosesUnnamed (tokens ++ [close]) close :=
  ⟨kind, tokens, [], rfl, h⟩

theorem ClosesUnnamed.append (h : ClosesUnnamed tokens close) (ahead : List Token) :
    ClosesUnnamed (tokens ++ ahead) close := by
  obtain ⟨kind, before, after, rfl, opens⟩ := h
  exact ⟨kind, before, after ++ ahead, by simp, opens⟩

end EndTag

/-- In front of the name of an end tag, the end tag has no name. -/
private theorem TagSide.Awaits.opensUnnamed {tokens : List Token} {opening : Token}
    (h : TagSide.closing.Awaits tokens opening) : EndTag.OpensUnnamed tokens := by
  obtain ⟨kind, -, before, gap, split, isGap⟩ := h
  exact ⟨before, opening, gap, split, kind, fun token mem ↦ .inl (isGap token mem)⟩

namespace Scanner.Config

variable {config next : Config} {kind : TokenKind} {taken : Text}

/-- The place behind the name of an end tag is reached at the name, or at what is none, and kept by
white space and by what cannot be read. -/
private theorem Emits.cases_of_endTag (sound : config.Sound) (emits : config.Emits kind taken next)
    (state : next.state = .endTag) :
    config.state = .endTagName ∧ (kind = .endTag ∨ kind = .unknown) ∨
      config.state = .endTag ∧ (kind = .whitespace ∨ kind = .unknown) := by
  cases emits with
  | endTag isName => exact .inl ⟨isName, .inl rfl⟩
  | endTagNameUnknown isName => exact .inl ⟨isName, .inr rfl⟩
  | space => exact .inr ⟨state, .inl rfl⟩
  | endTagUnknown => exact .inr ⟨state, .inr rfl⟩
  | content eq | tagUnknown eq | comment eq | cdata eq | instructionData eq =>
    cases eq.symm.trans state
  | tagSpace eq => rcases eq with eq | eq <;> cases eq.symm.trans state
  | unrecognized eq =>
    rw [state] at eq
    cases eq
  | commentClose | instructionClose =>
    rcases sound.markupReturn with eq | eq <;> cases eq.symm.trans state
  | prologClose | emptyTagClose | startTagClose =>
    rcases sound.state_leaveTag with eq | eq <;> cases eq.symm.trans state
  | _ => cases state

private theorem Rescans.cases_of_endTag (sound : config.Sound) (rescans : config.Rescans next)
    (state : next.state = .endTag) : config.state = .endTagName := by
  cases rescans with
  | noEndTagName isName => exact isName
  | tagLeft => rcases sound.state_leaveTag with eq | eq <;> cases eq.symm.trans state
  | _ => cases state

end Scanner.Config

/-! ### Elements -/

namespace Element

variable {b : Builder} {token : Token} {id : Nat} {e e' : Element}

/-- Whether an element records how it ends. -/
def HasEnd (e : Element) : Prop :=
  e.selfClosed = true ∨ e.endTagOpen.isSome = true ∨ e.endTagClose.isSome = true

private theorem Takes.isSome_endTagOpen (takes : Element.Takes b token id e e')
    (isSome : e.endTagOpen.isSome = true) : e'.endTagOpen.isSome = true := by
  rcases takes.endTagOpen_cases with same | ⟨-, -, rfl⟩
  · rwa [same]
  · rfl

private theorem Takes.hasEnd (takes : Element.Takes b token id e e') (hasEnd : e.HasEnd) :
    e'.HasEnd := by
  cases takes with
  | emptyTagClose => exact .inl rfl
  | endTag => exact .inr (.inl rfl)
  | endTagClose => exact .inr (.inr rfl)
  | _ => exact hasEnd

end Element

namespace Builder

variable {b : Builder} {token : Token} {id : Nat} {e' : Element}

/-- An element that a token closes records how it ends. -/
private theorem hasEnd_of_closed_apply (linked : b.Linked)
    (isElement : ((b.apply token).doc.node id).kind = .element e')
    (closed : ((b.apply token).doc.node id).closed = true)
    (before : ∀ e, (b.doc.node id).kind = .element e → (b.doc.node id).closed = true → e.HasEnd) :
    e'.HasEnd := by
  -- Where a name is read, the element that it belongs to records the end tag.
  have named (kind : token.kind = .endTag) (isCurrent : id = (b.apply token).current) :
      e'.HasEnd := by
    have recorded := endTagOpen_nameEndTag linked token id
    simp only [apply, kind] at isCurrent isElement
    rw [if_pos isCurrent, Document.landmarks, isElement] at recorded
    exact .inr (.inl (Option.isSome_of_eq_some recorded))
  rcases element_cases linked isElement with ⟨lt, e, isOld, takes⟩ | ⟨isNew, added⟩
  · have frame : b.doc.frame id = .element := congrArg NodeKind.frame isOld
    rcases (closed_apply_iff linked lt frame).1 closed with wasClosed | ⟨closes, rfl⟩ | isName
    · exact takes.hasEnd (before e isOld wasClosed)
    · have marked := marks_apply_of_closes linked closes (by rw [isElement]; rfl)
      simp only [isElement, NodeKind.marks, Bool.or_eq_true] at marked
      exact marked.imp_right .inr
    · exact named isName.1 isName.2
  · cases added with
    | endTag => exact .inr (.inl rfl)
    | startTag kind =>
      -- What is added by the opening of a tag is not closed.
      have takes := takes_apply linked token
      have lt := Document.lt_count_of_element isElement
      obtain ⟨-, -, -, isCurrent⟩ := takes.new_cases linked isNew lt
      have isCurrent := isCurrent.resolve_left (by rw [kind]; decide)
      have mem : id ∈ (b.apply token).doc.path (b.apply token).current :=
        isCurrent ▸ Document.Linked.mem_path_self
      rcases takes.closed_cases linked mem closed with ⟨wasOpen, -⟩ | ⟨isName, -⟩
      · exact absurd (linked.lt_of_mem_path wasOpen) (Nat.not_lt_of_le isNew)
      · rw [kind] at isName
        cases isName

end Builder

/-! ### Readings -/

namespace Reading

variable {text uri : Text} {mode : Mode} {passed : List Token} {r : Reading} {token : Token}
  {next : Scanner.Config} {id place : Nat} {e e' : Element}

/-- What holds of end tags in a reading of a text, behind some tokens. -/
structure EndTagsRead (text : Text) (mode : Mode) (passed : List Token) (r : Reading) : Prop where
  placed : TagsPlaced text mode passed r
  behindName : r.scanner.config.state = .endTag → EndTag.OpensUnnamed passed ∨
    (r.builder.doc.landmarks r.builder.current).endTagOpen.isSome = true
  closed : ∀ id e, (r.builder.doc.node id).kind = .element e →
    (r.builder.doc.node id).closed = true → e.HasEnd
  ended : ∀ id e place, (r.builder.doc.node id).kind = .element e → e.endTagClose = some place →
    e.endTagOpen.isSome = true ∨
      ∃ close, EndTag.ClosesUnnamed passed close ∧ close.start = place

namespace EndTagsRead

private theorem rescans (h : EndTagsRead text mode passed r)
    (rescans : r.scanner.config.Rescans next) :
    EndTagsRead text mode passed ⟨⟨next, r.scanner.cursor⟩, r.builder⟩ where
  placed := h.placed.rescans rescans
  behindName state := by
    have sound := h.placed.held.cut.nested.inStep.sound
    obtain ⟨opening, awaits, -⟩ :=
      h.placed.owned.tags.beforeEndName (rescans.cases_of_endTag sound state)
    exact .inl awaits.opensUnnamed
  closed := h.closed
  ended := h.ended

section Emits

variable (h : EndTagsRead text mode passed r) (emits : r.Emits token next)
include h emits

/-- Behind the name of an end tag, the current element records where the end tag opens. -/
private theorem behindName_apply (state : next.state = .endTag) :
    EndTag.OpensUnnamed (passed ++ [token]) ∨
      ((r.builder.apply token).doc.landmarks
        (r.builder.apply token).current).endTagOpen.isSome = true := by
  have inStep := h.placed.held.cut.nested.inStep
  have same (kind : token.kind = .whitespace ∨ token.kind = .unknown) :
      r.builder.apply token = r.builder := by
    rcases kind with kind | kind <;> simp only [Builder.apply, kind]
  rcases emits.transition.cases_of_endTag inStep.sound state with
    ⟨before, kind | kind⟩ | ⟨before, kind⟩
  · have recorded := Builder.endTagOpen_nameEndTag inStep.linked token
      (r.builder.nameEndTag token).current
    rw [if_pos rfl] at recorded
    simp only [Builder.apply, kind]
    exact .inr (Option.isSome_of_eq_some recorded)
  · obtain ⟨opening, awaits, -⟩ := h.placed.owned.tags.beforeEndName before
    exact .inl (awaits.opensUnnamed.concat (.inr kind))
  · rw [same kind]
    exact (h.behindName before).imp_left fun opens ↦ opens.concat kind

/-- What ends an element is an end tag whose opening it records, or one without a name. -/
private theorem ended_apply (isElement : ((r.builder.apply token).doc.node id).kind = .element e')
    (isPlace : e'.endTagClose = some place) : e'.endTagOpen.isSome = true ∨
      ∃ close, EndTag.ClosesUnnamed (passed ++ [token]) close ∧ close.start = place := by
  have linked := h.placed.held.cut.nested.inStep.linked
  rcases Builder.element_cases linked isElement with ⟨-, e, isOld, takes⟩ | ⟨-, added⟩
  · rcases takes.endTagClose_cases with same | ⟨kind, rfl, rfl⟩
    · refine (h.ended id e place isOld (same.symm.trans isPlace)).imp takes.isSome_endTagOpen ?_
      rintro ⟨close, closes, rfl⟩
      exact ⟨close, closes.append [token], rfl⟩
    · obtain rfl := Option.some.inj isPlace
      have behind := h.behindName (emits.transition.state_of_kind kind rfl)
      rw [Document.landmarks, isOld] at behind
      exact behind.symm.imp_right fun opens ↦ ⟨token, opens.closes kind, rfl⟩
  · cases added with
    | startTag | endTag => cases isPlace

end Emits

private theorem emits (h : EndTagsRead text mode passed r) (emits : r.Emits token next) :
    EndTagsRead text mode (passed ++ [token])
      ⟨⟨next, r.scanner.cursor.advance token.text⟩, r.builder.apply token⟩ where
  placed := h.placed.emits emits
  behindName := h.behindName_apply emits
  closed id _ isElement closed :=
    Builder.hasEnd_of_closed_apply h.placed.held.cut.nested.inStep.linked isElement closed
      (h.closed id)
  ended _ _ _ := h.ended_apply emits

end EndTagsRead

private theorem start_endTagsRead (text uri : Text) (mode : Mode) :
    EndTagsRead text mode [] (start text uri mode) where
  placed := start_tagsPlaced text uri mode
  behindName state := by cases mode <;> cases state
  closed id e isElement := absurd isElement (Builder.kind_start_ne_element text uri mode id e)
  ended id e _ isElement := absurd isElement (Builder.kind_start_ne_element text uri mode id e)

end Reading

/-! ### Documents -/

/-- Whether an end tag without a name ended an element, so that nothing tells where it opens. -/
def Element.EndedUnnamed (e : Element) (tokens : List Token) : Prop :=
  e.endTagOpen = none ∧
    ∃ close, EndTag.ClosesUnnamed tokens close ∧ e.endTagClose = some close.start

/-- Whether an element that is closed knows how: it is empty or records where its end tag opens,
which is in front of where the end tag closes. -/
structure Document.KnowsEndTag (doc : Document) (id : Nat) (e : Element) : Prop where
  closed : (doc.node id).closed = true → e.selfClosed = true ∨ e.endTagOpen.isSome = true
  ended : ∀ place, e.endTagClose = some place → ∃ opening < place, e.endTagOpen = some opening ∧
    doc.text.slice? opening (opening + 2) = some ['<', '/']

/-- An element that is closed knows its end tag unless an end tag without a name ended it. -/
theorem knowsEndTag_parse_iff (text uri : Text) (mode : Mode) {id : Nat} {e : Element}
    (kind : ((Document.parse text uri mode).node id).kind = .element e) :
    (Document.parse text uri mode).KnowsEndTag id e ↔
      ¬ e.EndedUnnamed (Scanner.tokenize text mode) := by
  obtain ⟨n, passed, last, atEnd, tokens, read⟩ :=
    Reading.exists_atEnd_of_history (fun _ _ _ h ↦ h.rescans)
      (fun _ _ _ _ h ↦ h.emits) (Reading.start_endTagsRead text uri mode)
  rw [List.nil_append] at read
  have tokenize : Scanner.tokenize text mode = passed ++ [last] := tokens
  have isText := Document.text_parse text uri mode
  obtain ⟨-, endTags⟩ := ownedTags_parse text uri mode kind
  have finish := Reading.parse_eq_finish atEnd
  generalize (Reading.start text uri mode).after n = r at atEnd read finish
  rw [finish] at kind isText ⊢
  obtain ⟨sameKind, sameClosed⟩ := Builder.kind_finish r.builder id
  have isElement : (r.builder.doc.node id).kind = .element e := sameKind ▸ kind
  -- Without the place where its end tag opens, the element was ended by one without a name.
  have unnamed {place : Nat} (isPlace : e.endTagClose = some place)
      (noOpening : e.endTagOpen = none) : e.EndedUnnamed (Scanner.tokenize text mode) := by
    rcases read.ended id e place isElement isPlace with isSome | ⟨close, closes, rfl⟩
    · rw [noOpening] at isSome
      cases isSome
    · exact ⟨noOpening, close, tokenize ▸ closes.append [last], isPlace⟩
  constructor
  · rintro knows ⟨noOpening, close, -, isPlace⟩
    obtain ⟨opening, -, isOpening, -⟩ := knows.ended _ isPlace
    cases noOpening.symm.trans isOpening
  · intro named
    constructor
    case closed =>
      intro closed
      rcases read.closed id e isElement (sameClosed ▸ closed) with isEmpty | isOpened | isEnded
      · exact .inl isEmpty
      · exact .inr isOpened
      · obtain ⟨place, isPlace⟩ := Option.isSome_iff_exists.1 isEnded
        rw [← Option.ne_none_iff_isSome]
        exact .inr fun noOpening ↦ named (unnamed isPlace noOpening)
    case ended =>
      intro place isPlace
      obtain ⟨opening, isOpening⟩ :=
        Option.ne_none_iff_exists'.1 fun noOpening ↦ named (unnamed isPlace noOpening)
      obtain ⟨_, _, names, rfl, -⟩ := endTags opening isOpening
      refine ⟨_, ?_, isOpening, ?_⟩
      · exact ((read.placed.ended id e isElement).closes place isPlace).2.2 _ isOpening
      · rw [isText]
        exact names.slice?_delimiter

/-- An end tag with a name is known. -/
theorem knowsEndTag_parse_named :
    let text : Text := ['<', 'a', '>', '<', '/', 'a', '>']
    let e : Element :=
      { tagName := some ['a'], startTagOpen := some 0, startTagClose := some 2,
        endTagOpen := some 3, endTagClose := some 6 }
    ((Document.parse text [] .xml).node 1).kind = .element e ∧
      (Document.parse text [] .xml).KnowsEndTag 1 e := by
  intro text e
  have kind : ((Document.parse text [] .xml).node 1).kind = .element e := by decide +kernel
  refine ⟨kind, (knowsEndTag_parse_iff text [] .xml kind).2 fun unnamed ↦ ?_⟩
  cases unnamed.1

/-- An end tag without a name closes an element that does not know it. -/
theorem knowsEndTag_parse_unnamed :
    let text : Text := ['<', 'a', '>', '<', '/', '>']
    let e : Element :=
      { tagName := some ['a'], startTagOpen := some 0, startTagClose := some 2,
        endTagClose := some 5 }
    ((Document.parse text [] .xml).node 1).kind = .element e ∧
      ((Document.parse text [] .xml).node 1).closed = true ∧
      ¬ (Document.parse text [] .xml).KnowsEndTag 1 e := by
  intro text e
  have kind : ((Document.parse text [] .xml).node 1).kind = .element e := by decide +kernel
  have closed : ((Document.parse text [] .xml).node 1).closed = true := by decide +kernel
  refine ⟨kind, closed, fun knows ↦ ?_⟩
  rcases knows.closed closed with isEmpty | isOpened
  · cases isEmpty
  · cases isOpened

end TolerantXml
