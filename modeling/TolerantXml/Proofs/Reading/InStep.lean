import TolerantXml.Proofs.Reading.Fits
import TolerantXml.Proofs.Tree.Stages

/-!
# Scanner and builder in step

The state of the scanner behind any token tells where the builder is (`Config.Expects`), so that
every token finds it where it takes effect (`Builder.Awaits`). Both follow from the spine fitting
the configuration, which holds in every reading (`Reading.InStep`).
-/

namespace TolerantXml

/-! ### What the state of the scanner tells -/

section Kinds

variable {kind : NodeKind}

private theorem NodeKind.exists_elementDecl (h : kind.frame = .elementDecl) :
    ∃ decl, kind = .elementDecl decl := by
  cases kind with
  | elementDecl decl => exact ⟨decl, rfl⟩
  | _ => cases h

private theorem NodeKind.exists_attlistDecl (h : kind.frame = .attlistDecl) :
    ∃ decl, kind = .attlistDecl decl := by
  cases kind with
  | attlistDecl decl => exact ⟨decl, rfl⟩
  | _ => cases h

private theorem NodeKind.exists_entityDecl (h : kind.frame = .entityDecl) :
    ∃ decl, kind = .entityDecl decl := by
  cases kind with
  | entityDecl decl => exact ⟨decl, rfl⟩
  | _ => cases h

end Kinds

/-- Whether the current node or a node around it is a document type. -/
def Builder.InDoctype (b : Builder) : Prop :=
  ∃ id ∈ b.doc.path b.current, (b.doc.node id).kind.isDoctype = true

/-- Whether the value of an attribute that was named may come next. -/
def Scanner.State.awaitsValue : State → Bool
  | .assign | .attributeValue => true
  | _ => false

/-- Where the builder is while the scanner is in a configuration. -/
def Scanner.Config.Expects (config : Config) (b : Builder) : Prop :=
  match config.state with
  | .content | .endTagName | .endTag =>
    b.state ≠ .inComment ∧ b.state ≠ .inCdata ∧ b.state ≠ .inDeclaration
  | .startTagName => b.state = .inElement
  | .tag | .assign | .attributeValue =>
    if config.inProlog then b.state = .inInstruction else b.state = .inElement
  | .comment => b.state = .inComment
  | .cdata => b.state = .inCdata
  | .instructionTarget | .instructionData => b.state = .inInstruction
  | .doctype _ | .afterSubset => b.state = .inDoctype
  | .subset =>
    (b.state = .inDoctype ∨ b.state = .inDeclaration ∨ b.state = .inInstruction) ∧ b.InDoctype
  | .elementDecl _ => ∃ decl, b.currentNode.kind = .elementDecl decl
  | .attlistDecl _ => ∃ decl, b.currentNode.kind = .attlistDecl decl
  | .entityDecl _ => ∃ decl, b.currentNode.kind = .entityDecl decl

/-- Whether a builder is where tokens of a kind take effect. -/
def Builder.Awaits (b : Builder) : TokenKind → Prop
  | .content | .startTagOpen | .endTagOpen | .endTag | .endTagClose | .cdataOpen | .doctypeOpen =>
    b.state ≠ .inComment ∧ b.state ≠ .inCdata ∧ b.state ≠ .inDeclaration
  | .startTag => b.currentNode.kind.isElement
  | .attributeName | .startTagClose | .emptyTagClose => b.currentNode.kind.attributes?.isSome
  | .attributeValue => b.currentNode.kind.attributes?.isSome ∧ b.pending.isSome
  | .commentOpen | .instructionOpen => b.state ≠ .inComment ∧ b.state ≠ .inCdata
  | .comment | .commentClose => b.currentNode.kind.isComment
  | .cdata | .cdataClose => b.currentNode.kind.isCdata
  | .prologTarget | .instructionTarget | .instructionData | .prologClose | .instructionClose =>
    b.currentNode.kind.instruction?.isSome
  | .doctypeName | .doctypePublic | .doctypeSystem | .doctypePublicId | .doctypeSystemId
  | .subsetOpen | .doctypeClose => b.currentNode.kind.isDoctype
  | .subsetClose | .elementDeclOpen | .attlistOpen | .entityOpen => b.InDoctype
  | .elementDeclName | .elementDeclCategory | .elementDeclContent =>
    ∃ decl, b.currentNode.kind = .elementDecl decl
  | .attlistElement | .attlistName | .attlistType | .attlistDefault =>
    ∃ decl, b.currentNode.kind = .attlistDecl decl
  | .entityPercent | .entityName | .entityValue | .entityPublic | .entitySystem | .entityPublicId
  | .entitySystemId => ∃ decl, b.currentNode.kind = .entityDecl decl
  | .declClose => b.currentNode.kind.isDeclaration
  | .unrecognized =>
    b.state = .inDoctype ∨ b.state = .inDeclaration ∨ b.state = .inInstruction
  | .assign | .whitespace | .unknown | .eos => True

namespace Scanner.Config

variable {config next : Config} {b : Builder} {kind : TokenKind} {taken : Text} {frame : Frame}
  {around : List Frame → Prop}

private theorem state_of_inside (h : Inside frame around b.spine) : b.state = frame.state := by
  obtain ⟨outer, spine, -⟩ := h
  exact Builder.state_eq_of_spine spine

theorem frame_of_inside (h : Inside frame around b.spine) : b.currentNode.kind.frame = frame := by
  obtain ⟨outer, spine, -⟩ := h
  exact Builder.head_spine spine

private theorem state_of_inContent (h : InContent b.spine) :
    b.state ≠ .inComment ∧ b.state ≠ .inCdata ∧ b.state ≠ .inDeclaration := by
  obtain ⟨frame, outer, spine⟩ := List.exists_cons_of_ne_nil b.spine_ne_nil
  have holds := h frame (by simp [spine])
  rw [Builder.state_eq_of_spine spine]
  revert holds
  cases frame <;> simp [Frame.holdsContent, Frame.state]

private theorem state_of_inSubset (h : InSubset b.spine) :
    b.state = .inDoctype ∨ b.state = .inInstruction := by
  obtain ⟨frame, outer, spine⟩ := List.exists_cons_of_ne_nil b.spine_ne_nil
  rw [Builder.state_eq_of_spine spine]
  rw [spine] at h
  cases h with
  | doctype => exact .inl rfl
  | instruction => exact .inr rfl

private theorem state_of_isDeclaration (isDecl : frame.isDeclaration = true)
    (h : Inside frame around b.spine) : b.state = .inDeclaration := by
  rw [state_of_inside h]
  revert isDecl
  cases frame <;> simp [Frame.isDeclaration, Frame.state]

private theorem inDoctype_of_mem (h : .doctype ∈ b.spine) : b.InDoctype := by
  obtain ⟨id, mem, isDoctype⟩ := List.mem_map.1 h
  refine ⟨id, mem, ?_⟩
  rw [NodeKind.isDoctype_eq]
  exact decide_eq_true isDoctype

/-- The spine tells where the builder is. -/
private theorem Fits.expects (fits : config.Fits b.spine) : config.Expects b := by
  rw [Expects]
  cases state : config.state with
  | content | endTagName | endTag =>
    simp only [Fits, state] at fits
    exact state_of_inContent fits
  | startTagName | comment | cdata | instructionTarget | instructionData | doctype
  | afterSubset =>
    simp only [Fits, state] at fits
    exact state_of_inside fits
  | tag | assign | attributeValue =>
    simp only [Fits, state] at fits
    cases prolog : config.inProlog with
    | true =>
      rw [prolog] at fits
      exact state_of_inside fits
    | false =>
      rw [prolog] at fits
      exact state_of_inside fits
  | subset =>
    obtain ⟨inner, outer, spine, -, -⟩ := fits.exists_doctype state
    refine ⟨?_, inDoctype_of_mem (by simp [spine])⟩
    simp only [Fits, state] at fits
    rcases fits with inSubset | ⟨frame, isDecl, inside⟩
    · rcases state_of_inSubset inSubset with isDoctype | isInstruction
      · exact .inl isDoctype
      · exact .inr (.inr isInstruction)
    · exact .inr (.inl (state_of_isDeclaration isDecl inside))
  | elementDecl =>
    simp only [Fits, state] at fits
    exact NodeKind.exists_elementDecl (frame_of_inside fits)
  | attlistDecl =>
    simp only [Fits, state] at fits
    exact NodeKind.exists_attlistDecl (frame_of_inside fits)
  | entityDecl =>
    simp only [Fits, state] at fits
    exact NodeKind.exists_entityDecl (frame_of_inside fits)

/-- In a document type, outside its subset, the document type is the current node. -/
private theorem Fits.isDoctype (fits : config.Fits b.spine)
    (h : (∃ slot, config.state = .doctype slot) ∨ config.state = .afterSubset) :
    b.currentNode.kind.isDoctype = true := by
  rw [NodeKind.isDoctype_eq, frame_of_inside (fits.inside_doctype h)]
  rfl

/-- In the tag of a declaration the declaration is the current node. -/
private theorem Fits.isDeclaration (fits : config.Fits b.spine) (h : config.state.isDecl = true) :
    b.currentNode.kind.isDeclaration = true := by
  obtain ⟨frame, isDecl, inside⟩ := fits.exists_declaration h
  rw [NodeKind.isDeclaration_eq, frame_of_inside inside, isDecl]

/-- Inside a tag the current node is an element or the prolog. -/
private theorem Fits.attributes?_isSome (fits : config.Fits b.spine)
    (h : config.state.isTag = true) : b.currentNode.kind.attributes?.isSome = true := by
  have inTag : if config.inProlog
      then Inside .instruction (Returns config.markupReturn) b.spine
      else Inside .element InContent b.spine := by
    cases state : config.state with
    | tag | assign | attributeValue => simpa only [Fits, state] using fits
    | _ => simp [state, State.isTag] at h
  rw [NodeKind.attributes?_isSome_eq]
  split at inTag
  · rw [frame_of_inside inTag]
    rfl
  · rw [frame_of_inside inTag]
    rfl

/-- Every token that may be read finds the builder where it takes effect. -/
theorem Fits.awaits (fits : config.Fits b.spine)
    (pending : config.state.awaitsValue → b.pending.isSome)
    (emits : config.Emits kind taken next) : b.Awaits kind := by
  have expects := fits.expects
  cases emits with
  | space | tagSpace | startTagUnknown | tagUnknown | assign | endTagNameUnknown
  | endTagUnknown => trivial
  | content h | startTagOpen h | endTagOpen h | cdataOpen h | doctypeOpen h | endTag h
  | endTagClose h =>
    simp only [Expects, h] at expects
    exact expects
  | startTag h =>
    simp only [Fits, h] at fits
    show b.currentNode.kind.isElement = true
    rw [NodeKind.isElement_eq, frame_of_inside fits]
    rfl
  | comment h | commentClose h =>
    simp only [Fits, h] at fits
    show b.currentNode.kind.isComment = true
    rw [NodeKind.isComment_eq, frame_of_inside fits]
    rfl
  | cdata h | cdataClose h =>
    simp only [Fits, h] at fits
    show b.currentNode.kind.isCdata = true
    rw [NodeKind.isCdata_eq, frame_of_inside fits]
    rfl
  | prologTarget h | instructionTarget h | instructionData h | instructionClose h =>
    simp only [Fits, h] at fits
    show b.currentNode.kind.instruction?.isSome = true
    rw [NodeKind.instruction?_isSome_eq, frame_of_inside fits]
    rfl
  | prologClose h prolog =>
    simp only [Fits, h, prolog, ↓reduceIte] at fits
    show b.currentNode.kind.instruction?.isSome = true
    rw [NodeKind.instruction?_isSome_eq, frame_of_inside fits]
    rfl
  | commentOpen h | instructionOpen h =>
    rcases h with h | h
    · simp only [Expects, h] at expects
      exact ⟨expects.1, expects.2.1⟩
    · simp only [Expects, h] at expects
      rcases expects.1 with eq | eq | eq <;> simp [Builder.Awaits, eq]
  | attributeName h | emptyTagClose h | startTagClose h =>
    exact fits.attributes?_isSome (by simp [h, State.isTag])
  | attributeValue h =>
    exact ⟨fits.attributes?_isSome (by simp [h, State.isTag]),
      pending (by simp [h, State.awaitsValue])⟩
  | subsetOpen h => exact fits.isDoctype (.inl ⟨_, h⟩)
  | doctypeClose h => exact fits.isDoctype h
  | doctypePart h fills =>
    have isDoctype := fits.isDoctype (.inl ⟨_, h⟩)
    cases fills <;> exact isDoctype
  | elementPart h fills | attlistPart h fills | entityPart h fills =>
    simp only [Expects, h] at expects
    cases fills <;> exact expects
  | subsetClose h | elementDeclOpen h | attlistOpen h | entityOpen h =>
    simp only [Expects, h] at expects
    exact expects.2
  | declClose h => exact fits.isDeclaration h
  | unrecognized h =>
    cases state : config.state with
    | doctype | afterSubset =>
      simp only [Expects, state] at expects
      exact .inl expects
    | subset =>
      simp only [Expects, state] at expects
      exact expects.1
    | elementDecl | attlistDecl | entityDecl =>
      obtain ⟨frame, isDecl, inside⟩ :=
        fits.exists_declaration (by simp [state, State.isDecl])
      exact .inr (.inl (state_of_isDeclaration isDecl inside))
    | _ => simp [state, State.takesUnrecognized] at h

/-- The value of an attribute may come next behind its name, and as long as only white space and
the assignment sign are read. -/
theorem Emits.cases_of_awaitsValue (sound : config.Sound) (emits : config.Emits kind taken next)
    (h : next.state.awaitsValue = true) :
    kind = .attributeName ∨
      config.state.awaitsValue = true ∧ (kind = .whitespace ∨ kind = .assign) := by
  cases emits with
  | attributeName => exact .inl rfl
  | space | tagSpace => exact .inr ⟨h, .inl rfl⟩
  | assign eq => exact .inr ⟨by simp [eq, State.awaitsValue], .inr rfl⟩
  | content eq | tagUnknown eq | endTagUnknown eq | comment eq | cdata eq
  | instructionData eq =>
    simp [eq, State.awaitsValue] at h
  | unrecognized eq =>
    revert h eq
    cases config.state <;> simp [State.awaitsValue, State.takesUnrecognized]
  | commentClose | instructionClose =>
    rcases sound.markupReturn with eq | eq <;>
      simp [leaveMarkup, moveTo, eq, State.awaitsValue] at h
  | prologClose | emptyTagClose | startTagClose =>
    rcases sound.state_leaveTag with eq | eq <;> simp [eq, State.awaitsValue] at h
  | _ => simp [moveTo, enterMarkup, State.awaitsValue] at h

/-- A change of state without a token never comes before the value of an attribute. -/
theorem Rescans.awaitsValue_eq_false (sound : config.Sound) (rescans : config.Rescans next) :
    next.state.awaitsValue = false := by
  cases rescans with
  | tagLeft => rcases sound.state_leaveTag with eq | eq <;> rw [eq] <;> rfl
  | _ => rfl

end Scanner.Config

/-! ### Readings -/

namespace Reading

variable {r : Reading}

/-- What holds of scanner and builder between two tokens. -/
structure InStep (r : Reading) : Prop where
  sound : r.scanner.config.Sound
  linked : r.builder.Linked
  fits : r.scanner.config.Fits r.builder.spine
  pending : r.scanner.config.state.awaitsValue → r.builder.pending.isSome

theorem start_inStep (text uri : Text) (mode : Mode) : (start text uri mode).InStep where
  sound := Scanner.Config.initial_sound mode
  linked := Builder.start_linked text uri mode
  fits := by
    have inContent : InContent (Builder.empty text uri mode).spine := by
      rw [Builder.spine_empty]
      intro frame mem
      rw [List.mem_singleton.1 mem]
      rfl
    cases mode with
    | xml => exact inContent
    | dtd =>
      left
      rw [start, Builder.start_dtd, Builder.spine_openNode (Builder.empty_linked text uri .dtd)]
      exact .doctype inContent
  pending awaitsValue := by
    cases mode <;> cases awaitsValue

theorem InStep.rescans (h : r.InStep) {next : Scanner.Config}
    (rescans : r.scanner.config.Rescans next) :
    InStep ⟨⟨next, r.scanner.cursor⟩, r.builder⟩ where
  sound := h.sound.rescans rescans
  linked := h.linked
  fits := h.fits.rescans h.sound rescans
  pending awaitsValue := by
    rw [rescans.awaitsValue_eq_false h.sound] at awaitsValue
    cases awaitsValue

theorem InStep.emits (h : r.InStep) {token : Token} {next : Scanner.Config}
    (emits : r.Emits token next) :
    InStep ⟨⟨next, r.scanner.cursor.advance token.text⟩, r.builder.apply token⟩ where
  sound := h.sound.emits emits.transition
  linked := h.linked.apply token
  fits := h.fits.apply h.sound h.linked emits.transition
  pending awaitsValue := by
    rcases emits.transition.cases_of_awaitsValue h.sound awaitsValue with
      kind | ⟨before, kind | kind⟩
    · have takes := h.fits.awaits h.pending emits.transition
      rw [kind] at takes
      obtain ⟨attributes, hasAttributes⟩ := Option.isSome_iff_exists.1 takes
      simp only [Builder.apply, kind, Builder.nameAttribute, hasAttributes]
      rw [Builder.pending_setCurrentStop]
      rfl
    · simp only [Builder.apply, kind]
      exact h.pending before
    · simp only [Builder.apply, kind]
      exact h.pending before

theorem after_inStep (text uri : Text) (mode : Mode) (n : Nat) :
    ((start text uri mode).after n).InStep :=
  after_invariant (fun _ _ inStep rescans ↦ inStep.rescans rescans)
    (fun _ _ _ inStep ↦ inStep.emits) (start_inStep text uri mode) n

/-- The next token finds the builder where it takes effect. -/
theorem InStep.awaits (h : r.InStep) : r.builder.Awaits r.scanner.next.1.kind := by
  by_cases ahead : r.scanner.cursor.rest = []
  · rw [Scanner.next_of_rest_nil ahead]
    trivial
  · obtain ⟨config, next, token, now, emits, eq⟩ :=
      exists_emits (fun _ _ inStep rescans ↦ inStep.rescans rescans) h ahead
    rw [eq]
    exact now.fits.awaits now.pending emits.transition

end Reading

/-- Behind any number of tokens the builder is where the state of the scanner tells, and where the
next token takes effect. -/
theorem scanner_and_builder_inStep (text uri : Text) (mode : Mode) (n : Nat) :
    let scanner := (Scanner.start text mode).after n
    let builder := (Builder.start text uri mode).applyAll ((Scanner.tokenize text mode).take n)
    scanner.config.Expects builder ∧ builder.Awaits scanner.next.1.kind := by
  have inStep := Reading.after_inStep text uri mode n
  rw [Reading.after_eq] at inStep
  exact ⟨inStep.fits.expects, inStep.awaits⟩

end TolerantXml
