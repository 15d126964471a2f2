import TolerantXml.Proofs.Reading.Run

/-!
# Spines that fit a configuration

Which spines a builder may have while the scanner is in a configuration (`Config.Fits`). The
relation is on the whole spine, because a node that is closed returns the builder to whatever is
around it: around markup in element content there are nodes that hold content, and in a subset
there are instructions up to the document type (`InSubset`). Every transition of the scanner, with
what the builder does at its token, keeps the relation (`Fits.rescans`, `Fits.apply`).
-/

namespace TolerantXml

/-- Whether nodes of a frame may stand around element content. An instruction is among them if it
is a prolog that was not ended, and a document type if its header was not. -/
def Frame.holdsContent : Frame → Bool
  | .document | .element | .instruction | .doctype => true
  | _ => false

/-- The spines in element content. -/
def InContent (spine : List Frame) : Prop := ∀ frame ∈ spine, frame.holdsContent = true

/-- The spines between declarations: a document type, and in it instructions that were not ended. -/
inductive InSubset : List Frame → Prop where
  | doctype {outer : List Frame} (h : InContent outer) : InSubset (.doctype :: outer)
  | instruction {outer : List Frame} (h : InSubset outer) : InSubset (.instruction :: outer)

/-- The spines around markup that returns to a state. -/
def Returns : Scanner.State → List Frame → Prop
  | .content, spine => InContent spine
  | .subset, spine => InSubset spine
  | _, _ => False

/-- The spines whose innermost node has a frame. -/
def Inside (frame : Frame) (around : List Frame → Prop) (spine : List Frame) : Prop :=
  ∃ outer, spine = frame :: outer ∧ around outer

namespace Scanner

/-- The spines that a builder may have while the scanner is in a configuration. -/
def Config.Fits (config : Config) (spine : List Frame) : Prop :=
  match config.state with
  | .content | .endTagName | .endTag => InContent spine
  | .startTagName => Inside .element InContent spine
  | .tag | .assign | .attributeValue =>
    if config.inProlog then Inside .instruction (Returns config.markupReturn) spine
    else Inside .element InContent spine
  | .comment => Inside .comment (Returns config.markupReturn) spine
  | .cdata => Inside .cdata InContent spine
  | .instructionTarget | .instructionData =>
    Inside .instruction (Returns config.markupReturn) spine
  | .doctype _ | .afterSubset => Inside .doctype InContent spine
  | .subset =>
    InSubset spine ∨ ∃ frame, frame.isDeclaration = true ∧ Inside frame InSubset spine
  | .elementDecl _ => Inside .elementDecl InSubset spine
  | .attlistDecl _ => Inside .attlistDecl InSubset spine
  | .entityDecl _ => Inside .entityDecl InSubset spine

end Scanner

section Spines

variable {frame : Frame} {spine outer : List Frame} {state : Scanner.State}

theorem InContent.cons (h : InContent spine) (holds : frame.holdsContent = true) :
    InContent (frame :: spine) := by
  intro other mem
  rcases List.mem_cons.1 mem with rfl | mem
  · exact holds
  · exact h other mem

theorem InContent.suffix (h : InContent spine) (suffix : outer <:+ spine) : InContent outer :=
  fun frame mem ↦ h frame (suffix.subset mem)

/-- A subset is that of a document type in element content. -/
theorem InSubset.split (h : InSubset spine) :
    ∃ inner outer, spine = inner ++ .doctype :: outer ∧
      (∀ frame ∈ inner, frame.standsInSubset = true) ∧ InContent outer := by
  induction h with
  | doctype h => exact ⟨[], _, rfl, List.forall_mem_nil _, h⟩
  | instruction _ ih =>
    obtain ⟨inner, outer, rfl, stand, h⟩ := ih
    exact ⟨.instruction :: inner, outer, rfl, List.forall_mem_cons.2 ⟨rfl, stand⟩, h⟩

/-- An instruction that was not ended holds what the markup around it does. -/
private theorem Returns.instruction (h : Returns state spine) :
    Returns state (.instruction :: spine) := by
  cases state with
  | content => exact InContent.cons h rfl
  | subset => exact .instruction h
  | _ => exact h.elim

/-- Behind markup, the spine fits the state that the markup returns to. -/
private theorem Scanner.Config.Fits.of_returns {config : Scanner.Config}
    (h : Returns config.state spine) : config.Fits spine := by
  rw [Scanner.Config.Fits]
  cases state : config.state with
  | content =>
    rw [state] at h
    exact h
  | subset =>
    rw [state] at h
    exact .inl h
  | _ =>
    rw [state] at h
    exact h.elim

/-! ### Closing -/

variable {around : List Frame → Prop} {b : Builder} {p : NodeKind → Bool}

/-- What closes the current node returns to what is around it. -/
private theorem Inside.closeIf (inside : Inside frame around b.spine) (linked : b.Linked)
    (notDocument : frame ≠ .document)
    (holds : ∀ kind : NodeKind, kind.frame = frame → p kind = true) (stop : Nat) :
    around (b.closeIf p stop).spine := by
  obtain ⟨outer, spine, around⟩ := inside
  have isClosed := holds b.currentNode.kind (Builder.head_spine spine)
  rw [Builder.spine_closeIf linked spine notDocument isClosed]
  exact around

private theorem Inside.closeTag (inside : Inside frame around b.spine) (linked : b.Linked)
    (notDocument : frame ≠ .document) (stop : Nat) : around (b.closeTag stop).spine := by
  obtain ⟨outer, spine, around⟩ := inside
  rw [Builder.spine_closeTag linked spine notDocument]
  exact around

end Spines

namespace Scanner.Config

open Scanner

variable {config next : Config} {b : Builder} {kind : TokenKind} {taken : Text} {span : Span}
  {spine : List Frame} {state : State} {offset : Nat}

/-- In the header of a document type, and behind its subset, the document type is open. -/
theorem Fits.inside_doctype (fits : config.Fits spine)
    (h : (∃ slot, config.state = .doctype slot) ∨ config.state = .afterSubset) :
    Inside .doctype InContent spine := by
  rcases h with ⟨slot, h⟩ | h
  · simpa only [Fits, h] using fits
  · simpa only [Fits, h] using fits

/-- In the tag of a declaration the declaration is open. -/
theorem Fits.exists_declaration (fits : config.Fits spine) (h : config.state.isDecl = true) :
    ∃ frame, frame.isDeclaration = true ∧ Inside frame InSubset spine := by
  cases state : config.state with
  | elementDecl | attlistDecl | entityDecl =>
    simp only [Fits, state] at fits
    exact ⟨_, rfl, fits⟩
  | _ => simp [state, State.isDecl] at h

/-- A change of state without a token keeps scanner and builder in step. -/
theorem Fits.rescans (fits : config.Fits spine) (sound : config.Sound)
    (rescans : config.Rescans next) : next.Fits spine := by
  cases rescans with
  | noStartTagName h =>
    have noProlog := sound.inProlog_eq_false (by simp [h, State.isTag])
    simp only [Fits, h] at fits
    simp only [Fits, moveTo, noProlog, Bool.false_eq_true, ↓reduceIte]
    exact fits
  | noAssign h | noAttributeValue h =>
    simp only [Fits, h] at fits
    exact fits
  | tagLeft h =>
    simp only [Fits, h] at fits
    cases prolog : config.inProlog with
    | true =>
      rw [prolog, if_pos rfl] at fits
      obtain ⟨outer, rfl, around⟩ := fits
      apply Fits.of_returns
      simp only [leaveTag, prolog, ↓reduceIte]
      exact around.instruction
    | false =>
      rw [prolog] at fits
      obtain ⟨outer, rfl, around⟩ := fits
      simp only [Fits, leaveTag, prolog, Bool.false_eq_true, ↓reduceIte]
      exact around.cons rfl
  | noEndTagName h | endTagLeft h | noTarget h =>
    simp only [Fits, h] at fits
    exact fits
  | doctypeLeft h =>
    obtain ⟨outer, rfl, around⟩ := fits.inside_doctype h
    exact around.cons rfl
  | declLeft h => exact .inr (fits.exists_declaration h)

/-- In a subset there is a document type around, which is in element content. -/
theorem Fits.exists_doctype (fits : config.Fits spine) (h : config.state = .subset) :
    ∃ inner outer, spine = inner ++ .doctype :: outer ∧
      (∀ frame ∈ inner, frame.standsInSubset = true) ∧ InContent outer := by
  simp only [Fits, h] at fits
  rcases fits with inSubset | ⟨frame, isDecl, outer, rfl, inSubset⟩
  · exact inSubset.split
  · obtain ⟨inner, outer, rfl, stand, around⟩ := inSubset.split
    have stands := Frame.standsInSubset_of_isDeclaration isDecl
    exact ⟨frame :: inner, outer, rfl, List.forall_mem_cons.2 ⟨stands, stand⟩, around⟩

/-- What belongs to the document type returns to it. -/
theorem Fits.inside_returnToDoctype (fits : config.Fits b.spine) (linked : b.Linked)
    (h : config.state = .subset) (offset : Nat) :
    Inside .doctype InContent (b.returnToDoctype offset).spine := by
  obtain ⟨inner, outer, spine, stand, around⟩ := fits.exists_doctype h
  have others : .doctype ∉ inner := fun mem ↦ Bool.false_ne_true (stand _ mem)
  exact ⟨outer, Builder.spine_returnToDoctype linked spine others offset, around⟩

/-- A tag without content closes the element, or the prolog. -/
private theorem Fits.endEmptyTag (fits : config.Fits b.spine) (linked : b.Linked)
    (h : config.state = .tag) (span : Span) : config.leaveTag.Fits (b.endEmptyTag span).spine := by
  have marked := Builder.retouched_modifyKind
    (NodeKind.frame_modifyElement fun e ↦ { e with selfClosed := true }) b
  simp only [Fits, h] at fits
  rw [← marked.spine_eq] at fits
  cases prolog : config.inProlog with
  | true =>
    rw [prolog, if_pos rfl] at fits
    apply Fits.of_returns
    simp only [leaveTag, prolog, ↓reduceIte]
    exact fits.closeTag (marked.linked linked) (by decide) _
  | false =>
    rw [prolog] at fits
    simp only [Fits, leaveTag, prolog, Bool.false_eq_true, ↓reduceIte]
    exact fits.closeTag (marked.linked linked) (by decide) _

/-- Around a comment or an instruction that is opened, the spine fits the state it returns to. -/
private theorem Fits.returns_leaveDeclaration (fits : config.Fits b.spine) (linked : b.Linked)
    (h : config.state = .content ∨ config.state = .subset) (offset : Nat) :
    Returns (config.enterMarkup state).markupReturn (b.leaveDeclaration offset).spine := by
  obtain ⟨frame, outer, split⟩ := List.exists_cons_of_ne_nil b.spine_ne_nil
  have left := Builder.spine_leaveDeclaration linked split offset
  rcases h with h | h
  · simp only [Fits, h] at fits
    have notDecl : frame.isDeclaration = false := by
      have holds := fits frame (by simp [split])
      revert holds
      cases frame <;> simp [Frame.holdsContent, Frame.isDeclaration]
    simp only [enterMarkup, h]
    rw [left, notDecl]
    exact fits
  · simp only [Fits, h] at fits
    simp only [enterMarkup, h]
    rw [left]
    rcases fits with inSubset | ⟨decl, isDecl, outer', split', inSubset⟩
    · have notDecl : frame.isDeclaration = false := by
        rw [split] at inSubset
        cases inSubset <;> rfl
      rw [notDecl]
      exact inSubset
    · rw [split] at split'
      obtain ⟨rfl, rfl⟩ := List.cons.inj split'
      rw [isDecl]
      exact inSubset

/-- A token that leaves the builder where it stands leaves the spine. -/
private theorem Fits.of_stays {token : Token} (fits : next.Fits b.spine)
    (stays : token.kind.stays = true) : next.Fits (b.apply token).spine := by
  rwa [(Builder.retouched_apply b stays).spine_eq]

/-- A token keeps scanner and builder in step. -/
theorem Fits.apply (fits : config.Fits b.spine) (sound : config.Sound) (linked : b.Linked)
    (emits : config.Emits kind taken next) : next.Fits (b.apply ⟨kind, span, taken⟩).spine := by
  cases emits with
  | space | tagSpace | tagUnknown | endTagUnknown | comment | cdata | instructionData
  | unrecognized => exact .of_stays fits rfl
  | assign h | endTagNameUnknown h | endTagOpen h | attributeName h | attributeValue h
  | instructionTarget h =>
    simp only [Fits, h] at fits
    exact .of_stays fits rfl
  | content h =>
    simp only [Builder.apply, Builder.addText]
    split
    · exact fits
    · rw [Builder.spine_addChild linked]
      exact fits
  | commentOpen h =>
    simp only [Builder.apply, Builder.openComment]
    rw [Builder.spine_openToEnd (linked.leaveDeclaration _)]
    exact ⟨_, rfl, fits.returns_leaveDeclaration linked h _⟩
  | instructionOpen h =>
    simp only [Builder.apply, Builder.openInstruction]
    rw [Builder.spine_openToEnd (linked.leaveDeclaration _)]
    exact ⟨_, rfl, fits.returns_leaveDeclaration linked h _⟩
  | cdataOpen h =>
    simp only [Fits, h] at fits
    simp only [Builder.apply]
    rw [Builder.spine_openToEnd linked]
    exact ⟨_, rfl, fits⟩
  | doctypeOpen h =>
    simp only [Fits, h] at fits
    simp only [Builder.apply]
    rw [Builder.spine_openToEnd linked]
    exact ⟨_, rfl, fits⟩
  | startTagOpen h =>
    simp only [Fits, h] at fits
    have ended := Builder.retouched_setCurrentStop b span.start
    simp only [Builder.apply, Builder.openElement]
    rw [Builder.spine_openNode (ended.linked linked), ended.spine_eq]
    exact ⟨_, rfl, fits⟩
  | startTag h | startTagUnknown h =>
    have noProlog := sound.inProlog_eq_false (by simp [h, State.isTag])
    simp only [Fits, h] at fits
    refine .of_stays ?_ rfl
    simp only [Fits, moveTo, noProlog, Bool.false_eq_true, ↓reduceIte]
    exact fits
  | prologClose h prolog =>
    simp only [Fits, h, prolog, ↓reduceIte] at fits
    apply Fits.of_returns
    simp only [Builder.apply, leaveTag, prolog, ↓reduceIte]
    apply fits.closeIf linked (by decide)
    intro kind isInstruction
    rw [NodeKind.instruction?_isSome_eq, isInstruction]
    rfl
  | emptyTagClose h => exact fits.endEmptyTag linked h span
  | startTagClose h =>
    -- The tag of a prolog that ends like that of an element leaves the instruction open.
    exact .of_stays (fits.rescans sound (.tagLeft h)) rfl
  | endTag h =>
    simp only [Fits, h] at fits
    simp only [Builder.apply]
    show InContent _
    rcases Builder.spine_nameEndTag linked ⟨.endTag, span, taken⟩ with ⟨outer, eq, suffix⟩ | eq
    · rw [eq]
      exact fits.suffix suffix
    · rw [eq]
      exact fits.cons rfl
  | endTagClose h =>
    simp only [Fits, h] at fits
    have marked := Builder.retouched_modifyKind
      (NodeKind.frame_modifyElement fun e ↦ { e with endTagClose := some span.start }) b
    rw [← marked.spine_eq] at fits
    simp only [Builder.apply, Builder.endEndTag]
    show InContent _
    rcases Builder.closeTag_cases (marked.linked linked) span.stop with ⟨-, eq⟩ | left
    · rwa [eq]
    · exact fits.suffix ((left.returned (marked.linked linked)).spine_suffix (marked.linked linked))
  | commentClose h =>
    simp only [Fits, h] at fits
    apply Fits.of_returns
    apply fits.closeIf linked (by decide)
    intro kind isComment
    rw [NodeKind.isComment_eq, isComment]
    rfl
  | cdataClose h =>
    simp only [Fits, h] at fits
    apply fits.closeIf linked (by decide)
    intro kind isCdata
    rw [NodeKind.isCdata_eq, isCdata]
    rfl
  | prologTarget h =>
    simp only [Fits, h] at fits
    refine .of_stays ?_ rfl
    simp only [Fits, ↓reduceIte]
    exact fits
  | instructionClose h =>
    simp only [Fits, h] at fits
    apply Fits.of_returns
    apply fits.closeIf linked (by decide)
    intro kind isInstruction
    rw [NodeKind.instruction?_isSome_eq, isInstruction]
    rfl
  | subsetOpen h =>
    simp only [Fits, h] at fits
    obtain ⟨outer, spine, around⟩ := fits
    refine .of_stays ?_ rfl
    rw [spine]
    exact .inl (.doctype around)
  | doctypeClose h =>
    obtain ⟨outer, spine, around⟩ := fits.inside_doctype h
    have returned : Inside .doctype InContent (b.returnToDoctype span.start).spine :=
      ⟨outer, Builder.spine_returnToDoctype linked spine List.not_mem_nil span.start, around⟩
    apply returned.closeIf (linked.returnToDoctype _) (by decide)
    intro kind isDoctype
    rw [NodeKind.isDoctype_eq, isDoctype]
    rfl
  | subsetClose h =>
    simp only [Builder.apply, Builder.closeSubset]
    rw [(Builder.retouched_modifyKind (NodeKind.frame_modifyDoctype _) _).spine_eq]
    exact fits.inside_returnToDoctype linked h span.start
  | elementDeclOpen h | attlistOpen h | entityOpen h =>
    obtain ⟨outer, returned, around⟩ := fits.inside_returnToDoctype linked h span.start
    simp only [Builder.apply, Token.start]
    rw [Builder.spine_openDeclaration linked returned]
    exact ⟨_, rfl, .doctype around⟩
  | declClose h =>
    obtain ⟨frame, isDecl, inside⟩ := fits.exists_declaration h
    have notDocument : frame ≠ .document := by
      rintro rfl
      cases isDecl
    left
    apply inside.closeIf linked notDocument
    intro kind isFrame
    rw [NodeKind.isDeclaration_eq, isFrame, isDecl]
  | doctypePart h fills | elementPart h fills | attlistPart h fills | entityPart h fills =>
    simp only [Fits, h] at fits
    cases fills <;> exact .of_stays fits rfl

end Scanner.Config

end TolerantXml
