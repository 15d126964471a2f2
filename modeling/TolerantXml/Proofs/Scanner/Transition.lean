import Mathlib.Logic.Relation
import TolerantXml.Scanner.Stream

/-!
# Transitions of the scanner

What a step may do in a configuration, with the lexemes left out that are not fixed: the tokens it
may read (`Config.Emits`) and the changes of state without a token (`Config.Rescans`). Every step is
one of them (`step_allowed`), and a token that is read comes after steps without one (`read_emits`).
-/

namespace TolerantXml

/-! ### Slots of declarations -/

/-- The parts of the header of a document type declaration, each with the slot it fills and the
slot that is next. -/
inductive DoctypeSlot.Fills : DoctypeSlot → TokenKind → DoctypeSlot → Prop where
  | name : Fills .name .doctypeName .keyword
  | publicKeyword : Fills .keyword .doctypePublic .publicId
  | systemKeyword : Fills .keyword .doctypeSystem .systemId
  | publicId : Fills .publicId .doctypePublicId .publicSystemId
  | systemId : Fills .systemId .doctypeSystemId .nothing
  | publicSystemId : Fills .publicSystemId .doctypeSystemId .nothing

/-- The parts of an element declaration, as those of a document type declaration. -/
inductive ElementSlot.Fills : ElementSlot → TokenKind → ElementSlot → Prop where
  | name : Fills .name .elementDeclName .content
  | category : Fills .content .elementDeclCategory .nothing
  | content : Fills .content .elementDeclContent .nothing

/-- The parts of an attribute list declaration, of which types and defaults may leave their slot
open. -/
inductive AttlistSlot.Fills : AttlistSlot → TokenKind → AttlistSlot → Prop where
  | element : Fills .element .attlistElement .name
  | name : Fills .name .attlistName .type
  | type : Fills .type .attlistType .defaultValue
  | notationType : Fills .type .attlistType .type
  | defaultValue : Fills .defaultValue .attlistDefault .name
  | fixedDefault : Fills .defaultValue .attlistDefault .defaultValue
  | nextName : Fills .defaultValue .attlistName .type

/-- The parts of an entity declaration. -/
inductive EntitySlot.Fills : EntitySlot → TokenKind → EntitySlot → Prop where
  | percent : Fills .name .entityPercent .name
  | name : Fills .name .entityName .definition
  | value : Fills .definition .entityValue .nothing
  | publicKeyword : Fills .definition .entityPublic .publicId
  | systemKeyword : Fills .definition .entitySystem .systemId
  | publicId : Fills .publicId .entityPublicId .systemId
  | systemId : Fills .systemId .entitySystemId .nothing

/-- The state in which tokens of a kind are read, if there is only one. -/
def TokenKind.state? : TokenKind → Option Scanner.State
  | .content | .cdataOpen | .doctypeOpen | .endTagOpen | .startTagOpen => some .content
  | .startTag => some .startTagName
  | .prologClose | .attributeName | .emptyTagClose | .startTagClose => some .tag
  | .assign => some .assign
  | .attributeValue => some .attributeValue
  | .endTag => some .endTagName
  | .endTagClose => some .endTag
  | .comment | .commentClose => some .comment
  | .cdata | .cdataClose => some .cdata
  | .prologTarget | .instructionTarget => some .instructionTarget
  | .instructionData | .instructionClose => some .instructionData
  | .subsetClose | .elementDeclOpen | .attlistOpen | .entityOpen => some .subset
  | _ => none

namespace Scanner

open Lexeme

/-- Whether white space in a state leaves the configuration as it is. -/
def State.skipsSpace : State → Bool
  | .startTagName | .attributeValue | .endTagName | .endTag | .instructionData => true
  | .doctype _ | .subset | .afterSubset => true
  | .elementDecl _ | .attlistDecl _ | .entityDecl _ => true
  | .content | .tag | .assign | .comment | .cdata | .instructionTarget => false

/-- Whether the state is inside a declaration of an element, an attribute list or an entity. -/
def State.isDecl : State → Bool
  | .elementDecl _ | .attlistDecl _ | .entityDecl _ => true
  | _ => false

/-- Whether text that has no place may stand in a declaration, its header or its subset. -/
def State.takesUnrecognized : State → Bool
  | .doctype _ | .subset | .afterSubset => true
  | .elementDecl _ | .attlistDecl _ | .entityDecl _ => true
  | _ => false

namespace Config

/-- The tokens that may be read in a configuration, and the configuration behind them. -/
inductive Emits (config : Config) : TokenKind → Text → Config → Prop where
  | space {taken} (h : config.state.skipsSpace) : Emits config .whitespace taken config
  | tagSpace {taken} (h : config.state = .tag ∨ config.state = .assign) :
    Emits config .whitespace taken { config with spaceSeen := true }
  | content {taken} (h : config.state = .content) : Emits config .content taken config
  | commentOpen (h : config.state = .content ∨ config.state = .subset) :
    Emits config .commentOpen Delimiter.commentOpen (config.enterMarkup .comment)
  | cdataOpen (h : config.state = .content) :
    Emits config .cdataOpen Delimiter.cdataOpen (config.moveTo .cdata)
  | doctypeOpen {taken} (h : config.state = .content) :
    Emits config .doctypeOpen taken (config.moveTo (.doctype .name))
  | endTagOpen (h : config.state = .content) :
    Emits config .endTagOpen Delimiter.endTagOpen (config.moveTo .endTagName)
  | instructionOpen (h : config.state = .content ∨ config.state = .subset) :
    Emits config .instructionOpen Delimiter.instructionOpen (config.enterMarkup .instructionTarget)
  | startTagOpen (h : config.state = .content) :
    Emits config .startTagOpen ['<'] { config with state := .startTagName, spaceSeen := false }
  | startTag {taken} (h : config.state = .startTagName) :
    Emits config .startTag taken (config.moveTo .tag)
  | startTagUnknown {taken} (h : config.state = .startTagName) :
    Emits config .unknown taken (config.moveTo .tag)
  | prologClose (h : config.state = .tag) (prolog : config.inProlog = true) :
    Emits config .prologClose Delimiter.instructionClose config.leaveTag
  | attributeName {taken} (h : config.state = .tag) (space : config.spaceSeen = true) :
    Emits config .attributeName taken { config with state := .assign, spaceSeen := false }
  | emptyTagClose (h : config.state = .tag) :
    Emits config .emptyTagClose Delimiter.emptyTagClose config.leaveTag
  | startTagClose (h : config.state = .tag) : Emits config .startTagClose ['>'] config.leaveTag
  | tagUnknown {taken} (h : config.state = .tag) : Emits config .unknown taken config
  | assign (h : config.state = .assign) :
    Emits config .assign ['='] (config.moveTo .attributeValue)
  | attributeValue {taken} (h : config.state = .attributeValue) :
    Emits config .attributeValue taken { config with state := .tag, spaceSeen := false }
  | endTag {taken} (h : config.state = .endTagName) :
    Emits config .endTag taken (config.moveTo .endTag)
  | endTagNameUnknown {taken} (h : config.state = .endTagName) :
    Emits config .unknown taken (config.moveTo .endTag)
  | endTagClose (h : config.state = .endTag) :
    Emits config .endTagClose ['>'] (config.moveTo .content)
  | endTagUnknown {taken} (h : config.state = .endTag) : Emits config .unknown taken config
  | comment {taken} (h : config.state = .comment) : Emits config .comment taken config
  | commentClose (h : config.state = .comment) :
    Emits config .commentClose Delimiter.commentClose config.leaveMarkup
  | cdata {taken} (h : config.state = .cdata) : Emits config .cdata taken config
  | cdataClose (h : config.state = .cdata) :
    Emits config .cdataClose Delimiter.cdataClose (config.moveTo .content)
  | prologTarget (h : config.state = .instructionTarget) :
    Emits config .prologTarget Keyword.xml
      { config with state := .tag, inProlog := true, spaceSeen := false }
  | instructionTarget {taken} (h : config.state = .instructionTarget) :
    Emits config .instructionTarget taken (config.moveTo .instructionData)
  | instructionData {taken} (h : config.state = .instructionData) :
    Emits config .instructionData taken config
  | instructionClose (h : config.state = .instructionData) :
    Emits config .instructionClose Delimiter.instructionClose config.leaveMarkup
  | subsetOpen {slot} (h : config.state = .doctype slot) :
    Emits config .subsetOpen ['['] { config with state := .subset, markupReturn := .subset }
  | doctypeClose (h : (∃ slot, config.state = .doctype slot) ∨ config.state = .afterSubset) :
    Emits config .doctypeClose ['>'] (config.moveTo .content)
  | doctypePart {kind taken slot nextSlot} (h : config.state = .doctype slot)
    (fills : slot.Fills kind nextSlot) : Emits config kind taken (config.moveTo (.doctype nextSlot))
  | subsetClose (h : config.state = .subset) (xml : config.mode = .xml) :
    Emits config .subsetClose [']'] { config with state := .afterSubset, markupReturn := .content }
  | elementDeclOpen (h : config.state = .subset) :
    Emits config .elementDeclOpen (Delimiter.declOpen ++ Keyword.element)
      (config.moveTo (.elementDecl .name))
  | attlistOpen (h : config.state = .subset) :
    Emits config .attlistOpen (Delimiter.declOpen ++ Keyword.attlist)
      (config.moveTo (.attlistDecl .element))
  | entityOpen (h : config.state = .subset) :
    Emits config .entityOpen (Delimiter.declOpen ++ Keyword.entity)
      (config.moveTo (.entityDecl .name))
  | declClose (h : config.state.isDecl) : Emits config .declClose ['>'] (config.moveTo .subset)
  | elementPart {kind taken slot nextSlot} (h : config.state = .elementDecl slot)
    (fills : slot.Fills kind nextSlot) :
    Emits config kind taken (config.moveTo (.elementDecl nextSlot))
  | attlistPart {kind taken slot nextSlot} (h : config.state = .attlistDecl slot)
    (fills : slot.Fills kind nextSlot) :
    Emits config kind taken (config.moveTo (.attlistDecl nextSlot))
  | entityPart {kind taken slot nextSlot} (h : config.state = .entityDecl slot)
    (fills : slot.Fills kind nextSlot) :
    Emits config kind taken (config.moveTo (.entityDecl nextSlot))
  | unrecognized {taken} (h : config.state.takesUnrecognized) :
    Emits config .unrecognized taken config

/-- The changes of state without a token. -/
inductive Rescans (config : Config) : Config → Prop where
  | noStartTagName (h : config.state = .startTagName) : Rescans config (config.moveTo .tag)
  | noAssign (h : config.state = .assign) : Rescans config (config.moveTo .tag)
  | noAttributeValue (h : config.state = .attributeValue) :
    Rescans config { config with state := .tag, spaceSeen := false }
  | tagLeft (h : config.state = .tag) : Rescans config config.leaveTag
  | noEndTagName (h : config.state = .endTagName) : Rescans config (config.moveTo .endTag)
  | endTagLeft (h : config.state = .endTag) : Rescans config (config.moveTo .content)
  | noTarget (h : config.state = .instructionTarget) :
    Rescans config (config.moveTo .instructionData)
  | doctypeLeft (h : (∃ slot, config.state = .doctype slot) ∨ config.state = .afterSubset) :
    Rescans config (config.moveTo .content)
  | declLeft (h : config.state.isDecl) : Rescans config (config.moveTo .subset)

/-- A token that is read in one state only tells the state. -/
theorem Emits.state_eq {config next : Config} {kind : TokenKind} {taken : Text} {state : State}
    (emits : config.Emits kind taken next) (h : kind.state? = some state) :
    config.state = state := by
  cases emits with
  | content eq | cdataOpen eq | doctypeOpen eq | endTagOpen eq | startTagOpen eq | startTag eq
  | prologClose eq | attributeName eq | emptyTagClose eq | startTagClose eq | assign eq
  | attributeValue eq | endTag eq | endTagClose eq | comment eq | commentClose eq | cdata eq
  | cdataClose eq | prologTarget eq | instructionTarget eq | instructionData eq
  | instructionClose eq | subsetClose eq | elementDeclOpen eq | attlistOpen eq | entityOpen eq =>
    cases h
    exact eq
  | doctypePart _ fills | elementPart _ fills | attlistPart _ fills | entityPart _ fills =>
    cases fills <;> cases h
  | _ => cases h

theorem Emits.state_of_kind {config next : Config} {kind kind' : TokenKind} {taken : Text}
    {state : State} (emits : config.Emits kind taken next) (isKind : kind = kind')
    (h : kind'.state? = some state) : config.state = state :=
  emits.state_eq (isKind ▸ h)

theorem moveTo_self {config : Config} {state : State} (h : config.state = state) :
    config.moveTo state = config := by
  rw [← h, moveTo]

private theorem Emits.attlistPart_self {config : Config} {slot : AttlistSlot} {kind : TokenKind}
    {taken : Text} (h : config.state = .attlistDecl slot) (fills : slot.Fills kind slot) :
    config.Emits kind taken config := by
  have emits : config.Emits kind taken (config.moveTo (.attlistDecl slot)) := .attlistPart h fills
  rwa [moveTo_self h] at emits

private theorem Emits.entityPart_self {config : Config} {slot : EntitySlot} {kind : TokenKind}
    {taken : Text} (h : config.state = .entityDecl slot) (fills : slot.Fills kind slot) :
    config.Emits kind taken config := by
  have emits : config.Emits kind taken (config.moveTo (.entityDecl slot)) := .entityPart h fills
  rwa [moveTo_self h] at emits

end Config

/-! ### Every step is a transition -/

/-- Whether a step is a transition from a configuration. -/
def Step.Allowed (config : Config) : Step → Prop
  | .emit kind taken next => config.Emits kind taken next
  | .rescan next => config.Rescans next

section Steps

variable {config next : Config} {before rest taken pattern : Text} {kind : TokenKind}
  {otherwise : Step}

private theorem attempt_allowed (reads : config.Emits kind taken next)
    (other : otherwise.Allowed config) : (attempt taken kind next otherwise).Allowed config := by
  unfold attempt
  split
  · exact other
  · exact reads

/-- A literal is read in full or not at all. -/
private theorem attempt_literal_allowed (reads : config.Emits kind pattern next)
    (other : otherwise.Allowed config) :
    (attempt (literal pattern rest) kind next otherwise).Allowed config := by
  unfold literal
  split
  · exact attempt_allowed reads other
  · exact other

/-- A lexeme that is tried under a condition is read only where the condition holds. -/
private theorem attempt_ite_allowed {p : Prop} [Decidable p]
    (reads : p → (attempt taken kind next otherwise).Allowed config)
    (other : otherwise.Allowed config) :
    (attempt (if p then taken else []) kind next otherwise).Allowed config := by
  split
  · next holds => exact reads holds
  · exact other

private theorem stepContent_allowed (h : config.state = .content) :
    (stepContent config rest).Allowed config := by
  refine attempt_literal_allowed (.commentOpen (.inl h)) ?_
  refine attempt_literal_allowed (.cdataOpen h) ?_
  refine attempt_allowed (.doctypeOpen h) ?_
  refine attempt_literal_allowed (.endTagOpen h) ?_
  refine attempt_literal_allowed (.instructionOpen (.inl h)) ?_
  exact attempt_literal_allowed (.startTagOpen h) (.content h)

private theorem stepStartTagName_allowed (h : config.state = .startTagName) :
    (stepStartTagName config rest).Allowed config := by
  refine attempt_allowed (.startTag h) ?_
  refine attempt_allowed (.space (by simp [h, State.skipsSpace])) ?_
  exact attempt_allowed (.startTagUnknown h) (.noStartTagName h)

private theorem stepTag_allowed (h : config.state = .tag) :
    (stepTag config rest).Allowed config := by
  refine attempt_allowed (.tagSpace (.inl h)) ?_
  -- The rest of the tag, which the alternatives of the prolog and of attributes fall back to.
  have closing : (attempt (literal Delimiter.emptyTagClose rest) .emptyTagClose config.leaveTag <|
      attempt (literal ['>'] rest) .startTagClose config.leaveTag <|
      if atMarkup rest then .rescan config.leaveTag
      else .emit .unknown (anyChar rest) config).Allowed config := by
    refine attempt_literal_allowed (.emptyTagClose h) ?_
    refine attempt_literal_allowed (.startTagClose h) ?_
    split
    · exact .tagLeft h
    · exact .tagUnknown h
  have attributes : (attempt
      (if config.spaceSeen then attributeName config.inProlog rest else []) .attributeName
      { config with state := .assign, spaceSeen := false } _).Allowed config :=
    attempt_ite_allowed (fun space ↦ attempt_allowed (.attributeName h space) closing) closing
  exact attempt_ite_allowed
    (fun prolog ↦ attempt_literal_allowed (.prologClose h prolog) attributes) attributes

private theorem stepAssign_allowed (h : config.state = .assign) :
    (stepAssign config rest).Allowed config := by
  refine attempt_allowed (.tagSpace (.inr h)) ?_
  exact attempt_literal_allowed (.assign h) (.noAssign h)

private theorem stepAttributeValue_allowed (h : config.state = .attributeValue) :
    (stepAttributeValue config rest).Allowed config := by
  refine attempt_allowed (.space (by simp [h, State.skipsSpace])) ?_
  refine attempt_allowed (.attributeValue h) ?_
  exact attempt_allowed (.attributeValue h) (.noAttributeValue h)

private theorem stepEndTagName_allowed (h : config.state = .endTagName) :
    (stepEndTagName config rest).Allowed config := by
  refine attempt_allowed (.endTag h) ?_
  refine attempt_allowed (.space (by simp [h, State.skipsSpace])) ?_
  exact attempt_allowed (.endTagNameUnknown h) (.noEndTagName h)

private theorem stepEndTag_allowed (h : config.state = .endTag) :
    (stepEndTag config rest).Allowed config := by
  refine attempt_allowed (.space (by simp [h, State.skipsSpace])) ?_
  refine attempt_literal_allowed (.endTagClose h) ?_
  split
  · exact .endTagLeft h
  · exact .endTagUnknown h

private theorem stepComment_allowed (h : config.state = .comment) :
    (stepComment config rest).Allowed config :=
  attempt_literal_allowed (.commentClose h) (.comment h)

private theorem stepCdata_allowed (h : config.state = .cdata) :
    (stepCdata config rest).Allowed config :=
  attempt_literal_allowed (.cdataClose h) (.cdata h)

private theorem stepInstructionTarget_allowed (h : config.state = .instructionTarget) :
    (stepInstructionTarget config rest).Allowed config := by
  rw [stepInstructionTarget, prologTarget]
  refine attempt_ite_allowed (fun _ ↦ attempt_allowed (.prologTarget h) ?_) ?_
  · exact attempt_allowed (.instructionTarget h) (.noTarget h)
  · exact attempt_allowed (.instructionTarget h) (.noTarget h)

private theorem stepInstructionData_allowed (h : config.state = .instructionData) :
    (stepInstructionData config rest).Allowed config := by
  refine attempt_allowed (.space (by simp [h, State.skipsSpace])) ?_
  exact attempt_literal_allowed (.instructionClose h) (.instructionData h)

private theorem stepDoctypeSlot_allowed {slot : DoctypeSlot} (h : config.state = .doctype slot)
    (other : otherwise.Allowed config) :
    (stepDoctypeSlot config rest slot otherwise).Allowed config := by
  cases slot with
  | name => exact attempt_allowed (.doctypePart h .name) other
  | keyword =>
    exact attempt_allowed (.doctypePart h .publicKeyword)
      (attempt_allowed (.doctypePart h .systemKeyword) other)
  | publicId => exact attempt_allowed (.doctypePart h .publicId) other
  | systemId => exact attempt_allowed (.doctypePart h .systemId) other
  | publicSystemId => exact attempt_allowed (.doctypePart h .publicSystemId) other
  | nothing => exact other

private theorem stepDoctype_allowed {slot : DoctypeSlot} (h : config.state = .doctype slot) :
    (stepDoctype config slot rest).Allowed config := by
  refine attempt_allowed (.space (by simp [h, State.skipsSpace])) ?_
  refine attempt_literal_allowed (.subsetOpen h) ?_
  refine attempt_literal_allowed (.doctypeClose (.inl ⟨slot, h⟩)) ?_
  split
  · exact .doctypeLeft (.inl ⟨slot, h⟩)
  · exact stepDoctypeSlot_allowed h (.unrecognized (by simp [h, State.takesUnrecognized]))

private theorem stepAfterSubset_allowed (h : config.state = .afterSubset) :
    (stepAfterSubset config rest).Allowed config := by
  refine attempt_allowed (.space (by simp [h, State.skipsSpace])) ?_
  refine attempt_literal_allowed (.doctypeClose (.inr h)) ?_
  split
  · exact .doctypeLeft (.inr h)
  · exact .unrecognized (by simp [h, State.takesUnrecognized])

private theorem stepSubset_allowed (h : config.state = .subset) :
    (stepSubset config rest).Allowed config := by
  refine attempt_allowed (.space (by simp [h, State.skipsSpace])) ?_
  have declarations : (attempt (declOpen Keyword.element rest) .elementDeclOpen
        (config.moveTo (.elementDecl .name)) <|
      attempt (declOpen Keyword.attlist rest) .attlistOpen
        (config.moveTo (.attlistDecl .element)) <|
      attempt (declOpen Keyword.entity rest) .entityOpen (config.moveTo (.entityDecl .name)) <|
      attempt (literal Delimiter.commentOpen rest) .commentOpen (config.enterMarkup .comment) <|
      attempt (literal Delimiter.instructionOpen rest) .instructionOpen
        (config.enterMarkup .instructionTarget) <|
      .emit .unrecognized (unrecognized rest) config).Allowed config := by
    refine attempt_literal_allowed (.elementDeclOpen h) ?_
    refine attempt_literal_allowed (.attlistOpen h) ?_
    refine attempt_literal_allowed (.entityOpen h) ?_
    refine attempt_literal_allowed (.commentOpen (.inr h)) ?_
    refine attempt_literal_allowed (.instructionOpen (.inr h)) ?_
    exact .unrecognized (by simp [h, State.takesUnrecognized])
  exact attempt_ite_allowed
    (fun xml ↦ attempt_literal_allowed (.subsetClose h xml) declarations) declarations

private theorem stepElementSlot_allowed {slot : ElementSlot} (h : config.state = .elementDecl slot)
    (other : otherwise.Allowed config) :
    (stepElementSlot config rest slot otherwise).Allowed config := by
  cases slot with
  | name => exact attempt_allowed (.elementPart h .name) other
  | content =>
    exact attempt_allowed (.elementPart h .category)
      (attempt_allowed (.elementPart h .category)
        (attempt_allowed (.elementPart h .content) other))
  | nothing => exact other

private theorem stepAttlistSlot_allowed {slot : AttlistSlot} (h : config.state = .attlistDecl slot)
    (other : otherwise.Allowed config) :
    (stepAttlistSlot config before rest slot otherwise).Allowed config := by
  cases slot with
  | element => exact attempt_allowed (.attlistPart h .element) other
  | name => exact attempt_allowed (.attlistPart h .name) other
  | type =>
    refine attempt_allowed (.attlistPart h .type) (attempt_allowed ?_ other)
    split
    · exact .attlistPart_self h .notationType
    · exact .attlistPart h .type
  | defaultValue =>
    refine attempt_allowed (.attlistPart h .defaultValue)
      (attempt_allowed ?_ (attempt_allowed (.attlistPart h .nextName) other))
    by_cases fixed : lastWord ((word rest).reverseAux before) = Keyword.fixed
    · rw [if_pos fixed]
      exact .attlistPart_self h .fixedDefault
    · rw [if_neg fixed]
      exact .attlistPart h .defaultValue

private theorem stepEntitySlot_allowed {slot : EntitySlot} (h : config.state = .entityDecl slot)
    (other : otherwise.Allowed config) :
    (stepEntitySlot config rest slot otherwise).Allowed config := by
  cases slot with
  | name =>
    exact attempt_allowed (.entityPart_self h .percent)
      (attempt_allowed (.entityPart h .name) other)
  | definition =>
    exact attempt_allowed (.entityPart h .value)
      (attempt_allowed (.entityPart h .publicKeyword)
        (attempt_allowed (.entityPart h .systemKeyword) other))
  | publicId => exact attempt_allowed (.entityPart h .publicId) other
  | systemId => exact attempt_allowed (.entityPart h .systemId) other
  | nothing => exact other

private theorem stepDecl_allowed {parts : Step → Step} (h : config.state.isDecl)
    (slots : ∀ otherwise : Step, otherwise.Allowed config → (parts otherwise).Allowed config) :
    (stepDecl config rest parts).Allowed config := by
  have space : config.state.skipsSpace := by
    revert h
    cases config.state <;> simp [State.isDecl, State.skipsSpace]
  have unrecognized : config.state.takesUnrecognized := by
    revert h
    cases config.state <;> simp [State.isDecl, State.takesUnrecognized]
  refine attempt_allowed (.space space) ?_
  refine attempt_literal_allowed (.declClose h) ?_
  split
  · exact .declLeft h
  · exact slots _ (.unrecognized unrecognized)

/-- Every step is a transition. -/
theorem step_allowed (config : Config) (before rest : Text) :
    (step config before rest).Allowed config := by
  rw [step]
  split
  · next h => exact stepContent_allowed h
  · next h => exact stepStartTagName_allowed h
  · next h => exact stepTag_allowed h
  · next h => exact stepAssign_allowed h
  · next h => exact stepAttributeValue_allowed h
  · next h => exact stepComment_allowed h
  · next h => exact stepCdata_allowed h
  · next h => exact stepInstructionTarget_allowed h
  · next h => exact stepInstructionData_allowed h
  · next h => exact stepEndTagName_allowed h
  · next h => exact stepEndTag_allowed h
  · next slot h => exact stepDoctype_allowed h
  · next h => exact stepSubset_allowed h
  · next h => exact stepAfterSubset_allowed h
  · next slot h =>
    exact stepDecl_allowed (by simp [h, State.isDecl]) fun _ ↦ stepElementSlot_allowed h
  · next slot h =>
    exact stepDecl_allowed (by simp [h, State.isDecl]) fun _ ↦ stepAttlistSlot_allowed h
  · next slot h =>
    exact stepDecl_allowed (by simp [h, State.isDecl]) fun _ ↦ stepEntitySlot_allowed h

/-! ### Looking into a step -/

variable {kind' : TokenKind} {taken' : Text} {next' : Config}

theorem attempt_eq_rescan : attempt taken kind next otherwise = .rescan config ↔
    taken = [] ∧ otherwise = .rescan config := by
  cases taken <;> simp [attempt]

/-- An alternative is taken, or it found nothing. -/
theorem cases_of_attempt_eq
    (reads : attempt taken kind next otherwise = .emit kind' taken' next') :
    taken ≠ [] ∧ kind' = kind ∧ taken' = taken ∧ next' = next ∨
      taken = [] ∧ otherwise = .emit kind' taken' next' := by
  rw [attempt] at reads
  split at reads
  · next isEmpty => exact .inr ⟨List.isEmpty_iff.1 isEmpty, reads⟩
  · next nonempty =>
    cases reads
    exact .inl ⟨fun isNil ↦ nonempty (List.isEmpty_iff.2 isNil), rfl, rfl, rfl⟩

/-- An alternative of another kind than the token that is read found nothing. -/
theorem eq_nil_of_attempt_eq (differ : kind ≠ kind')
    (reads : attempt taken kind next otherwise = .emit kind' taken' next') :
    taken = [] ∧ otherwise = .emit kind' taken' next' :=
  (cases_of_attempt_eq reads).resolve_left fun isTaken ↦ differ isTaken.2.1.symm

theorem head?_of_atMarkup {left : Config}
    (rescans : (if atMarkup rest then Step.rescan left else .emit kind taken config) =
      .rescan next) : rest.head? = some '<' := by
  split at rescans
  · next h => exact beq_iff_eq.1 h
  · cases rescans

end Steps

/-! ### Reading a token -/

/-- A token is read where a step reads it. -/
theorem read_of_step {config next : Config} {cursor : Cursor} {kind : TokenKind} {taken : Text}
    (ahead : cursor.rest ≠ [])
    (reads : step config cursor.before cursor.rest = .emit kind taken next) :
    read config cursor =
      (⟨kind, ⟨cursor.offset, cursor.offset + taken.byteSize⟩, taken⟩,
        ⟨next, cursor.advance taken⟩) := by
  rw [read]
  split
  · next atEnd => exact absurd atEnd ahead
  · next c rest split =>
    rw [split] at reads
    split
    · next reads' =>
      rw [reads] at reads'
      cases reads'
      rfl
    · next reads' =>
      rw [reads] at reads'
      cases reads'

/-- A change of state without a token comes before what is read in the new state. -/
theorem read_of_rescan {config next : Config} {cursor : Cursor} (ahead : cursor.rest ≠ [])
    (rescans : step config cursor.before cursor.rest = .rescan next) :
    read config cursor = read next cursor := by
  rw [read]
  split
  · next atEnd => exact absurd atEnd ahead
  · next c rest split =>
    rw [split] at rescans
    split
    · next rescans' =>
      rw [rescans] at rescans'
      cases rescans'
    · next rescans' =>
      rw [rescans] at rescans'
      cases rescans'
      rfl

/-- A step that reads a token is one of those that may read it. -/
theorem emits_of_step {config next : Config} {before rest taken : Text} {kind : TokenKind}
    (reads : step config before rest = .emit kind taken next) : config.Emits kind taken next := by
  have allowed := step_allowed config before rest
  rwa [reads] at allowed

theorem rescans_of_step {config next : Config} {before rest : Text}
    (reads : step config before rest = .rescan next) : config.Rescans next := by
  have allowed := step_allowed config before rest
  rwa [reads] at allowed

/-- A token is read by a step, after steps that only change the state. -/
theorem read_step (config : Config) {cursor : Cursor} (ahead : cursor.rest ≠ []) :
    ∃ (reading : Config) (kind : TokenKind) (taken : Text) (next : Config),
      Relation.ReflTransGen
        (fun config next ↦ step config cursor.before cursor.rest = .rescan next) config reading ∧
      step reading cursor.before cursor.rest = .emit kind taken next ∧
      taken ≠ [] ∧ taken <+: cursor.rest ∧
      read config cursor =
        (⟨kind, ⟨cursor.offset, cursor.offset + taken.byteSize⟩, taken⟩,
          ⟨next, cursor.advance taken⟩) := by
  fun_induction read config cursor with
  | case1 _ h => exact absurd h ahead
  | case2 config c rest h kind taken next hstep after =>
    have progress := step_progress config cursor.before c rest
    rw [hstep] at progress
    exact ⟨config, kind, taken, next, .refl, h ▸ hstep, progress.2.1, h ▸ progress.2.2, rfl⟩
  | case3 config c rest h next hstep ih =>
    obtain ⟨reading, kind, taken, last, rescans, reads⟩ := ih
    exact ⟨reading, kind, taken, last, .head (h ▸ hstep) rescans, reads⟩

/-- A token is read after changes of state, in a configuration that may read it. -/
theorem read_emits (config : Config) {cursor : Cursor} (ahead : cursor.rest ≠ []) :
    ∃ (reading : Config) (kind : TokenKind) (taken : Text) (next : Config),
      Relation.ReflTransGen Config.Rescans config reading ∧ reading.Emits kind taken next ∧
      taken ≠ [] ∧ taken <+: cursor.rest ∧
      read config cursor =
        (⟨kind, ⟨cursor.offset, cursor.offset + taken.byteSize⟩, taken⟩,
          ⟨next, cursor.advance taken⟩) := by
  obtain ⟨reading, kind, taken, next, path, reads, nonempty, starts, eq⟩ :=
    read_step config ahead
  exact ⟨reading, kind, taken, next, path.lift id fun _ _ rescans ↦ rescans_of_step rescans,
    emits_of_step reads, nonempty, starts, eq⟩

end Scanner

end TolerantXml
