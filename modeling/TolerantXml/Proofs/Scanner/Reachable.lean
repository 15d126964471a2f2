import TolerantXml.Proofs.Scanner.Transition

/-!
# Reachable configurations

What holds of every configuration that a scanner reaches (`Config.Sound`): markup returns to element
content or to the subset, a prolog is read as a tag, and where only declarations are read there are
no tags besides that of the prolog. Every transition keeps it (`Sound.emits`, `Sound.rescans`).
-/

namespace TolerantXml.Scanner

/-- Whether a state is inside a tag, behind its name. -/
def State.isTag : State → Bool
  | .tag | .assign | .attributeValue => true
  | _ => false

/-- Whether a state can be reached where only declarations are read. -/
def State.ofDeclarations : State → Bool
  | .subset | .comment | .instructionTarget | .instructionData => true
  | .elementDecl _ | .attlistDecl _ | .entityDecl _ => true
  | .tag | .assign | .attributeValue => true
  | .content | .startTagName | .cdata | .endTagName | .endTag | .doctype _ | .afterSubset => false

/-- What holds of every configuration that a scanner reaches. -/
structure Config.Sound (config : Config) : Prop where
  markupReturn : config.markupReturn = .content ∨ config.markupReturn = .subset
  isTag_of_inProlog : config.inProlog = true → config.state.isTag
  dtd_state : config.mode = .dtd → config.state.ofDeclarations
  dtd_markupReturn : config.mode = .dtd → config.markupReturn = .subset
  dtd_inProlog : config.mode = .dtd → config.state.isTag → config.inProlog = true

namespace Config

variable {config next : Config} {kind : TokenKind} {taken : Text} {state : State}

theorem initial_sound (mode : Mode) : (initial mode).Sound := by
  cases mode <;> constructor <;> simp [initial, State.initial, State.ofDeclarations, State.isTag]

/-- Outside tags there is no prolog. -/
theorem Sound.inProlog_eq_false (h : config.Sound) (notTag : config.state.isTag = false) :
    config.inProlog = false := by
  cases prolog : config.inProlog with
  | false => rfl
  | true =>
    have isTag := h.isTag_of_inProlog prolog
    rw [notTag] at isTag
    cases isTag

/-- A state of element content is reached in XML documents only. -/
theorem Sound.mode_eq_xml (h : config.Sound) (content : config.state.ofDeclarations = false) :
    config.mode = .xml := by
  cases mode : config.mode with
  | xml => rfl
  | dtd =>
    have declarations := h.dtd_state mode
    rw [content] at declarations
    cases declarations

/-- A tag leads to element content or, if it is that of a prolog, to the subset. -/
theorem Sound.state_leaveTag (h : config.Sound) :
    config.leaveTag.state = .content ∨ config.leaveTag.state = .subset := by
  rw [Config.leaveTag]
  cases config.inProlog with
  | true => exact h.markupReturn
  | false => exact .inl rfl

/-- Going on in another state outside tags. -/
private theorem Sound.moveTo (h : config.Sound) (leaves : config.state.isTag = false)
    (enters : state.isTag = false)
    (dtd : config.mode = .dtd → config.state.ofDeclarations → state.ofDeclarations) :
    (config.moveTo state).Sound where
  markupReturn := h.markupReturn
  isTag_of_inProlog prolog := by
    have := h.inProlog_eq_false leaves
    simp only [Config.moveTo] at prolog
    rw [this] at prolog
    cases prolog
  dtd_state mode := dtd mode (h.dtd_state mode)
  dtd_markupReturn := h.dtd_markupReturn
  dtd_inProlog _ isTag := by
    simp only [Config.moveTo, enters] at isTag
    cases isTag

/-- Going on inside a tag, or entering one in an XML document. -/
private theorem Sound.inTag (h : config.Sound) (isTag : state.isTag)
    (stays : config.state.isTag ∨ config.mode = .xml) (spaceSeen : Bool) :
    Config.Sound { config with state := state, spaceSeen := spaceSeen } where
  markupReturn := h.markupReturn
  isTag_of_inProlog _ := isTag
  dtd_state _ := by
    revert isTag
    cases state <;> simp [State.isTag, State.ofDeclarations]
  dtd_markupReturn := h.dtd_markupReturn
  dtd_inProlog mode _ := by
    rcases stays with stays | xml
    · exact h.dtd_inProlog mode stays
    · have both := xml.symm.trans mode
      cases both

private theorem Sound.enterMarkup (h : config.Sound) (enters : state.isTag = false)
    (dtd : state.ofDeclarations = true)
    (starts : config.state = .content ∨ config.state = .subset) :
    (config.enterMarkup state).Sound := by
  have notTag : config.state.isTag = false := by
    rcases starts with eq | eq <;> simp [eq, State.isTag]
  have noProlog := h.inProlog_eq_false notTag
  constructor
  · simp only [Config.enterMarkup]
    split
    · exact .inr rfl
    · exact .inl rfl
  · simp [Config.enterMarkup, noProlog]
  · intro _
    exact dtd
  · intro mode
    rcases starts with eq | eq
    · have := h.dtd_state mode
      simp [eq, State.ofDeclarations] at this
    · simp [Config.enterMarkup, eq]
  · simp [Config.enterMarkup, enters]

/-- Behind a comment or an instruction, and behind the prolog. -/
private theorem Sound.return (h : config.Sound) :
    Config.Sound { config with state := config.markupReturn, inProlog := false } := by
  constructor
  · exact h.markupReturn
  · simp
  · intro mode
    simp [h.dtd_markupReturn mode, State.ofDeclarations]
  · exact h.dtd_markupReturn
  · intro mode
    simp [h.dtd_markupReturn mode, State.isTag]

private theorem Sound.leaveMarkup (h : config.Sound) (notTag : config.state.isTag = false) :
    config.leaveMarkup.Sound := by
  have eq : config.leaveMarkup =
      { config with state := config.markupReturn, inProlog := false } := by
    rw [Config.leaveMarkup, Config.moveTo, ← h.inProlog_eq_false notTag]
  rw [eq]
  exact h.return

private theorem Sound.leaveTag (h : config.Sound) (isTag : config.state.isTag) :
    config.leaveTag.Sound := by
  cases prolog : config.inProlog with
  | true =>
    have eq : config.leaveTag =
        { config with state := config.markupReturn, inProlog := false } := by
      simp [Config.leaveTag, prolog]
    rw [eq]
    exact h.return
  | false =>
    have xml : config.mode = .xml := by
      cases mode : config.mode with
      | xml => rfl
      | dtd =>
        have inProlog := h.dtd_inProlog mode isTag
        rw [prolog] at inProlog
        cases inProlog
    constructor
    · exact h.markupReturn
    · simp [Config.leaveTag]
    · simp [Config.leaveTag, xml]
    · simp [Config.leaveTag, xml]
    · simp [Config.leaveTag, xml]

/-- A change of state without a token keeps a configuration sound. -/
theorem Sound.rescans (h : config.Sound) (rescans : config.Rescans next) : next.Sound := by
  cases rescans with
  | noStartTagName eq =>
    exact h.inTag rfl (.inr (h.mode_eq_xml (by simp [eq, State.ofDeclarations]))) config.spaceSeen
  | noAssign eq => exact h.inTag rfl (.inl (by simp [eq, State.isTag])) config.spaceSeen
  | noAttributeValue eq => exact h.inTag rfl (.inl (by simp [eq, State.isTag])) false
  | tagLeft eq => exact h.leaveTag (by simp [eq, State.isTag])
  | noEndTagName eq | endTagLeft eq =>
    exact h.moveTo (by simp [eq, State.isTag]) rfl (by simp [eq, State.ofDeclarations])
  | noTarget eq => exact h.moveTo (by simp [eq, State.isTag]) rfl fun _ _ ↦ rfl
  | doctypeLeft eq =>
    rcases eq with ⟨slot, eq⟩ | eq
    · exact h.moveTo (by simp [eq, State.isTag]) rfl (by simp [eq, State.ofDeclarations])
    · exact h.moveTo (by simp [eq, State.isTag]) rfl (by simp [eq, State.ofDeclarations])
  | declLeft isDecl =>
    refine h.moveTo ?_ rfl fun _ _ ↦ rfl
    revert isDecl
    cases config.state <;> simp [State.isDecl, State.isTag]

/-- A token keeps a configuration sound. -/
theorem Sound.emits (h : config.Sound) (emits : config.Emits kind taken next) : next.Sound := by
  cases emits with
  | space | content | tagUnknown | endTagUnknown | comment | cdata | instructionData
  | unrecognized => exact h
  | tagSpace eq =>
    exact ⟨h.markupReturn, h.isTag_of_inProlog, h.dtd_state, h.dtd_markupReturn, h.dtd_inProlog⟩
  | commentOpen eq => exact h.enterMarkup rfl rfl eq
  | instructionOpen eq => exact h.enterMarkup rfl rfl eq
  | cdataOpen eq | doctypeOpen eq | endTagOpen eq | endTag eq | endTagNameUnknown eq
  | endTagClose eq | cdataClose eq | doctypePart eq =>
    exact h.moveTo (by simp [eq, State.isTag]) rfl (by simp [eq, State.ofDeclarations])
  | startTagOpen eq =>
    have moved : (config.moveTo .startTagName).Sound :=
      h.moveTo (by simp [eq, State.isTag]) rfl (by simp [eq, State.ofDeclarations])
    exact ⟨moved.markupReturn, moved.isTag_of_inProlog, moved.dtd_state, moved.dtd_markupReturn,
      moved.dtd_inProlog⟩
  | startTag eq | startTagUnknown eq =>
    exact h.inTag rfl (.inr (h.mode_eq_xml (by simp [eq, State.ofDeclarations]))) config.spaceSeen
  | prologClose eq | emptyTagClose eq | startTagClose eq =>
    exact h.leaveTag (by simp [eq, State.isTag])
  | attributeName eq => exact h.inTag rfl (.inl (by simp [eq, State.isTag])) false
  | assign eq => exact h.inTag rfl (.inl (by simp [eq, State.isTag])) config.spaceSeen
  | attributeValue eq => exact h.inTag rfl (.inl (by simp [eq, State.isTag])) false
  | commentClose eq | instructionClose eq => exact h.leaveMarkup (by simp [eq, State.isTag])
  | prologTarget eq =>
    exact ⟨h.markupReturn, fun _ ↦ rfl, fun _ ↦ rfl, h.dtd_markupReturn, fun _ _ ↦ rfl⟩
  | instructionTarget eq => exact h.moveTo (by simp [eq, State.isTag]) rfl fun _ _ ↦ rfl
  | subsetOpen eq =>
    have noProlog := h.inProlog_eq_false (by simp [eq, State.isTag])
    exact ⟨.inr rfl, by simp [noProlog], fun _ ↦ rfl, fun _ ↦ rfl, by simp [State.isTag]⟩
  | doctypeClose eq =>
    rcases eq with ⟨slot, eq⟩ | eq
    · exact h.moveTo (by simp [eq, State.isTag]) rfl (by simp [eq, State.ofDeclarations])
    · exact h.moveTo (by simp [eq, State.isTag]) rfl (by simp [eq, State.ofDeclarations])
  | subsetClose eq xml =>
    have noProlog := h.inProlog_eq_false (by simp [eq, State.isTag])
    exact ⟨.inl rfl, by simp [noProlog], by simp [xml], by simp [xml], by simp [xml]⟩
  | elementDeclOpen eq | attlistOpen eq | entityOpen eq | elementPart eq | attlistPart eq
  | entityPart eq => exact h.moveTo (by simp [eq, State.isTag]) rfl fun _ _ ↦ rfl
  | declClose isDecl =>
    refine h.moveTo ?_ rfl fun _ _ ↦ rfl
    revert isDecl
    cases config.state <;> simp [State.isDecl, State.isTag]

/-- Transitions do not change how the text is read. -/
theorem Rescans.mode_eq (rescans : config.Rescans next) : next.mode = config.mode := by
  cases rescans <;> rfl

theorem Emits.mode_eq (emits : config.Emits kind taken next) : next.mode = config.mode := by
  cases emits <;> rfl

end Config

end TolerantXml.Scanner
