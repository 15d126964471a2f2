import TolerantXml.Proofs.Scanner.Subset

/-!
# The markup protocol

What comes in front of a token, besides white space and text that has no place in a tag, is limited
by its kind: the parts of markup come in their order, markup that is not closed is left only in
front of `<`, and behind markup the scanner is where it was before it, in a subset or outside
(`TokenKind.MayFollow`). The kinds of the tokens passed tell in which states the scanner may be, and
the state tells what came last (`Config.Follows`). Every transition keeps that.
-/

namespace TolerantXml

/-! ### The protocol -/

namespace TokenKind

/-- Whether a token says nothing of the markup that it stands in. -/
def isFiller : TokenKind → Bool
  | .whitespace | .unknown => true
  | _ => false

/-- Whether a token is a part of an attribute. -/
def isAttributePart : TokenKind → Bool
  | .attributeName | .assign | .attributeValue => true
  | _ => false

/-- Whether a token may come between the opening of a tag and its end. -/
def isTagPart : TokenKind → Bool
  | .startTag => true
  | kind => kind.isAttributePart

/-- Whether a token is read in a start tag or in the prolog, behind their names. -/
def inTag : TokenKind → Bool
  | .attributeName | .startTagClose | .emptyTagClose => true
  | _ => false

/-- The kinds of which one comes directly in front of a token, where it has to be one of some. -/
def predecessors? : TokenKind → Option (List TokenKind)
  | .startTag => some [.startTagOpen]
  | .assign => some [.attributeName]
  | .attributeValue => some [.assign]
  | .endTag => some [.endTagOpen]
  | .endTagClose => some [.endTag, .endTagOpen]
  | .comment => some [.commentOpen]
  | .commentClose => some [.comment, .commentOpen]
  | .cdata => some [.cdataOpen]
  | .cdataClose => some [.cdata, .cdataOpen]
  | .prologTarget | .instructionTarget => some [.instructionOpen]
  | .instructionData => some [.instructionTarget, .instructionOpen]
  | .instructionClose => some [.instructionData, .instructionTarget, .instructionOpen]
  | _ => none

/-- The kinds that start something between constructs. -/
def openings (inSubset : Bool) : List TokenKind :=
  if inSubset then
    [.commentOpen, .instructionOpen, .elementDeclOpen, .attlistOpen, .entityOpen, .subsetClose,
      .unrecognized]
  else [.commentOpen, .instructionOpen, .cdataOpen, .doctypeOpen, .startTagOpen, .endTagOpen]

/-- The kinds that end a tag or go on with it. -/
def tagTail : List TokenKind := [.attributeName, .startTagClose, .emptyTagClose, .prologClose]

/-- The kinds of which one comes directly behind a token, unless the text ends there. -/
def successors? (inSubset : Bool) : TokenKind → Option (List TokenKind)
  | .startTagOpen => some (.startTag :: tagTail ++ openings inSubset)
  | .attributeName => some (.assign :: tagTail ++ openings inSubset)
  | .assign => some (.attributeValue :: tagTail ++ openings inSubset)
  | .startTag | .attributeValue | .prologTarget => some (tagTail ++ openings inSubset)
  | .endTagOpen => some (.endTag :: .endTagClose :: openings inSubset)
  | .endTag => some (.endTagClose :: openings inSubset)
  | .content => some (openings inSubset)
  | .commentOpen => some [.comment, .commentClose]
  | .comment => some [.commentClose]
  | .cdataOpen => some [.cdata, .cdataClose]
  | .cdata => some [.cdataClose]
  | .instructionOpen =>
    some [.prologTarget, .instructionTarget, .instructionData, .instructionClose]
  | .instructionTarget => some [.instructionData, .instructionClose]
  | .instructionData => some [.instructionClose]
  | .startTagClose | .emptyTagClose | .prologClose | .endTagClose | .commentClose | .cdataClose
  | .instructionClose | .doctypeClose | .subsetOpen | .declClose =>
    some (if inSubset then openings true else .content :: openings false)
  | _ => none

/-- Whether a token is read in a subset only (`true`), or outside subsets only (`false`). -/
def inSubset? : TokenKind → Option Bool
  | .elementDeclOpen | .attlistOpen | .entityOpen | .subsetClose => some true
  | .content | .startTagOpen | .endTagOpen | .cdataOpen | .doctypeOpen => some false
  | _ => none

/-- Whether some kinds, the nearest first, lead into a subset. -/
def leadIntoSubset (mode : Mode) : List TokenKind → Bool
  | [] => mode == .dtd
  | .subsetOpen :: _ => true
  | .subsetClose :: _ => false
  | _ :: passed => leadIntoSubset mode passed

/-- Whether a token may come behind tokens of some kinds, the nearest first, among which there is
no filler. -/
structure MayFollow (mode : Mode) (passed : List TokenKind) (kind : TokenKind) : Prop where
  before : ∀ kinds, kind.predecessors? = some kinds → ∃ last ∈ passed.head?, last ∈ kinds
  behind : ∀ last ∈ passed.head?, ∀ kinds,
    last.successors? (leadIntoSubset mode passed) = some kinds → kind ∈ kinds ∨ kind = .eos
  inTag : kind.inTag = true →
    passed.find? (!·.isTagPart) = some .startTagOpen ∨
      passed.find? (!·.isTagPart) = some .prologTarget
  inProlog : kind = .prologClose → passed.find? (!·.isAttributePart) = some .prologTarget
  inSubset : ∀ inside, kind.inSubset? = some inside → leadIntoSubset mode passed = inside

/-! ### What is known behind a token -/

/-- The states between a token and the next one that is no filler. -/
def states? : TokenKind → Option (List Scanner.State)
  | .startTagOpen => some [.startTagName, .tag, .content, .subset]
  | .attributeName => some [.assign, .tag, .content, .subset]
  | .assign => some [.attributeValue, .tag, .content, .subset]
  | .startTag | .attributeValue | .prologTarget => some [.tag, .content, .subset]
  | .endTagOpen => some [.endTagName, .endTag, .content]
  | .endTag => some [.endTag, .content]
  | .commentOpen | .comment => some [.comment]
  | .cdataOpen | .cdata => some [.cdata]
  | .instructionOpen => some [.instructionTarget, .instructionData]
  | .instructionTarget | .instructionData => some [.instructionData]
  | .content => some [.content]
  | .startTagClose | .emptyTagClose | .prologClose | .endTagClose | .commentClose | .cdataClose
  | .instructionClose | .doctypeClose | .subsetOpen | .declClose => some [.content, .subset]
  | _ => none

/-- The fixed text that ends what a token is the text of. -/
def closing? : TokenKind → Option Text
  | .comment => some Delimiter.commentClose
  | .cdata => some Delimiter.cdataClose
  | .instructionData => some Delimiter.instructionClose
  | _ => none

/-- Whether content comes behind a token only where `<` is ahead. -/
def endsAtMarkup : TokenKind → Bool
  | .startTagOpen | .startTag | .attributeName | .assign | .attributeValue | .prologTarget
  | .endTagOpen | .endTag | .content => true
  | _ => false

section Passed

variable {mode : Mode} {passed : List TokenKind} {kind : TokenKind}

theorem leadIntoSubset_cons (mode : Mode) (kind : TokenKind) (passed : List TokenKind) :
    leadIntoSubset mode (kind :: passed) = true ↔
      kind = .subsetOpen ∨ kind ≠ .subsetClose ∧ leadIntoSubset mode passed = true := by
  cases kind <;> simp [leadIntoSubset]

private theorem isTagPart_of_isAttributePart (isPart : kind.isAttributePart = true) :
    kind.isTagPart = true := by
  revert isPart
  cases kind <;> simp [isTagPart, isAttributePart]

/-- Parts of attributes are parts of a tag. -/
theorem find?_isTagPart (prolog : passed.find? (!·.isAttributePart) = some .prologTarget) :
    passed.find? (!·.isTagPart) = some .prologTarget := by
  obtain ⟨-, inner, outer, rfl, parts⟩ := List.find?_eq_some_iff_append.1 prolog
  refine List.find?_eq_some_iff_append.2 ⟨rfl, inner, outer, rfl, fun part mem ↦ ?_⟩
  have isPart : part.isAttributePart = true := by simpa using parts part mem
  simp [isTagPart_of_isAttributePart isPart]

theorem mayFollow_eos (mode : Mode) (passed : List TokenKind) : MayFollow mode passed .eos :=
  ⟨nofun, fun _ _ _ _ ↦ .inr rfl, nofun, nofun, nofun⟩

end Passed

end TokenKind

namespace Scanner

/-- The kinds of which one came last in a state, besides fillers. -/
def State.openers? : State → Option (List TokenKind)
  | .startTagName => some [.startTagOpen]
  | .assign => some [.attributeName]
  | .attributeValue => some [.assign]
  | .endTagName => some [.endTagOpen]
  | .endTag => some [.endTagOpen, .endTag]
  | .comment => some [.commentOpen, .comment]
  | .cdata => some [.cdataOpen, .cdata]
  | .instructionTarget => some [.instructionOpen]
  | .instructionData => some [.instructionOpen, .instructionTarget, .instructionData]
  | _ => none

/-- The kinds that are read in a state outside declarations, besides fillers. -/
def State.kinds? : State → Option (List TokenKind)
  | .content => some (.content :: TokenKind.openings false)
  | .startTagName => some [.startTag]
  | .tag => some TokenKind.tagTail
  | .assign => some [.assign]
  | .attributeValue => some [.attributeValue]
  | .comment => some [.comment, .commentClose]
  | .cdata => some [.cdata, .cdataClose]
  | .instructionTarget => some [.prologTarget, .instructionTarget]
  | .instructionData => some [.instructionData, .instructionClose]
  | .endTagName => some [.endTag]
  | .endTag => some [.endTagClose]
  | .subset => some (TokenKind.openings true)
  | _ => none

/-! ### Kinds and states -/

/-- What may be read in a state in which the scanner may be behind a token may come behind that
token, but for content in front of `<`. -/
theorem State.exists_kinds {last : TokenKind} {states : List State}
    {kinds : List TokenKind} {inside : Bool} {state : State} (leads : last.states? = some states)
    (known : last.successors? inside = some kinds) (closing : last.closing? = none)
    (mem : state ∈ states) (content : state = .content → inside = false)
    (subset : state = .subset → inside = true) :
    ∃ kinds', state.kinds? = some kinds' ∧
      ∀ kind ∈ kinds', kind ∈ kinds ∨ kind = .content ∧ last.endsAtMarkup = true := by
  have table : ∀ state ∈ states, (state = .content → inside = false) →
      (state = .subset → inside = true) → ∃ kinds' ∈ state.kinds?,
        ∀ kind ∈ kinds', kind ∈ kinds ∨ kind = .content ∧ last.endsAtMarkup = true := by
    revert leads known closing
    cases last <;> cases inside <;> rintro ⟨⟩ ⟨⟩ ⟨⟩ <;> decide
  exact table state mem content subset

/-- The states for which a state is left without a token. -/
def State.fallbacks : State → List State
  | .startTagName | .assign | .attributeValue => [.tag]
  | .tag => [.content, .subset]
  | .endTagName => [.endTag]
  | .instructionTarget => [.instructionData]
  | .endTag | .doctype _ | .afterSubset => [.content]
  | .elementDecl _ | .attlistDecl _ | .entityDecl _ => [.subset]
  | .content | .comment | .cdata | .instructionData | .subset => []

/-- A state that is left without a token is left for one that may come behind the same token. -/
private theorem State.mem_states_of_mem_fallbacks {last : TokenKind} {states : List State}
    {state fallback : State} (known : last.states? = some states) (mem : state ∈ states)
    (leaves : fallback ∈ state.fallbacks) : fallback ∈ states := by
  have closed : ∀ state ∈ states, ∀ fallback ∈ state.fallbacks, fallback ∈ states := by
    revert known
    cases last <;> rintro ⟨⟩ <;> decide
  exact closed state mem fallback leaves

namespace Config

variable {config next : Config} {kind last : TokenKind} {taken : Text} {mode : Mode}
  {passed kinds : List TokenKind} {states : List State}

/-! ### One step -/

/-- What is known of a configuration behind tokens of some kinds. -/
structure Follows (config : Config) (mode : Mode) (passed : List TokenKind) : Prop where
  sound : config.Sound
  withinSubset_iff : config.WithinSubset ↔ TokenKind.leadIntoSubset mode passed = true
  opened : ∀ kinds, config.state.openers? = some kinds → ∃ last ∈ passed.head?, last ∈ kinds
  leads : ∀ last ∈ passed.head?, ∀ states, last.states? = some states → config.state ∈ states
  inTag : config.state.isTag = true → config.inProlog = false →
    passed.find? (!·.isTagPart) = some .startTagOpen
  inProlog : config.state.isTag = true → config.inProlog = true →
    passed.find? (!·.isAttributePart) = some .prologTarget

/-- What is read in a state is of one of its kinds. -/
theorem Emits.mem_kinds (emits : config.Emits kind taken next)
    (known : config.state.kinds? = some kinds) (notFiller : kind.isFiller = false) :
    kind ∈ kinds := by
  cases emits with
  | space | tagSpace | startTagUnknown | tagUnknown | endTagNameUnknown | endTagUnknown =>
    cases notFiller
  | commentOpen eq | instructionOpen eq =>
    rcases eq with eq | eq <;> rw [eq] at known <;> cases known <;> decide
  | doctypeClose eq =>
    rcases eq with ⟨slot, eq⟩ | eq <;> rw [eq] at known <;> cases known
  | declClose isDecl =>
    revert isDecl known
    cases config.state <;> simp [State.isDecl, State.kinds?]
  | unrecognized takes =>
    revert takes known
    cases config.state <;> simp +contextual [State.takesUnrecognized, State.kinds?]
    rintro rfl
    decide
  | doctypePart eq | elementPart eq | attlistPart eq | entityPart eq | subsetOpen eq =>
    rw [eq] at known
    cases known
  | content eq | cdataOpen eq | doctypeOpen eq | endTagOpen eq | startTagOpen eq | startTag eq
  | prologClose eq | attributeName eq | emptyTagClose eq | startTagClose eq | assign eq
  | attributeValue eq | endTag eq | endTagClose eq | comment eq | commentClose eq | cdata eq
  | cdataClose eq | prologTarget eq | instructionTarget eq | instructionData eq
  | instructionClose eq | subsetClose eq | elementDeclOpen eq | attlistOpen eq | entityOpen eq =>
    rw [eq] at known
    cases known
    decide

private theorem Rescans.mem_fallbacks (rescans : config.Rescans next) (sound : config.Sound) :
    next.state ∈ config.state.fallbacks := by
  cases rescans with
  | tagLeft eq => rcases sound.state_leaveTag with left | left <;> rw [left, eq] <;> decide
  | noStartTagName eq | noAssign eq | noAttributeValue eq | noEndTagName eq | endTagLeft eq
  | noTarget eq =>
    rw [eq]
    exact List.mem_singleton.2 rfl
  | doctypeLeft eq => rcases eq with ⟨slot, eq⟩ | eq <;> rw [eq] <;> exact List.mem_singleton.2 rfl
  | declLeft isDecl =>
    revert isDecl
    cases config.state <;> simp [State.isDecl, State.fallbacks, moveTo]

/-- Where a state is told by what came last, a token that leads there is one of that. -/
private theorem Emits.mem_openers (emits : config.Emits kind taken next) (sound : config.Sound)
    (notFiller : kind.isFiller = false) (known : next.state.openers? = some kinds) :
    kind ∈ kinds := by
  cases emits with
  | space | tagSpace | startTagUnknown | tagUnknown | endTagNameUnknown | endTagUnknown =>
    cases notFiller
  | content eq | comment eq | cdata eq | instructionData eq =>
    rw [eq] at known
    cases known <;> decide
  | prologClose | emptyTagClose | startTagClose =>
    rcases sound.state_leaveTag with left | left <;> rw [left] at known <;> cases known
  | commentClose | instructionClose =>
    rcases sound.markupReturn with returns | returns <;>
      simp [leaveMarkup, moveTo, returns, State.openers?] at known
  | unrecognized takes =>
    revert takes known
    cases config.state <;> simp [State.takesUnrecognized, State.openers?]
  | _ => cases known <;> decide

/-- Behind a token the scanner is in one of the states that may come behind it. -/
private theorem Emits.mem_states (emits : config.Emits kind taken next) (sound : config.Sound)
    (known : kind.states? = some states) : next.state ∈ states := by
  cases emits with
  | content eq | comment eq | cdata eq | instructionData eq =>
    rw [eq]
    cases known
    decide
  | prologClose | emptyTagClose | startTagClose =>
    cases known
    rcases sound.state_leaveTag with left | left <;> rw [left] <;> decide
  | commentClose | instructionClose =>
    cases known
    rcases sound.markupReturn with returns | returns <;> simp [leaveMarkup, moveTo, returns]
  | subsetOpen | declClose =>
    cases known
    exact List.mem_cons_of_mem _ List.mem_cons_self
  | doctypePart _ fills | elementPart _ fills | attlistPart _ fills | entityPart _ fills =>
    cases fills <;> cases known
  | _ => cases known <;> exact List.mem_cons_self

/-- A tag goes on behind its name, behind a part of an attribute, or behind the target of the
prolog. -/
private theorem Emits.cases_of_isTag (emits : config.Emits kind taken next) (sound : config.Sound)
    (notFiller : kind.isFiller = false) (isTag : next.state.isTag = true) :
    kind = .startTag ∧ config.state = .startTagName ∨
      (kind.isAttributePart = true ∧ config.state.isTag = true ∧
        next.inProlog = config.inProlog) ∨
      kind = .prologTarget ∧ next.inProlog = true := by
  cases emits with
  | startTag eq => exact .inl ⟨rfl, eq⟩
  | attributeName eq | assign eq | attributeValue eq =>
    exact .inr (.inl ⟨rfl, by rw [eq]; rfl, rfl⟩)
  | prologTarget => exact .inr (.inr ⟨rfl, rfl⟩)
  | space | tagSpace | startTagUnknown | tagUnknown | endTagNameUnknown | endTagUnknown =>
    cases notFiller
  | content eq | comment eq | cdata eq | instructionData eq =>
    rw [eq] at isTag
    cases isTag
  | prologClose | emptyTagClose | startTagClose =>
    rcases sound.state_leaveTag with left | left <;> rw [left] at isTag <;> cases isTag
  | commentClose | instructionClose =>
    rcases sound.markupReturn with returns | returns <;>
      simp [leaveMarkup, moveTo, returns, State.isTag] at isTag
  | unrecognized takes =>
    revert takes isTag
    cases config.state <;> simp [State.takesUnrecognized, State.isTag]
  | _ => cases isTag

/-- A filler is skipped, or a part of markup that is missing is passed over with it. -/
private theorem Emits.filler_cases (emits : config.Emits kind taken next)
    (isFiller : kind.isFiller = true) :
    (∃ spaceSeen, next = { config with spaceSeen := spaceSeen }) ∨ config.Rescans next := by
  cases emits with
  | space | tagUnknown | endTagUnknown => exact .inl ⟨config.spaceSeen, rfl⟩
  | tagSpace => exact .inl ⟨true, rfl⟩
  | startTagUnknown eq => exact .inr (.noStartTagName eq)
  | endTagNameUnknown eq => exact .inr (.noEndTagName eq)
  | doctypePart _ fills | elementPart _ fills | attlistPart _ fills | entityPart _ fills =>
    cases fills <;> cases isFiller
  | _ => cases isFiller

namespace Follows

variable (h : config.Follows mode passed)
include h

theorem rescans (rescans : config.Rescans next) : next.Follows mode passed where
  sound := h.sound.rescans rescans
  withinSubset_iff := (rescans.withinSubset_iff h.sound).trans h.withinSubset_iff
  opened kinds known := by
    cases rescans with
    | noEndTagName eq | noTarget eq =>
      obtain ⟨last, isLast, mem⟩ := h.opened _ (by rw [eq]; rfl)
      cases known
      exact ⟨last, isLast, List.mem_append_left _ mem⟩
    | tagLeft =>
      rcases h.sound.state_leaveTag with left | left <;> rw [left] at known <;> cases known
    | _ => cases known
  leads last isLast states known :=
    State.mem_states_of_mem_fallbacks known (h.leads last isLast states known)
      (rescans.mem_fallbacks h.sound)
  inTag isTag noProlog := by
    cases rescans with
    | noStartTagName eq =>
      obtain ⟨last, isLast, mem⟩ := h.opened _ (by rw [eq]; rfl)
      obtain ⟨outer, rfl⟩ := List.head?_eq_some_iff.1 isLast
      rw [List.mem_singleton.1 mem]
      rfl
    | noAssign eq | noAttributeValue eq => exact h.inTag (by rw [eq]; rfl) noProlog
    | tagLeft =>
      rcases h.sound.state_leaveTag with left | left <;> rw [left] at isTag <;> cases isTag
    | _ => cases isTag
  inProlog isTag prolog := by
    cases rescans with
    | noStartTagName eq =>
      have noProlog := h.sound.inProlog_eq_false (by rw [eq]; rfl)
      cases noProlog.symm.trans prolog
    | noAssign eq | noAttributeValue eq => exact h.inProlog (by rw [eq]; rfl) prolog
    | tagLeft =>
      rcases h.sound.state_leaveTag with left | left <;> rw [left] at isTag <;> cases isTag
    | _ => cases isTag

theorem filler (emits : config.Emits kind taken next) (isFiller : kind.isFiller = true) :
    next.Follows mode passed := by
  rcases emits.filler_cases isFiller with ⟨spaceSeen, rfl⟩ | rescans
  · exact ⟨⟨h.sound.markupReturn, h.sound.isTag_of_inProlog, h.sound.dtd_state,
      h.sound.dtd_markupReturn, h.sound.dtd_inProlog⟩, h.withinSubset_iff, h.opened, h.leads,
      h.inTag, h.inProlog⟩
  · exact h.rescans rescans

/-- Behind a token that is no filler, what is known is known from it. -/
theorem emits (emits : config.Emits kind taken next) (notFiller : kind.isFiller = false) :
    next.Follows mode (kind :: passed) where
  sound := h.sound.emits emits
  withinSubset_iff := by
    rw [emits.withinSubset_iff h.sound, TokenKind.leadIntoSubset_cons, h.withinSubset_iff]
  opened kinds known := ⟨kind, rfl, emits.mem_openers h.sound notFiller known⟩
  leads last isLast states known := by
    obtain rfl : kind = last := Option.some.inj isLast
    exact emits.mem_states h.sound known
  inTag isTag noProlog := by
    rcases emits.cases_of_isTag h.sound notFiller isTag with
      ⟨rfl, state⟩ | ⟨isPart, wasTag, same⟩ | ⟨rfl, prolog⟩
    · obtain ⟨last, isLast, mem⟩ := h.opened _ (by rw [state]; rfl)
      obtain ⟨outer, rfl⟩ := List.head?_eq_some_iff.1 isLast
      rw [List.mem_singleton.1 mem]
      rfl
    · rw [List.find?_cons_of_neg, h.inTag wasTag (same ▸ noProlog)]
      simp [TokenKind.isTagPart_of_isAttributePart isPart]
    · cases noProlog.symm.trans prolog
  inProlog isTag prolog := by
    rcases emits.cases_of_isTag h.sound notFiller isTag with
      ⟨rfl, state⟩ | ⟨isPart, wasTag, same⟩ | ⟨rfl, -⟩
    · have noProlog := h.sound.inProlog_eq_false (by rw [state]; rfl)
      cases emits with
      | startTag => cases noProlog.symm.trans prolog
      | doctypePart _ fills | elementPart _ fills | attlistPart _ fills | entityPart _ fills =>
        cases fills
    · rw [List.find?_cons_of_neg, h.inProlog wasTag (same ▸ prolog)]
      simp [isPart]
    · exact List.find?_cons_of_pos rfl

end Follows

end Config

end Scanner

end TolerantXml
