import TolerantXml.Proofs.Reading.BrokenOff
import TolerantXml.Proofs.Scanner.Subset
import TolerantXml.Proofs.Tree.Innermost

/-!
# Which nodes stand in which

Character data, comments, declarations and instructions have no children, and a document type has
only comments, instructions and declarations, unless the prolog or the document type is broken off:
then the builder goes on inside it, and whatever comes stands in it (`children_parse_kinds`). The
invariant is on the open nodes (`Reading.KindsNest`): an instruction is the current node as long as
it is read, and the prolog or a document type that is open any longer lingers.
-/

namespace TolerantXml

/-- Whether a frame is that of something that may stand between declarations. -/
def Frame.isItem : Frame → Bool
  | .comment | .instruction | .elementDecl | .attlistDecl | .entityDecl => true
  | _ => false

/-- What may stand in a node: any node but the root in the root and in an element, items in a
document type, and nothing in other nodes. Only the prolog and a document type may have any
children where they are broken off. -/
def Document.Admits (doc : Document) (broken : Unfinished → Nat → Prop) (id child : Nat) : Prop :=
  doc.frame child ≠ .document ∧
    match doc.frame id with
    | .document | .element => True
    | .instruction => doc.isProlog id = true ∧ broken .prolog id
    | .doctype => (doc.frame child).isItem = true ∨ broken .doctype id
    | .text | .comment | .cdata | .elementDecl | .attlistDecl | .entityDecl => False

/-- What is admitted stays so in a document where the nodes have the same frames. -/
theorem Document.Admits.mono {doc doc' : Document} {broken broken' : Unfinished → Nat → Prop}
    {id child : Nat} (admits : doc.Admits broken id child) (frame : doc'.frame id = doc.frame id)
    (frame_child : doc'.frame child = doc.frame child)
    (isProlog : doc.isProlog id = true → doc'.isProlog id = true)
    (le : ∀ part, broken part id → broken' part id) : doc'.Admits broken' id child := by
  rw [Admits, frame, frame_child]
  refine ⟨admits.1, ?_⟩
  have stands := admits.2
  cases frame : doc.frame id with
  | instruction =>
    rw [frame] at stands
    exact stands.imp isProlog (le .prolog)
  | doctype =>
    rw [frame] at stands
    exact stands.imp_right (le .doctype)
  | _ =>
    rw [frame] at stands
    exact stands

private theorem TokenKind.opens_ne_document (kind : TokenKind) : kind.opens ≠ some .document := by
  cases kind <;> simp [opens]

private theorem TokenKind.eq_of_opens_doctype {kind : TokenKind} (h : kind.opens = some .doctype) :
    kind = .doctypeOpen := by
  cases kind <;> first | rfl | cases h

/-- A document type ends where its subset starts or where it closes. -/
private theorem Unfinished.eq_of_ends_doctype {kind : TokenKind}
    (h : Unfinished.doctype.ends kind = true) : kind = .subsetOpen ∨ kind = .doctypeClose := by
  cases kind <;> simp [Unfinished.ends] at h ⊢

namespace Scanner

/-- Whether an instruction that is not the prolog is read. -/
def State.isInstruction : State → Bool
  | .instructionTarget | .instructionData => true
  | _ => false

namespace Config

variable {config next : Config} {kind : TokenKind} {taken : Text}

/-- An instruction is read until it closes, or turns out to be the prolog. -/
private theorem Emits.cases_of_isInstruction (emits : config.Emits kind taken next)
    (h : config.state.isInstruction = true) :
    kind = .prologTarget ∨ kind = .instructionClose ∨
      next.state.isInstruction = true ∧
        (kind = .instructionTarget ∨ kind = .instructionData ∨ kind = .whitespace) := by
  cases emits with
  | prologTarget => exact .inl rfl
  | instructionClose => exact .inr (.inl rfl)
  | instructionTarget => exact .inr (.inr ⟨rfl, .inl rfl⟩)
  | instructionData => exact .inr (.inr ⟨h, .inr (.inl rfl)⟩)
  | space => exact .inr (.inr ⟨h, .inr (.inr rfl)⟩)
  | tagSpace eq => rcases eq with eq | eq <;> simp [eq, State.isInstruction] at h
  | commentOpen eq | instructionOpen eq =>
    rcases eq with eq | eq <;> simp [eq, State.isInstruction] at h
  | doctypeClose eq =>
    rcases eq with ⟨slot, eq⟩ | eq <;> simp [eq, State.isInstruction] at h
  | declClose isDecl =>
    revert h isDecl
    cases config.state <;> simp [State.isDecl, State.isInstruction]
  | unrecognized takes =>
    revert h takes
    cases config.state <;> simp [State.takesUnrecognized, State.isInstruction]
  | content eq | cdataOpen eq | doctypeOpen eq | endTagOpen eq | startTagOpen eq | startTag eq
  | startTagUnknown eq | prologClose eq | attributeName eq | emptyTagClose eq | startTagClose eq
  | tagUnknown eq | assign eq | attributeValue eq | endTag eq | endTagNameUnknown eq
  | endTagClose eq | endTagUnknown eq | comment eq | commentClose eq | cdata eq | cdataClose eq
  | subsetOpen eq | doctypePart eq | subsetClose eq | elementDeclOpen eq | attlistOpen eq
  | entityOpen eq | elementPart eq | attlistPart eq | entityPart eq =>
    simp [eq, State.isInstruction] at h

/-- Where something is opened, no instruction is read. -/
private theorem Emits.isInstruction_eq_false_of_opens (emits : config.Emits kind taken next)
    (opens : kind.opens ≠ none) : config.state.isInstruction = false := by
  rw [Bool.eq_false_iff]
  intro isInstruction
  rcases emits.cases_of_isInstruction isInstruction with rfl | rfl | ⟨-, rfl | rfl | rfl⟩
  all_goals exact opens rfl

/-- An instruction is read from where it is opened. -/
private theorem Emits.cases_of_isInstruction_next (emits : config.Emits kind taken next)
    (sound : config.Sound) (h : next.state.isInstruction = true) :
    kind = .instructionOpen ∨ kind = .instructionTarget ∨
      config.state.isInstruction = true ∧ (kind = .instructionData ∨ kind = .whitespace) := by
  cases emits with
  | instructionOpen => exact .inl rfl
  | instructionTarget => exact .inr (.inl rfl)
  | instructionData => exact .inr (.inr ⟨h, .inl rfl⟩)
  | space | tagSpace => exact .inr (.inr ⟨h, .inr rfl⟩)
  | commentClose | instructionClose =>
    rcases sound.markupReturn with eq | eq <;>
      simp [leaveMarkup, moveTo, eq, State.isInstruction] at h
  | prologClose | emptyTagClose | startTagClose =>
    rcases sound.state_leaveTag with eq | eq <;> simp [eq, State.isInstruction] at h
  | content eq | tagUnknown eq | endTagUnknown eq | comment eq | cdata eq =>
    simp [eq, State.isInstruction] at h
  | unrecognized takes =>
    revert h takes
    cases config.state <;> simp [State.takesUnrecognized, State.isInstruction]
  | _ => simp [moveTo, enterMarkup, State.isInstruction] at h

/-- Where an instruction is opened, it is read. -/
private theorem Emits.isInstruction_of_opens (emits : config.Emits kind taken next)
    (opens : kind.opens = some .instruction) : next.state.isInstruction = true := by
  cases emits with
  | instructionOpen => rfl
  | doctypePart _ fills | elementPart _ fills | attlistPart _ fills | entityPart _ fills =>
    cases fills <;> cases opens
  | _ => cases opens

/-- Whether an instruction is read does not change without a token. -/
private theorem Rescans.isInstruction_eq (rescans : config.Rescans next) (sound : config.Sound) :
    next.state.isInstruction = config.state.isInstruction := by
  cases rescans with
  | tagLeft eq => rcases sound.state_leaveTag with left | left <;> rw [left, eq] <;> rfl
  | doctypeLeft eq => rcases eq with ⟨slot, eq⟩ | eq <;> rw [eq] <;> rfl
  | declLeft isDecl =>
    revert isDecl
    cases config.state <;> simp [State.isDecl, State.isInstruction, moveTo]
  | noStartTagName eq | noAssign eq | noAttributeValue eq | noEndTagName eq | endTagLeft eq
  | noTarget eq =>
    rw [eq]
    rfl

end Config

end Scanner

section Spines

variable {frame : Frame} {outer : List Frame} {state : Scanner.State}

private theorem InContent.holdsContent (h : InContent (frame :: outer)) :
    frame.holdsContent = true :=
  h frame List.mem_cons_self

private theorem InSubset.holdsContent (h : InSubset (frame :: outer)) :
    frame.holdsContent = true := by
  cases h <;> rfl

private theorem Returns.holdsContent (h : Returns state (frame :: outer)) :
    frame.holdsContent = true := by
  cases state with
  | content => exact InContent.holdsContent h
  | subset => exact InSubset.holdsContent h
  | _ => exact h.elim

private theorem Inside.around {around : List Frame → Prop}
    (h : Inside frame around (frame :: outer)) : around outer := by
  obtain ⟨_, same, around⟩ := h
  rw [(List.cons.inj same).2]
  exact around

end Spines

/-- What is opened stands in a node that may hold content, and if it may not stand in a subset, the
scanner is in element content. -/
theorem Scanner.Config.Emits.holdsContent_of_opens {config next : Scanner.Config}
    {kind : TokenKind} {taken : Text} {child parent : Frame} {spine outer : List Frame}
    (emits : config.Emits kind taken next) (opens : kind.opens = some child)
    (fits : next.Fits spine)
    (split : spine = child :: parent :: outer ∨ kind = .content ∧ spine = parent :: outer) :
    parent.holdsContent = true ∧
      (child.isItem = true ∨ config.state = .content ∨ config.state = .endTagName) := by
  cases emits with
  | content h =>
    cases opens
    simp only [Scanner.Config.Fits, h] at fits
    rcases split with rfl | ⟨-, rfl⟩
    · cases fits.holdsContent
    · exact ⟨fits.holdsContent, .inr (.inl h)⟩
  | startTagOpen h | cdataOpen h | doctypeOpen h =>
    cases opens
    obtain rfl := split.resolve_right fun isContent ↦ by cases isContent.1
    exact ⟨fits.around.holdsContent, .inr (.inl h)⟩
  | commentOpen h | instructionOpen h =>
    cases opens
    obtain rfl := split.resolve_right fun isContent ↦ by cases isContent.1
    exact ⟨fits.around.holdsContent, .inl rfl⟩
  | elementDeclOpen h | attlistOpen h | entityOpen h =>
    cases opens
    obtain rfl := split.resolve_right fun isContent ↦ by cases isContent.1
    exact ⟨fits.around.holdsContent, .inl rfl⟩
  | endTag h =>
    obtain rfl := split.resolve_right fun isContent ↦ by cases isContent.1
    exact ⟨fits parent (by simp), .inr (.inr h)⟩
  | doctypePart _ fills | elementPart _ fills | attlistPart _ fills | entityPart _ fills =>
    cases fills <;> cases opens
  | _ => cases opens

namespace Builder

variable {b : Builder} {token : Token} {offset : Nat}

/-! ### Leaving instructions and document types -/

/-- The end of an instruction leaves it. -/
private theorem not_mem_path_of_instruction (linked : b.Linked)
    (isInstruction : b.doc.frame b.current = .instruction)
    (ends : token.kind = .instructionClose ∨ Unfinished.prolog.ends token.kind = true) :
    b.current ∉ (b.apply token).doc.path (b.apply token).current := by
  have notRoot : b.current ≠ Document.root :=
    linked.doc.ne_root_of_frame (by rw [isInstruction]; decide)
  have holds : b.currentNode.kind.instruction?.isSome = true := by
    rw [NodeKind.instruction?_isSome_eq, decide_eq_true_eq]
    exact isInstruction
  cases kind : token.kind with
  | prologClose | instructionClose =>
    simp only [apply, kind]
    exact not_mem_path_closeIf linked holds notRoot token.stop
  | emptyTagClose =>
    have closes : token.kind.Closes := by
      rw [kind]
      exact .emptyTag
    exact not_mem_path_of_left linked ((closesTag_apply linked closes).path_eq notRoot)
  | _ => simp [kind, Unfinished.ends] at ends

/-- A builder in a document type is there already. -/
private theorem returnToDoctype_of_current (isDoctype : b.doc.frame b.current = .doctype)
    (offset : Nat) : b.returnToDoctype offset = b := by
  have path : b.doc.path b.current = [] ++ b.current :: b.doc.ancestors b.current := rfl
  rw [returnToDoctype_eq path isDoctype (List.forall_mem_nil _)]
  rfl

/-- The end of a document type leaves it. -/
private theorem not_mem_path_of_doctype (linked : b.Linked)
    (isDoctype : b.doc.frame b.current = .doctype) (ends : token.kind = .doctypeClose) :
    b.current ∉ (b.apply token).doc.path (b.apply token).current := by
  have notRoot : b.current ≠ Document.root :=
    linked.doc.ne_root_of_frame (by rw [isDoctype]; decide)
  have holds : b.currentNode.kind.isDoctype = true := by
    rw [NodeKind.isDoctype_eq, decide_eq_true_eq]
    exact isDoctype
  simp only [apply, ends, closeDoctype, returnToDoctype_of_current isDoctype]
  exact not_mem_path_closeIf linked holds notRoot token.span.stop

/-! ### Inside instructions -/

private theorem isProlog_setTarget (linked : b.Linked) (token : Token) (isProlog : Bool) :
    (b.setTarget token isProlog).doc.isProlog b.current =
      (isProlog && decide (b.doc.frame b.current = .instruction)) := by
  rw [Document.isProlog, setTarget, modifyKind, Document.node_modify _ linked.current_lt,
    if_pos rfl, Document.frame, Node.modifyKind]
  cases (b.doc.node b.current).kind <;> simp [NodeKind.modifyInstruction, NodeKind.isProlog,
    NodeKind.instruction?, NodeKind.frame]

private theorem isProlog_openInstruction (linked : b.Linked) (start : Nat) :
    (b.openInstruction start).doc.isProlog (b.openInstruction start).current = false := by
  have left := linked.leaveDeclaration start
  rw [openInstruction, openToEnd, openNode, Document.isProlog,
    Document.node_addChild _ left.current_lt, if_pos rfl]
  rfl

end Builder

namespace Reading

variable {b : Builder} {passed : List Token} {r : Reading} {token : Token}
  {next : Scanner.Config} {id child : Nat}

/-- What holds of the nodes of a reading that a builder started, behind some tokens. -/
structure KindsNest (b : Builder) (passed : List Token) (r : Reading) : Prop where
  inStep : r.InStep
  builder : r.builder = b.applyAll passed
  admits : ∀ id, ∀ child ∈ r.builder.doc.children id,
    r.builder.doc.Admits (b.breaksOff · passed · = true) id child
  -- So a target never takes from the prolog what it is.
  noProlog : r.scanner.config.state.isInstruction = true →
    r.builder.doc.isProlog r.builder.current = false
  instruction : ∀ id ∈ r.builder.doc.path r.builder.current,
    r.builder.doc.frame id = .instruction →
    id = r.builder.current ∧ r.scanner.config.state.isInstruction = true ∨
      r.builder.doc.isProlog id = true ∧ b.Lingers .prolog passed id
  -- The end of a subset returns to the innermost document type, which has to be the one it is in.
  doctype : ∀ id ∈ r.builder.doc.path r.builder.current, r.builder.doc.frame id = .doctype →
    b.Lingers .doctype passed id ∨
      r.scanner.config.WithinSubset ∧ r.builder.InnermostDoctype id

namespace KindsNest

private theorem rescans (h : KindsNest b passed r) (rescans : r.scanner.config.Rescans next) :
    KindsNest b passed ⟨⟨next, r.scanner.cursor⟩, r.builder⟩ where
  inStep := h.inStep.rescans rescans
  builder := h.builder
  admits := h.admits
  noProlog := by
    rw [rescans.isInstruction_eq h.inStep.sound]
    exact h.noProlog
  instruction := by
    rw [rescans.isInstruction_eq h.inStep.sound]
    exact h.instruction
  doctype id mem isDoctype :=
    (h.doctype id mem isDoctype).imp_right fun inSubset ↦
      ⟨(rescans.withinSubset_iff h.inStep.sound).2 inSubset.1, inSubset.2⟩

section Emits

variable (h : KindsNest b passed r) (emits : r.scanner.config.Emits token.kind token.text next)
include h emits

/-- What is the prolog stays the prolog. -/
private theorem isProlog_apply (lt : id < r.builder.doc.count)
    (isProlog : r.builder.doc.isProlog id = true) :
    (r.builder.apply token).doc.isProlog id = true := by
  have takes := Builder.takes_apply h.inStep.linked token
  rw [takes.isProlog_eq h.inStep.linked lt, isProlog]
  by_cases isTarget : token.kind = .prologTarget ∨ token.kind = .instructionTarget
  · right
    rintro rfl
    have isInstruction : r.scanner.config.state.isInstruction = true := by
      rcases isTarget with kind | kind <;> rw [emits.state_of_kind kind rfl] <;> rfl
    rw [r.builder.current_apply_of_instruction (isTarget.imp_right .inl),
      h.noProlog isInstruction] at isProlog
    cases isProlog
  · exact .inl (not_or.1 isTarget)

/-- What stands in a node is admitted there. -/
private theorem admits_apply (mem : child ∈ (r.builder.apply token).doc.children id) :
    (r.builder.apply token).doc.Admits (b.breaksOff · (passed ++ [token]) · = true) id child := by
  have linked := h.inStep.linked
  have takes := Builder.takes_apply linked token
  have fits : next.Fits (r.builder.apply token).spine :=
    h.inStep.fits.apply h.inStep.sound linked emits
  rcases takes.children_cases linked mem with
    old | ⟨-, isOpen, opens, outer, spine⟩
  · have less := linked.doc.lt_of_mem_children old
    have lt := Nat.lt_trans less.1 less.2
    exact (h.admits id child old).mono (takes.frame_eq linked lt) (takes.frame_eq linked less.2)
      (h.isProlog_apply emits lt) fun _ isBroken ↦ Builder.breaksOff_append isBroken [token]
  · have lt := linked.lt_of_mem_path isOpen
    have opensSome : token.kind.opens ≠ none := by
      rw [opens]
      exact Option.some_ne_none _
    obtain ⟨holds, place⟩ := emits.holdsContent_of_opens opens fits spine
    rw [Document.Admits, takes.frame_eq linked lt]
    refine ⟨fun isDocument ↦ TokenKind.opens_ne_document _ (isDocument ▸ opens), ?_⟩
    cases frame : r.builder.doc.frame id with
    | document | element => trivial
    | instruction =>
      rcases h.instruction id isOpen frame with ⟨-, isInstruction⟩ | ⟨isProlog, lingers⟩
      · rw [emits.isInstruction_eq_false_of_opens opensSome] at isInstruction
        cases isInstruction
      · exact ⟨h.isProlog_apply emits lt isProlog, lingers.breaksOff_of_opens opensSome⟩
    | doctype =>
      refine place.imp_right fun inContent ↦ ?_
      rcases h.doctype id isOpen frame with lingers | ⟨inSubset, -⟩
      · exact lingers.breaksOff_of_opens opensSome
      · rcases inContent with state | state <;>
          simp only [Scanner.Config.WithinSubset, state] at inSubset
    | _ =>
      rw [frame] at holds
      cases holds

/-- An instruction that is read is not the prolog, as long as its target does not tell. -/
private theorem noProlog_apply (isInstruction : next.state.isInstruction = true) :
    (r.builder.apply token).doc.isProlog (r.builder.apply token).current = false := by
  have linked := h.inStep.linked
  rcases emits.cases_of_isInstruction_next h.inStep.sound isInstruction with
    kind | kind | ⟨isInstruction, kind⟩
  · simp only [Builder.apply, kind]
    exact Builder.isProlog_openInstruction linked token.start
  · simp only [Builder.apply, kind]
    exact (Builder.isProlog_setTarget linked token false).trans (Bool.false_and _)
  · have takes := Builder.takes_apply linked token
    have stays := r.builder.current_apply_of_instruction (.inr (.inr kind))
    have notTarget : token.kind ≠ .prologTarget ∧ token.kind ≠ .instructionTarget := by
      rcases kind with kind | kind <;> simp [kind]
    rw [stays, takes.isProlog_eq linked linked.current_lt (.inl notTarget)]
    exact h.noProlog isInstruction

/-- An instruction is the current node as long as it is read, and the prolog lingers. -/
private theorem instruction_apply
    (mem : id ∈ (r.builder.apply token).doc.path (r.builder.apply token).current)
    (isInstruction : (r.builder.apply token).doc.frame id = .instruction) :
    id = (r.builder.apply token).current ∧ next.state.isInstruction = true ∨
      (r.builder.apply token).doc.isProlog id = true ∧
        b.Lingers .prolog (passed ++ [token]) id := by
  have linked := h.inStep.linked
  have takes := Builder.takes_apply linked token
  rcases takes.mem_path_cases linked mem with isOpen | ⟨-, isCurrent, opens⟩
  · have lt := linked.lt_of_mem_path isOpen
    rw [takes.frame_eq linked lt] at isInstruction
    rcases h.instruction id isOpen isInstruction with ⟨isCurrent, isRead⟩ | ⟨isProlog, lingers⟩
    · subst isCurrent
      rcases emits.cases_of_isInstruction isRead with kind | kind | ⟨stillRead, kind⟩
      · refine .inr ⟨?_, .inl ⟨?_, ?_⟩⟩
        · simp only [Builder.apply, kind]
          rw [Builder.isProlog_setTarget linked, isInstruction]
          rfl
        · rw [Builder.applyAll_concat, ← h.builder]
          exact (r.builder.current_apply_of_instruction (.inl kind)).symm
        · rw [Unfinished.isAwaited_concat, kind]
          rfl
      · exact absurd mem (Builder.not_mem_path_of_instruction linked isInstruction (.inl kind))
      · exact .inl ⟨(r.builder.current_apply_of_instruction (.inr kind)).symm, stillRead⟩
    · refine .inr ⟨h.isProlog_apply emits lt isProlog, (lingers.apply token).resolve_left ?_⟩
      rintro ⟨ends, isCurrent⟩
      rw [← h.builder] at isCurrent
      subst isCurrent
      exact Builder.not_mem_path_of_instruction linked isInstruction (.inr ends) mem
  · rw [isInstruction] at opens
    exact .inl ⟨isCurrent, emits.isInstruction_of_opens opens⟩

/-- A document type lingers, or its subset is read and it is the innermost one. -/
private theorem doctype_apply
    (mem : id ∈ (r.builder.apply token).doc.path (r.builder.apply token).current)
    (isDoctype : (r.builder.apply token).doc.frame id = .doctype) :
    b.Lingers .doctype (passed ++ [token]) id ∨
      next.WithinSubset ∧ (r.builder.apply token).InnermostDoctype id := by
  have linked := h.inStep.linked
  have takes := Builder.takes_apply linked token
  have builder : b.applyAll (passed ++ [token]) = r.builder.apply token := by
    rw [Builder.applyAll_concat, h.builder]
  rcases takes.mem_path_cases linked mem with isOpen | ⟨-, isCurrent, opens⟩
  · have lt := linked.lt_of_mem_path isOpen
    rw [takes.frame_eq linked lt] at isDoctype
    rcases h.doctype id isOpen isDoctype with lingers | ⟨inSubset, innermost⟩
    · rcases lingers.apply token with ⟨ends, isCurrent⟩ | lingers
      · rw [← h.builder] at isCurrent
        subst isCurrent
        rcases Unfinished.eq_of_ends_doctype ends with kind | kind
        · have stays : (r.builder.apply token).current = r.builder.current := by
            simp only [Builder.apply, kind]
            rfl
          have inSubset := (emits.withinSubset_iff h.inStep.sound).2 (.inl kind)
          refine .inr ⟨inSubset, mem, (takes.frame_eq linked lt).trans isDoctype,
            fun other mem _ ↦ ?_⟩
          rw [← stays]
          exact Document.Linked.le_of_mem_path mem
        · exact absurd mem (Builder.not_mem_path_of_doctype linked isDoctype kind)
      · exact .inl lingers
    · by_cases kind : token.kind = .subsetClose
      · refine .inl (.inl ⟨?_, ?_⟩)
        · rw [builder]
          simp only [Builder.apply, kind]
          exact (innermost.current_returnToDoctype linked _).symm
        · rw [Unfinished.isAwaited_concat, kind]
          rfl
      · have stillInSubset := (emits.withinSubset_iff h.inStep.sound).2 (.inr ⟨kind, inSubset⟩)
        refine .inr ⟨stillInSubset, mem, (takes.frame_eq linked lt).trans isDoctype,
          fun other mem isDoctype ↦ ?_⟩
        rcases takes.mem_path_cases linked mem with isOpen | ⟨-, -, opens⟩
        · have lt := linked.lt_of_mem_path isOpen
          rw [takes.frame_eq linked lt] at isDoctype
          exact innermost.innermost other isOpen isDoctype
        · rw [isDoctype] at opens
          have state : r.scanner.config.state = .content :=
            emits.state_of_kind (TokenKind.eq_of_opens_doctype opens) rfl
          simp only [Scanner.Config.WithinSubset, state] at inSubset
  · rw [isDoctype] at opens
    refine .inl (.inl ⟨?_, ?_⟩)
    · rw [builder]
      exact isCurrent
    · rw [Unfinished.isAwaited_concat, TokenKind.eq_of_opens_doctype opens]
      rfl

end Emits

private theorem emits (h : KindsNest b passed r) (emits : r.Emits token next) :
    KindsNest b (passed ++ [token])
      ⟨⟨next, r.scanner.cursor.advance token.text⟩, r.builder.apply token⟩ where
  inStep := h.inStep.emits emits
  builder := by rw [Builder.applyAll_concat, h.builder]
  admits _ _ mem := h.admits_apply emits.transition mem
  noProlog := h.noProlog_apply emits.transition
  instruction _ := h.instruction_apply emits.transition
  doctype _ := h.doctype_apply emits.transition

end KindsNest

/-- Before the first token the root is open, and in it the document type of a text of declarations
only. -/
private theorem start_kindsNest (text uri : Text) (mode : Mode) :
    KindsNest (Builder.start text uri mode) [] (start text uri mode) := by
  have inStep := start_inStep text uri mode
  have between : ∀ id, ∀ child ∈ (Builder.start text uri mode).doc.children id,
      id < child ∧ child < (Builder.start text uri mode).doc.count := fun id child mem ↦
    inStep.linked.doc.lt_of_mem_children mem
  have le_current : ∀ id ∈ (Builder.start text uri mode).doc.path
      (Builder.start text uri mode).current, id ≤ (Builder.start text uri mode).current :=
    fun id mem ↦ Document.Linked.le_of_mem_path mem
  cases mode with
  | xml =>
    refine ⟨inStep, rfl, fun id child mem ↦ ?_, nofun, fun id mem frame ↦ ?_,
      fun id mem frame ↦ ?_⟩
    · have less : id < child ∧ child < 1 := between id child mem
      omega
    · obtain rfl := Nat.le_zero.1 (le_current id mem)
      cases frame
    · obtain rfl := Nat.le_zero.1 (le_current id mem)
      cases frame
  | dtd =>
    refine ⟨inStep, rfl, fun id child mem ↦ ?_, nofun, fun id mem frame ↦ ?_,
      fun id mem frame ↦ ?_⟩
    · have less : id < child ∧ child < 2 := between id child mem
      obtain ⟨rfl, rfl⟩ : id = 0 ∧ child = 1 := by omega
      exact ⟨nofun, trivial⟩
    · rcases Nat.le_one_iff_eq_zero_or_eq_one.1 (le_current id mem) with rfl | rfl <;> cases frame
    · rcases Nat.le_one_iff_eq_zero_or_eq_one.1 (le_current id mem) with rfl | rfl
      · cases frame
      · exact .inr ⟨trivial, Builder.innermostDoctype_current rfl⟩

end Reading

namespace Document

variable {doc : Document} {broken : Unfinished → Nat → Prop}

/-- The first element of a document, wherever it stands. -/
def firstElement (doc : Document) : Option Nat :=
  (List.range doc.count).find? fun id ↦ (doc.node id).kind.isElement

private theorem firstElement_eq_some {id : Nat} (h : doc.firstElement = some id) :
    id < doc.count ∧ doc.frame id = .element ∧ ∀ other < id, doc.frame other ≠ .element := by
  obtain ⟨isElement, lt, before⟩ := List.find?_range_eq_some.1 h
  rw [NodeKind.isElement_eq, decide_eq_true_eq] at isElement
  refine ⟨List.mem_range.1 lt, isElement, fun other less ↦ ?_⟩
  have isOther := before other less
  rw [NodeKind.isElement_eq, Bool.not_eq_true', decide_eq_false_iff_not] at isOther
  exact isOther

namespace Linked

variable (linked : doc.Linked)
include linked

private theorem find?_children_eq_some {p : Nat → Bool} {parent child : Nat}
    (mem : child ∈ doc.children parent) (holds : p child = true)
    (before : ∀ other < child, ¬ p other = true) : (doc.children parent).find? p = some child := by
  obtain ⟨earlier, later, split⟩ := List.append_of_mem mem
  have sorted := linked.sorted parent
  rw [split, List.pairwise_append] at sorted
  refine List.find?_eq_some_iff_append.2 ⟨holds, earlier, later, split, fun other mem ↦ ?_⟩
  rw [Bool.not_eq_true', ← Bool.not_eq_true]
  exact before other (sorted.2.2 other mem child List.mem_cons_self)

/-- The document element is the first element, unless that stands in something broken off. -/
private theorem documentElement_eq
    (admits : ∀ id, ∀ child ∈ doc.children id, doc.Admits broken id child) :
    doc.documentElement = doc.firstElement ∨
      ∃ element id, doc.firstElement = some element ∧ element ∈ doc.children id ∧
        (broken .prolog id ∨ broken .doctype id) := by
  cases first : doc.firstElement with
  | none =>
    left
    rw [firstElement, List.find?_eq_none] at first
    rw [documentElement, List.find?_eq_none]
    exact fun id mem ↦ first id (List.mem_range.2 (linked.lt_of_mem_children mem).2)
  | some element =>
    obtain ⟨lt, isElement, before⟩ := firstElement_eq_some first
    have notRoot : element ≠ root := linked.ne_root_of_frame (by rw [isElement]; decide)
    obtain ⟨parent, less, hasParent⟩ := linked.exists_parent element lt notRoot
    have mem := (linked.mem_children parent element).2 ⟨lt, hasParent⟩
    have stands := (admits parent element mem).2
    rw [isElement] at stands
    cases frame : doc.frame parent with
    | document =>
      left
      have isRoot : parent = root := by
        by_contra notRoot
        have lt := Nat.lt_trans less lt
        obtain ⟨outer, -, hasParent⟩ := linked.exists_parent parent lt notRoot
        have mem := (linked.mem_children outer parent).2 ⟨lt, hasParent⟩
        exact (admits outer parent mem).1 frame
      refine linked.find?_children_eq_some (isRoot ▸ mem) ?_ fun other less ↦ ?_
      · rw [NodeKind.isElement_eq]
        exact decide_eq_true isElement
      · rw [NodeKind.isElement_eq, decide_eq_true_eq]
        exact before other less
    | element => exact absurd frame (before parent less)
    | instruction =>
      rw [frame] at stands
      exact .inr ⟨element, parent, rfl, mem, .inl stands.2⟩
    | doctype =>
      rw [frame] at stands
      exact .inr ⟨element, parent, rfl, mem, .inr (stands.resolve_left nofun)⟩
    | _ =>
      rw [frame] at stands
      cases stands

end Linked

end Document

/-- Every child of a node may stand there, unless the prolog or a document type is broken off in
that node, and the document element is the first element, unless that stands in such a node. -/
theorem children_parse_kinds (text uri : Text) (mode : Mode) :
    let doc := Document.parse text uri mode
    let broken := fun part id ↦
      (Builder.start text uri mode).breaksOff part (Scanner.tokenize text mode) id = true
    (∀ id, ∀ child ∈ doc.children id, doc.Admits broken id child) ∧
      (doc.documentElement = doc.firstElement ∨
        ∃ element id, doc.firstElement = some element ∧ element ∈ doc.children id ∧
          (broken .prolog id ∨ broken .doctype id)) := by
  intro doc broken
  obtain ⟨n, ahead, last, atEnd, split, kindsNest⟩ :=
    Reading.exists_atEnd_of_history (fun _ _ _ h ↦ h.rescans)
      (fun _ _ _ _ h ↦ h.emits)
      (Reading.start_kindsNest text uri mode)
  rw [List.nil_append] at kindsNest
  have doc_eq : doc = ((Reading.start text uri mode).after n).builder.finish :=
    Reading.parse_eq_finish atEnd
  have retouched := Builder.retouched_finish ((Reading.start text uri mode).after n).builder
  rw [← doc_eq] at retouched
  have admits : ∀ id, ∀ child ∈ doc.children id, doc.Admits broken id child := by
    intro id child mem
    rw [retouched.children_eq] at mem
    refine (kindsNest.admits id child mem).mono (retouched.frame_eq id) (retouched.frame_eq child)
      (fun isProlog ↦ ?_) fun part isBroken ↦ ?_
    · rw [doc_eq, Document.isProlog, (Builder.kind_finish _ id).1]
      exact isProlog
    · have tokens : Scanner.tokenize text mode = ahead ++ [last] := split
      change Builder.breaksOff _ _ (Scanner.tokenize text mode) _ = true
      rw [tokens]
      exact Builder.breaksOff_append isBroken [last]
  have linked := retouched.linked kindsNest.inStep.linked.doc
  exact ⟨admits, linked.documentElement_eq admits⟩

/-- A prolog and a document type that an element breaks off hide it from the document element. -/
theorem documentElement_parse_brokenOff :
    let prolog : Text := ['<', '?', 'x', 'm', 'l', ' ', '<', 'a', '/', '>']
    let doctype : Text :=
      ['<', '!', 'D', 'O', 'C', 'T', 'Y', 'P', 'E', ' ', 'a', '<', 'a', '/', '>']
    ((Document.parse prolog [] .xml).frame 1 = .instruction ∧
        (Document.parse prolog [] .xml).children 1 = [2] ∧
        (Document.parse prolog [] .xml).firstElement = some 2 ∧
        (Document.parse prolog [] .xml).documentElement = none) ∧
      (Document.parse doctype [] .xml).frame 1 = .doctype ∧
        (Document.parse doctype [] .xml).children 1 = [2] ∧
        (Document.parse doctype [] .xml).firstElement = some 2 ∧
        (Document.parse doctype [] .xml).documentElement = none := by
  intro prolog doctype
  refine ⟨⟨?_, ?_, ?_, ?_⟩, ?_, ?_, ?_, ?_⟩
  · decide +kernel
  · decide +kernel
  · decide +kernel
  · decide +kernel
  · decide +kernel
  · decide +kernel
  · decide +kernel
  · decide +kernel

end TolerantXml
