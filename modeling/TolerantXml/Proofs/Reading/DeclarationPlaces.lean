import TolerantXml.Proofs.Reading.KindsNest
import TolerantXml.Proofs.Tree.Landmarks

/-!
# Where declarations stand

A declaration is a child of a document type, between the brackets of its subset, or of the one
document type that a text of declarations only stands in (`declarations_parse`). As long as the
scanner is in a subset, the innermost open document type stays the same (`InnermostDoctype.apply`),
and its opening bracket was read and its closing bracket was not (`Reading.Places`).
-/

namespace TolerantXml

/-- The tokens that open a declaration. -/
private theorem TokenKind.eq_of_opens_declaration {kind : TokenKind} {frame : Frame}
    (opens : kind.opens = some frame) (isDecl : frame.isDeclaration = true) :
    kind = .elementDeclOpen ∨ kind = .attlistOpen ∨ kind = .entityOpen := by
  revert isDecl
  cases kind <;> cases opens <;> simp [Frame.isDeclaration]

namespace Scanner.Config

variable {config next : Config} {kind : TokenKind} {taken : Text}

private theorem Emits.subsetOpen_cases (emits : config.Emits .subsetOpen taken next) :
    taken = ['['] ∧ ∃ slot, config.state = .doctype slot := by
  cases emits with
  | subsetOpen h => exact ⟨rfl, _, h⟩
  | doctypePart _ fills | elementPart _ fills | attlistPart _ fills | entityPart _ fills =>
    cases fills

private theorem Emits.subsetClose_cases (emits : config.Emits .subsetClose taken next) :
    taken = [']'] ∧ config.state = .subset := by
  cases emits with
  | subsetClose h => exact ⟨rfl, h⟩
  | doctypePart _ fills | elementPart _ fills | attlistPart _ fills | entityPart _ fills =>
    cases fills

/-- The header of a document type goes on from where it is opened. -/
private theorem Emits.cases_of_doctype (emits : config.Emits kind taken next) (sound : config.Sound)
    {slot : DoctypeSlot} (h : next.state = .doctype slot) :
    kind = .doctypeOpen ∨
      (∃ slot, config.state = .doctype slot) ∧ Unfinished.doctype.holds kind = true := by
  cases emits with
  | doctypeOpen => exact .inl rfl
  | space => exact .inr ⟨⟨slot, h⟩, rfl⟩
  | unrecognized => exact .inr ⟨⟨slot, h⟩, rfl⟩
  | doctypePart eq fills => exact .inr ⟨⟨_, eq⟩, by cases fills <;> rfl⟩
  | content eq | tagUnknown eq | endTagUnknown eq | comment eq | cdata eq | instructionData eq =>
    rw [eq] at h
    cases h
  | tagSpace eq =>
    rcases eq with eq | eq <;> simp [eq] at h
  | commentClose | instructionClose =>
    rcases sound.markupReturn with eq | eq <;> simp [leaveMarkup, moveTo, eq] at h
  | prologClose | emptyTagClose | startTagClose =>
    rcases sound.state_leaveTag with eq | eq <;> simp [eq] at h
  | _ => cases h

/-- A change of state without a token never leads into the header of a document type. -/
private theorem Rescans.ne_doctype (rescans : config.Rescans next) (sound : config.Sound)
    (slot : DoctypeSlot) : next.state ≠ .doctype slot := by
  cases rescans with
  | tagLeft => rcases sound.state_leaveTag with eq | eq <;> simp [eq]
  | _ => nofun

end Scanner.Config

namespace Builder

variable {text : Text} {mode : Mode} {b : Builder} {id pos : Nat} {kind : TokenKind} {taken : Text}
  {span : Span} {config next : Scanner.Config}

/-- In a subset, every token but its end leaves the builder inside the document type. -/
theorem InnermostDoctype.apply (h : b.InnermostDoctype id) (linked : b.Linked)
    (fits : config.Fits b.spine) (inSubset : config.WithinSubset)
    (emits : config.Emits kind taken next) (notEnd : kind ≠ .subsetClose) :
    (b.apply ⟨kind, span, taken⟩).InnermostDoctype id := by
  cases emits with
  | content eq | cdataOpen eq | doctypeOpen eq | startTagOpen eq | endTag eq | endTagClose eq
  | cdataClose eq | doctypePart eq =>
    simp only [Scanner.Config.WithinSubset, eq] at inSubset
  | doctypeClose eq =>
    rcases eq with ⟨slot, eq⟩ | eq <;> simp only [Scanner.Config.WithinSubset, eq] at inSubset
  | subsetClose => exact absurd rfl notEnd
  | commentOpen | instructionOpen =>
    exact (h.leaveDeclaration linked span.start).openNode (linked.leaveDeclaration _)
      fun isDoctype ↦ by cases isDoctype
  | commentClose =>
    simp only [Builder.apply]
    refine h.closeIf linked (fun kind holds ↦ ?_) span.stop
    rw [NodeKind.isComment_eq, decide_eq_true_eq] at holds
    rw [holds]
    decide
  | prologClose | instructionClose =>
    simp only [Builder.apply]
    refine h.closeIf linked (fun kind holds ↦ ?_) span.stop
    rw [NodeKind.instruction?_isSome_eq, decide_eq_true_eq] at holds
    rw [holds]
    decide
  | declClose =>
    simp only [Builder.apply]
    refine h.closeIf linked (fun kind holds isDoctype ↦ ?_) span.stop
    rw [NodeKind.isDeclaration_eq, isDoctype] at holds
    cases holds
  | emptyTagClose eq =>
    -- The tag is that of the prolog, which is the current node.
    simp only [Scanner.Config.WithinSubset, eq] at inSubset
    simp only [Scanner.Config.Fits, eq, inSubset.1, ↓reduceIte] at fits
    have marked := retouched_modifyKind
      (NodeKind.frame_modifyElement fun e ↦ { e with selfClosed := true }) b
    refine (h.retouched linked marked).closeTag (marked.linked linked) ?_ span.stop
    rw [marked.doc.frame_eq, marked.current_eq, Document.frame, ← currentNode,
      Scanner.Config.frame_of_inside fits]
    decide
  | elementDeclOpen | attlistOpen | entityOpen =>
    simp only [Builder.apply]
    exact h.openDeclaration linked _ _ fun _ isDoctype ↦ by cases isDoctype
  | elementPart _ fills | attlistPart _ fills | entityPart _ fills =>
    cases fills <;> exact h.retouched linked (retouched_apply b rfl)
  | _ => exact h.retouched linked (retouched_apply b rfl)

/-- A declaration that is opened is a child of the innermost document type. -/
private theorem InnermostDoctype.parent_apply {token : Token} (h : b.InnermostDoctype id)
    (linked : b.Linked) (opens : token.kind = .elementDeclOpen ∨ token.kind = .attlistOpen ∨
      token.kind = .entityOpen) :
    ((b.apply token).doc.node b.doc.count).parent = some id ∧
      ((b.apply token).doc.node b.doc.count).start = token.start := by
  have returned := returned_returnToDoctype b token.start
  have current := h.current_returnToDoctype linked token.start
  have lt := (linked.returnToDoctype token.start).current_lt
  have added : ∀ kind : NodeKind,
      (((b.returnToDoctype token.start).openToEnd kind token.start).doc.node b.doc.count).parent =
          some id ∧
        (((b.returnToDoctype token.start).openToEnd kind token.start).doc.node
          b.doc.count).start = token.start := by
    intro kind
    rw [openToEnd, Builder.openNode, ← returned.doc.count_eq, Document.node_addChild _ lt,
      if_pos rfl, current]
    exact ⟨rfl, rfl⟩
  rcases opens with kind | kind | kind
  all_goals
    simp only [Builder.apply, kind]
    rw [h.openDeclaration_eq linked]
    exact added _

/-- An open declaration is the current node. -/
private theorem Nested.eq_current_of_isDeclaration (nested : b.Nested text mode pos)
    (linked : b.Linked) (isDecl : (b.doc.frame id).isDeclaration = true)
    (isOpen : id ∈ b.doc.path b.current) :
    id = b.current := by
  by_contra differ
  obtain ⟨child, isChild, -⟩ :=
    linked.doc.exists_child_mem_path linked.current_lt isOpen differ
  rw [nested.childless id isDecl] at isChild
  cases isChild

/-- Behind the end of a subset no declaration is open, and each ends before it. -/
private theorem Nested.declaration_closeSubset (nested : b.Nested text mode pos) (linked : b.Linked)
    (fits : config.Fits b.spine) (state : config.state = .subset)
    (isDecl : (b.doc.frame id).isDeclaration = true) (lt : id < b.doc.count) :
    id ∉ (b.closeSubset pos).doc.path (b.closeSubset pos).current ∧
      ((b.closeSubset pos).doc.node id).stop ≤ pos := by
  obtain ⟨inner, outer, spine, stand, -⟩ := fits.exists_doctype state
  have linkedReturn := linked.returnToDoctype pos
  have returned := nested.returnToDoctype linked spine stand
  have doc := (returned_returnToDoctype b pos).doc
  have recorded : (b.returnToDoctype pos).Retouched (b.closeSubset pos) :=
    retouched_modifyKind (NodeKind.frame_modifyDoctype _) _
  have isDoctype := Scanner.Config.frame_of_inside (fits.inside_returnToDoctype linked state pos)
  have notOpen : id ∉ (b.returnToDoctype pos).doc.path (b.returnToDoctype pos).current := by
    intro isOpen
    rw [← doc.frame_eq] at isDecl
    rw [returned.eq_current_of_isDeclaration linkedReturn isDecl isOpen, Document.frame,
      ← currentNode, isDoctype] at isDecl
    cases isDecl
  rw [recorded.doc.path_eq, recorded.current_eq,
    recorded.doc.stop_eq id fun isOpen ↦ notOpen isOpen.1]
  exact ⟨notOpen, (returned.ended id (doc.count_eq ▸ lt) notOpen).2⟩

end Builder

namespace Reading

variable {text : Text} {mode : Mode} {r : Reading} {id : Nat} {next : Scanner.Config}

/-- A declaration stands in a document type. In an XML document, the subset was opened before it,
and if the subset is over then so is the declaration. -/
def Placed (mode : Mode) (b : Builder) (id parent : Nat) : Prop :=
  (b.doc.node id).parent = some parent ∧ b.doc.frame parent = .doctype ∧
    (mode = .xml → ∃ start, (b.doc.landmarks parent).subsetStart = some start ∧
      start < (b.doc.node id).start) ∧
    ∀ stop, (b.doc.landmarks parent).subsetStop = some stop →
      id ∉ b.doc.path b.current ∧ (b.doc.node id).stop ≤ stop

/-- What holds of the declarations of a reading of a text, and of the brackets around them. -/
structure Places (text : Text) (mode : Mode) (r : Reading) : Prop where
  nested : r.Nested text mode
  opening : ∀ id start, (r.builder.doc.landmarks id).subsetStart = some start →
    text.slice? start (start + 1) = some ['[']
  closing : ∀ id stop, (r.builder.doc.landmarks id).subsetStop = some stop →
    text.slice? stop (stop + 1) = some [']']
  declared : ∀ id, (r.builder.doc.frame id).isDeclaration = true →
    ∃ parent, Placed mode r.builder id parent
  header : ∀ slot, r.scanner.config.state = .doctype slot →
    (r.builder.doc.landmarks r.builder.current).subsetStart = none ∧
      (r.builder.doc.landmarks r.builder.current).subsetStop = none
  inSubset : r.scanner.config.WithinSubset → ∃ doctype, r.builder.InnermostDoctype doctype ∧
    (mode = .xml → ∃ start, (r.builder.doc.landmarks doctype).subsetStart = some start ∧
      start < r.scanner.cursor.offset) ∧
    (r.builder.doc.landmarks doctype).subsetStop = none

namespace Places

private theorem rescans (h : r.Places text mode) (rescans : r.scanner.config.Rescans next) :
    Places text mode ⟨⟨next, r.scanner.cursor⟩, r.builder⟩ where
  nested := h.nested.rescans rescans
  opening := h.opening
  closing := h.closing
  declared := h.declared
  header slot eq := absurd eq (rescans.ne_doctype h.nested.inStep.sound slot)
  inSubset isIn := h.inSubset ((rescans.withinSubset_iff h.nested.inStep.sound).1 isIn)

section Emits

variable {token : Token} (h : r.Places text mode) (emits : r.Emits token next)
include h emits

/-- What a token records of a bracket is where the bracket stands. -/
private theorem slice?_apply {bracket : Char} (taken : token.text = [bracket])
    (size : bracket.utf8Size = 1) :
    text.slice? token.start (token.start + 1) = some [bracket] := by
  have slice := h.nested.standsIn.slice?_eq emits.starts
  rw [taken, Text.byteSize_cons, size] at slice
  rw [emits.start_eq]
  exact slice

private theorem opening_apply {place : Nat}
    (subsetStart : ((r.builder.apply token).doc.landmarks id).subsetStart = some place) :
    text.slice? place (place + 1) = some ['['] := by
  have marks := Builder.marks_apply h.nested.inStep.linked token
  rcases marks.subsetStart_cases subsetStart with before | ⟨kind, -, rfl⟩
  · exact h.opening id place before
  · have transition := emits.transition
    rw [kind] at transition
    exact h.slice?_apply emits transition.subsetOpen_cases.1 rfl

private theorem closing_apply {place : Nat}
    (subsetStop : ((r.builder.apply token).doc.landmarks id).subsetStop = some place) :
    text.slice? place (place + 1) = some [']'] := by
  have marks := Builder.marks_apply h.nested.inStep.linked token
  rcases marks.subsetStop_cases subsetStop with before | ⟨kind, rfl⟩
  · exact h.closing id place before
  · have transition := emits.transition
    rw [kind] at transition
    exact h.slice?_apply emits transition.subsetClose_cases.1 rfl

/-- A declaration that is there stays in its place. -/
private theorem placed_apply {parent : Nat} (isDecl : (r.builder.doc.frame id).isDeclaration = true)
    (lt : id < r.builder.doc.count) (placed : Placed mode r.builder id parent) :
    Placed mode (r.builder.apply token) id parent := by
  have linked := h.nested.inStep.linked
  have takes := Builder.takes_apply linked token
  have marks := Builder.marks_apply linked token
  obtain ⟨hasParent, isDoctype, opened, closed⟩ := placed
  have parent_lt := Nat.lt_trans (linked.doc.parent_lt hasParent).1 lt
  obtain ⟨sameParent, sameStart, sameStop⟩ := takes.place_eq linked lt
  refine ⟨sameParent.trans hasParent, (takes.frame_eq linked parent_lt).trans isDoctype,
    fun xml ↦ ?_, fun stop subsetStop ↦ ?_⟩
  · obtain ⟨place, subsetStart, less⟩ := opened xml
    rw [sameStart]
    rcases (marks.old parent parent_lt).subsetStart_cases with same | ⟨kind, isCurrent, -⟩
    · exact ⟨place, same.trans subsetStart, less⟩
    · obtain ⟨slot, state⟩ := (kind ▸ emits.transition).subsetOpen_cases.2
      rw [isCurrent, (h.header slot state).1] at subsetStart
      cases subsetStart
  · rcases marks.subsetStop_cases subsetStop with before | ⟨kind, rfl⟩
    · obtain ⟨notOpen, le⟩ := closed stop before
      rw [sameStop notOpen]
      refine ⟨fun isOpen ↦ ?_, le⟩
      rcases takes.mem_path_cases linked isOpen with isOpen | ⟨isNew, -⟩
      · exact notOpen isOpen
      · omega
    · have state : r.scanner.config.state = .subset := emits.transition.state_of_kind kind rfl
      simp only [Builder.apply, kind]
      rw [emits.start_eq]
      exact h.nested.spans.declaration_closeSubset linked h.nested.inStep.fits state isDecl lt

/-- A declaration that is opened stands in the document type whose subset is read. -/
private theorem placed_new (isDecl : ((r.builder.apply token).doc.frame id).isDeclaration = true)
    (ge : r.builder.doc.count ≤ id) :
    ∃ parent, Placed mode (r.builder.apply token) id parent := by
  have linked := h.nested.inStep.linked
  have takes := Builder.takes_apply linked token
  have marks := Builder.marks_apply linked token
  have lt : id < (r.builder.apply token).doc.count := by
    by_contra outside
    rw [Document.frame, Document.node_of_count_le (Nat.le_of_not_lt outside)] at isDecl
    cases isDecl
  obtain ⟨rfl, opens, -, -⟩ := takes.new_cases linked ge lt
  have kind := TokenKind.eq_of_opens_declaration opens isDecl
  have state : r.scanner.config.state = .subset := by
    rcases kind with kind | kind | kind <;> exact emits.transition.state_of_kind kind rfl
  have noBracket : token.kind ≠ .subsetOpen ∧ token.kind ≠ .subsetClose := by
    rcases kind with kind | kind | kind <;> simp [kind]
  obtain ⟨doctype, innermost, opened, unclosed⟩ := h.inSubset (by
    simp only [Scanner.Config.WithinSubset, state])
  have doctype_lt := linked.lt_of_mem_path innermost.isOpen
  obtain ⟨hasParent, startsAt⟩ := innermost.parent_apply linked kind
  refine ⟨doctype, hasParent, (takes.frame_eq linked doctype_lt).trans innermost.isDoctype,
    fun xml ↦ ?_, fun stop subsetStop ↦ ?_⟩
  · obtain ⟨place, subsetStart, less⟩ := opened xml
    rw [startsAt, emits.start_eq]
    rcases (marks.old doctype doctype_lt).subsetStart_cases with same | ⟨kind, -⟩
    · exact ⟨place, same.trans subsetStart, less⟩
    · exact absurd kind noBracket.1
  · rcases marks.subsetStop_cases subsetStop with before | ⟨kind, -⟩
    · rw [unclosed] at before
      cases before
    · exact absurd kind noBracket.2

/-- The header of a document type is read before its brackets. -/
private theorem header_apply {slot : DoctypeSlot} (state : next.state = .doctype slot) :
    ((r.builder.apply token).doc.landmarks (r.builder.apply token).current).subsetStart = none ∧
      ((r.builder.apply token).doc.landmarks (r.builder.apply token).current).subsetStop =
        none := by
  have linked := h.nested.inStep.linked
  have marks := Builder.marks_apply linked token
  rcases emits.transition.cases_of_doctype h.nested.inStep.sound state with
    kind | ⟨⟨slot, state⟩, holds⟩
  · refine marks.brackets_eq_none (Nat.le_of_eq ?_)
    simp only [Builder.apply, kind]
    rfl
  · have noBracket : token.kind ≠ .subsetOpen ∧ token.kind ≠ .subsetClose := by
      constructor <;> intro kind <;> rw [kind] at holds <;> cases holds
    obtain ⟨notOpened, notClosed⟩ := h.header slot state
    rw [Builder.current_apply_of_holds _ holds]
    have old := marks.old _ linked.current_lt
    constructor
    · rcases old.subsetStart_cases with same | ⟨kind, -⟩
      · exact same.trans notOpened
      · exact absurd kind noBracket.1
    · rcases old.subsetStop_cases with same | ⟨kind, -⟩
      · exact same.trans notClosed
      · exact absurd kind noBracket.2

/-- In a subset its document type is the innermost one, and its opening bracket was read. -/
private theorem inSubset_apply (isIn : next.WithinSubset) :
    ∃ doctype, (r.builder.apply token).InnermostDoctype doctype ∧
      (mode = .xml → ∃ place,
        ((r.builder.apply token).doc.landmarks doctype).subsetStart = some place ∧
          place < r.scanner.cursor.offset + token.text.byteSize) ∧
      ((r.builder.apply token).doc.landmarks doctype).subsetStop = none := by
  have linked := h.nested.inStep.linked
  have sound := h.nested.inStep.sound
  have fits := h.nested.inStep.fits
  have marks := Builder.marks_apply linked token
  have start := emits.start_eq
  have size := emits.byteSize_pos
  rcases (emits.transition.withinSubset_iff sound).1 isIn with kind | ⟨notEnd, wasIn⟩
  · obtain ⟨slot, state⟩ := (kind ▸ emits.transition).subsetOpen_cases.2
    have isDoctype : r.builder.doc.frame r.builder.current = .doctype :=
      Scanner.Config.frame_of_inside (fits.inside_doctype (.inl ⟨slot, state⟩))
    have opened := Builder.subsetStart_openSubset linked isDoctype token.start
    have innermost := (Builder.innermostDoctype_current isDoctype).retouched linked
      (Builder.retouched_openSubset r.builder token.start)
    rcases (marks.old _ linked.current_lt).subsetStop_cases with same | ⟨isClose, -⟩
    · rw [(h.header slot state).2] at same
      simp only [Builder.apply, kind] at same ⊢
      exact ⟨_, innermost, fun _ ↦ ⟨_, opened, by omega⟩, same⟩
    · rw [kind] at isClose
      cases isClose
  · obtain ⟨doctype, innermost, opened, unclosed⟩ := h.inSubset wasIn
    have old := marks.old _ (linked.lt_of_mem_path innermost.isOpen)
    refine ⟨doctype, innermost.apply linked fits wasIn emits.transition notEnd, fun xml ↦ ?_, ?_⟩
    · obtain ⟨place, subsetStart, less⟩ := opened xml
      rcases old.subsetStart_cases with same | ⟨kind, -⟩
      · exact ⟨place, same.trans subsetStart, by omega⟩
      · obtain ⟨slot, state⟩ := (kind ▸ emits.transition).subsetOpen_cases.2
        simp only [Scanner.Config.WithinSubset, state] at wasIn
    · rcases old.subsetStop_cases with same | ⟨kind, -⟩
      · exact same.trans unclosed
      · exact absurd kind notEnd

end Emits

private theorem emits (h : r.Places text mode) {token : Token} (emits : r.Emits token next) :
    Places text mode ⟨⟨next, r.scanner.cursor.advance token.text⟩, r.builder.apply token⟩ where
  nested := h.nested.emits emits
  opening _ _ := h.opening_apply emits
  closing _ _ := h.closing_apply emits
  declared id isDecl := by
    have linked := h.nested.inStep.linked
    rcases Nat.lt_or_ge id r.builder.doc.count with lt | ge
    · rw [(Builder.takes_apply linked _).frame_eq linked lt] at isDecl
      obtain ⟨parent, placed⟩ := h.declared id isDecl
      exact ⟨parent, h.placed_apply emits isDecl lt placed⟩
    · exact h.placed_new emits isDecl ge
  header _ := h.header_apply emits
  inSubset := h.inSubset_apply emits

end Places

private theorem start_places (text uri : Text) (mode : Mode) :
    Places text mode (start text uri mode) := by
  have landmarks := Builder.landmarks_start text uri mode
  refine ⟨start_nested text uri mode, fun id place subsetStart ↦ ?_, fun id place subsetStop ↦ ?_,
    fun id isDecl ↦ ?_, fun slot _ ↦ ?_, fun isIn ↦ ?_⟩
  · rw [start, landmarks] at subsetStart
    cases subsetStart
  · rw [start, landmarks] at subsetStop
    cases subsetStop
  · rcases Builder.kind_start text uri mode id with document | ⟨-, -, doctype⟩
    · rw [Document.frame, start, document] at isDecl
      cases isDecl
    · rw [Document.frame, start, doctype] at isDecl
      cases isDecl
  · rw [start, landmarks]
    exact ⟨rfl, rfl⟩
  · cases mode with
    | xml => exact isIn.elim
    | dtd =>
      refine ⟨1, Builder.innermostDoctype_current rfl, (fun xml ↦ by cases xml), ?_⟩
      rw [start, landmarks]

private theorem after_places (text uri : Text) (mode : Mode) (n : Nat) :
    Places text mode ((start text uri mode).after n) :=
  after_invariant (fun _ _ places rescans ↦ places.rescans rescans)
    (fun _ _ _ places ↦ places.emits) (start_places text uri mode) n

/-! ### Texts of declarations only -/

/-- What holds of a reading of a text of declarations only: the document type that was there first
is open, and what stands in it are declarations, comments and instructions. -/
structure OnlyItems (text : Text) (r : Reading) : Prop where
  nested : r.Nested text .dtd
  innermost : r.builder.InnermostDoctype 1
  parent : (r.builder.doc.node 1).parent = some Document.root
  unclosed : (r.builder.doc.node 1).closed = false
  atStart : (r.builder.doc.node 1).start = 0
  items : ∀ id < r.builder.doc.count, 1 < id →
    (r.builder.doc.frame id).isItem = true ∧ (r.builder.doc.node id).parent ≠ some Document.root

namespace OnlyItems

private theorem rescans (h : r.OnlyItems text) (rescans : r.scanner.config.Rescans next) :
    OnlyItems text ⟨⟨next, r.scanner.cursor⟩, r.builder⟩ :=
  { h with nested := h.nested.rescans rescans }

/-- What is opened in a subset is an item, and stands in the document type or below it. -/
private theorem items_new (h : r.OnlyItems text) {token : Token}
    (emits : r.scanner.config.Emits token.kind token.text next)
    (innermost : (r.builder.apply token).InnermostDoctype 1)
    (ge : r.builder.doc.count ≤ id) (lt : id < (r.builder.apply token).doc.count) :
    ((r.builder.apply token).doc.frame id).isItem = true ∧
      ((r.builder.apply token).doc.node id).parent ≠ some Document.root := by
  have linked := h.nested.inStep.linked
  have sound := h.nested.inStep.sound
  have takes := Builder.takes_apply linked token
  have linked' := linked.apply token
  have isIn := sound.withinSubset_of_dtd h.nested.mode_eq
  have lt_one := linked.lt_of_mem_path h.innermost.isOpen
  obtain ⟨rfl, opens, ⟨parent, -, hasParent⟩, isCurrent⟩ := takes.new_cases linked ge lt
  have notContent : token.kind ≠ .content := by
    intro kind
    have state : r.scanner.config.state = .content := emits.state_of_kind kind rfl
    simp only [Scanner.Config.WithinSubset, state] at isIn
  constructor
  · have mem := (linked'.doc.mem_children parent _).2 ⟨lt, hasParent⟩
    obtain ⟨-, -, -, outer, spine⟩ := (takes.children_cases linked mem).resolve_left fun old ↦
      Nat.lt_irrefl _ (linked.doc.lt_of_mem_children old).2
    have fits : next.Fits (r.builder.apply token).spine :=
      h.nested.inStep.fits.apply sound linked emits
    refine (emits.holdsContent_of_opens opens fits spine).2.resolve_right fun state ↦ ?_
    rcases state with state | state <;> simp only [Scanner.Config.WithinSubset, state] at isIn
  · rw [hasParent]
    rintro ⟨rfl⟩
    -- The new node is the current one, so the document type would not be around it.
    have isOpen := innermost.isOpen
    rw [isCurrent.resolve_left notContent, linked'.doc.path_cons hasParent,
      linked'.doc.path_root] at isOpen
    simp only [List.mem_cons, Document.root, List.not_mem_nil, or_false] at isOpen
    omega

private theorem emits (h : r.OnlyItems text) {token : Token} (emits : r.Emits token next) :
    OnlyItems text ⟨⟨next, r.scanner.cursor.advance token.text⟩, r.builder.apply token⟩ := by
  have nested := h.nested.emits emits
  have linked := h.nested.inStep.linked
  have sound := h.nested.inStep.sound
  have isIn := sound.withinSubset_of_dtd h.nested.mode_eq
  have isIn' : next.WithinSubset := nested.inStep.sound.withinSubset_of_dtd nested.mode_eq
  have notEnd : token.kind ≠ .subsetClose := by
    rcases (emits.transition.withinSubset_iff sound).1 isIn' with kind | ⟨notEnd, -⟩
    · rw [kind]
      decide
    · exact notEnd
  have takes := Builder.takes_apply linked token
  have lt_one := linked.lt_of_mem_path h.innermost.isOpen
  obtain ⟨sameParent, sameStart, -⟩ := takes.place_eq linked lt_one
  have innermost : (r.builder.apply token).InnermostDoctype 1 :=
    h.innermost.apply linked h.nested.inStep.fits isIn emits.transition notEnd
  refine ⟨nested, innermost, sameParent.trans h.parent, ?_, sameStart.trans h.atStart,
    fun id lt less ↦ ?_⟩
  · rw [Bool.eq_false_iff]
    intro closed
    rcases takes.closed_cases linked innermost.isOpen closed with ⟨-, closed⟩ | ⟨-, -, isElement⟩
    · rw [h.unclosed] at closed
      cases closed
    · rw [innermost.isDoctype] at isElement
      cases isElement
  · rcases Nat.lt_or_ge id r.builder.doc.count with old | new
    · rw [takes.frame_eq linked old, (takes.place_eq linked old).1]
      exact h.items id old less
    · exact h.items_new emits.transition innermost new lt

end OnlyItems

private theorem after_onlyItems (text uri : Text) (n : Nat) :
    OnlyItems text ((start text uri .dtd).after n) := by
  refine after_invariant (fun _ _ onlyItems rescans ↦ onlyItems.rescans rescans)
    (fun _ _ _ onlyItems ↦ onlyItems.emits) ?_ n
  refine ⟨start_nested text uri .dtd, Builder.innermostDoctype_current rfl, rfl, rfl, rfl,
    fun id lt less ↦ ?_⟩
  have lt : id < 2 := lt
  omega

/-! ### The end of the text -/

/-- The declarations of a document are placed as they were at the end of the text. -/
private theorem Places.finish (h : r.Places text mode)
    (isDecl : (r.builder.finish.frame id).isDeclaration = true) :
    ∃ parent doctype, (r.builder.finish.node id).parent = some parent ∧
      (r.builder.finish.node parent).kind = .doctype doctype ∧
      (mode = .xml → ∃ start, doctype.subsetStart = some start ∧
        text.slice? start (start + 1) = some ['['] ∧ start < (r.builder.finish.node id).start) ∧
      ∀ stop, doctype.subsetStop = some stop →
        text.slice? stop (stop + 1) = some [']'] ∧ (r.builder.finish.node id).stop ≤ stop := by
  have retouched := Builder.retouched_finish r.builder
  rw [retouched.frame_eq] at isDecl
  obtain ⟨parent, hasParent, isDoctype, opened, closed⟩ := h.declared id isDecl
  obtain ⟨doctype, kind⟩ : ∃ doctype, (r.builder.doc.node parent).kind = .doctype doctype := by
    rw [Document.frame] at isDoctype
    cases kind : (r.builder.doc.node parent).kind with
    | doctype doctype => exact ⟨doctype, rfl⟩
    | _ => simp [kind, NodeKind.frame] at isDoctype
  have landmarks : r.builder.doc.landmarks parent =
      { subsetStart := doctype.subsetStart, subsetStop := doctype.subsetStop } := by
    rw [Document.landmarks, kind]
    rfl
  rw [landmarks] at opened closed
  refine ⟨parent, doctype, (retouched.parent_eq id).trans hasParent,
    (Builder.kind_finish r.builder parent).1.trans kind, fun xml ↦ ?_, fun stop subsetStop ↦ ?_⟩
  · obtain ⟨start, subsetStart, less⟩ := opened xml
    rw [retouched.start_eq]
    exact ⟨start, subsetStart, h.opening parent start (by rw [landmarks]; exact subsetStart), less⟩
  · obtain ⟨notOpen, le⟩ := closed stop subsetStop
    rw [h.nested.spans.stop_finish h.nested.inStep.linked, if_neg notOpen]
    exact ⟨h.closing parent stop (by rw [landmarks]; exact subsetStop), le⟩

/-- The document of declarations only has one document type, which is not closed and covers all of
the text, and nothing else but items below it. -/
private theorem OnlyItems.finish (h : r.OnlyItems text) (atEnd : r.scanner.cursor.rest = []) :
    r.builder.finish.children Document.root = [1] ∧ r.builder.finish.frame 1 = .doctype ∧
      (r.builder.finish.node 1).closed = false ∧
      (r.builder.finish.node 1).span = ⟨0, text.byteSize⟩ ∧
      ∀ id < r.builder.finish.count, id ≠ Document.root → id ≠ 1 →
        (r.builder.finish.frame id).isItem = true := by
  have linked := h.nested.inStep.linked
  have retouched := Builder.retouched_finish r.builder
  have linked' := (h.nested.finish atEnd).2.2.1
  have lt_one : 1 < r.builder.finish.count := by
    rw [retouched.count_eq]
    exact linked.lt_of_mem_path h.innermost.isOpen
  have items : ∀ id < r.builder.finish.count, 1 < id →
      (r.builder.finish.frame id).isItem = true ∧
        (r.builder.finish.node id).parent ≠ some Document.root := by
    intro id lt less
    rw [retouched.frame_eq, retouched.parent_eq]
    exact h.items id (retouched.count_eq ▸ lt) less
  have parent : (r.builder.finish.node 1).parent = some Document.root :=
    (retouched.parent_eq 1).trans h.parent
  refine ⟨linked'.children_eq_singleton fun other ↦ ?_, ?_, ?_, ?_, fun id lt notRoot notOne ↦ ?_⟩
  · rw [linked'.mem_children]
    constructor
    · rintro ⟨lt, hasParent⟩
      have := (linked'.parent_lt hasParent).1
      by_contra differ
      exact (items other lt (by omega)).2 hasParent
    · rintro rfl
      exact ⟨lt_one, parent⟩
  · exact (retouched.frame_eq 1).trans h.innermost.isDoctype
  · exact (Builder.kind_finish r.builder 1).2.trans h.unclosed
  · rw [Node.span, retouched.start_eq, h.atStart, h.nested.spans.stop_finish linked,
      if_pos h.innermost.isOpen]
  · have : id ≠ 0 := notRoot
    exact (items id lt (by omega)).1

end Reading

/-- Every declaration is a child of a document type. In an XML document it stands between the
brackets of the subset, and what a text of declarations only has besides its declarations, all in
one document type around them, are comments and instructions. -/
theorem declarations_parse (text uri : Text) (mode : Mode) :
    let doc := Document.parse text uri mode
    (∀ id, (doc.node id).kind.isDeclaration = true →
      ∃ parent doctype, (doc.node id).parent = some parent ∧
        (doc.node parent).kind = .doctype doctype ∧
        (mode = .xml → ∃ start, doctype.subsetStart = some start ∧
          text.slice? start (start + 1) = some ['['] ∧ start < (doc.node id).start ∧
          ∀ stop, doctype.subsetStop = some stop →
            text.slice? stop (stop + 1) = some [']'] ∧ (doc.node id).stop ≤ stop)) ∧
      (mode = .dtd → ∃ child, doc.children Document.root = [child] ∧
        (doc.node child).kind.isDoctype = true ∧ (doc.node child).closed = false ∧
        (doc.node child).span = ⟨0, text.byteSize⟩ ∧
        ∀ id < doc.count, id ≠ Document.root → id ≠ child →
          if (doc.node id).kind.isDeclaration then (doc.node id).parent = some child
          else (doc.node id).kind.isComment ∨ (doc.node id).kind.instruction?.isSome) := by
  intro doc
  obtain ⟨n, atEnd⟩ := (Reading.start text uri mode).exists_atEnd
  have doc_eq : doc = ((Reading.start text uri mode).after n).builder.finish :=
    Reading.parse_eq_finish atEnd
  have declared : ∀ id, (doc.frame id).isDeclaration = true → _ := fun id isDecl ↦
    (Reading.after_places text uri mode n).finish (doc_eq ▸ isDecl)
  rw [← doc_eq] at declared
  refine ⟨fun id isDecl ↦ ?_, ?_⟩
  · rw [NodeKind.isDeclaration_eq] at isDecl
    obtain ⟨parent, doctype, hasParent, isDoctype, opened, closed⟩ := declared id isDecl
    refine ⟨parent, doctype, hasParent, isDoctype, fun xml ↦ ?_⟩
    obtain ⟨start, subsetStart, bracket, less⟩ := opened xml
    exact ⟨start, subsetStart, bracket, less, closed⟩
  · rintro rfl
    obtain ⟨children, isDoctype, unclosed, span, items⟩ :=
      (Reading.after_onlyItems text uri n).finish atEnd
    rw [← doc_eq] at children isDoctype unclosed span items
    refine ⟨1, children, ?_, unclosed, span, fun id lt notRoot notOne ↦ ?_⟩
    · rw [NodeKind.isDoctype_eq, decide_eq_true_eq]
      exact isDoctype
    · have isItem := items id lt notRoot notOne
      split
      · next isDecl =>
        rw [NodeKind.isDeclaration_eq] at isDecl
        obtain ⟨parent, doctype, hasParent, kind, -⟩ := declared id isDecl
        have linked := ((Reading.after_nested text uri .dtd n).finish atEnd).2.2.1
        rw [← doc_eq] at linked
        have parent_lt := linked.parent_lt hasParent
        -- A document type is no item, so there is only the one.
        have isOne : parent = 1 := by
          by_contra differ
          have notRoot : parent ≠ Document.root := linked.ne_root_of_frame (by
            rw [Document.frame, kind]
            intro isRoot
            cases isRoot)
          have isItem := items parent (Nat.lt_trans parent_lt.1 lt) notRoot differ
          rw [Document.frame, kind] at isItem
          cases isItem
        rw [hasParent, isOne]
      · next notDecl =>
        rw [NodeKind.isDeclaration_eq] at notDecl
        rw [NodeKind.isComment_eq, NodeKind.instruction?_isSome_eq]
        change (doc.node id).kind.frame.isItem = true at isItem
        revert isItem notDecl
        cases (doc.node id).kind.frame <;> simp [Frame.isItem, Frame.isDeclaration]

end TolerantXml
