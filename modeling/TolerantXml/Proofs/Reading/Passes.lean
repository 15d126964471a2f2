import TolerantXml.Proofs.Reading.Run
import TolerantXml.Proofs.Scanner.Reads
import TolerantXml.Proofs.Tree.Opened

/-!
# Reading printed items

A text passes a configuration and a builder on to others if every reading gets from the first ones
to the second ones over this text (`Passes`). A forest is read as it was printed if its text passes
every builder on to one that has the forest (`Forest.IsTaken`); this holds of forests one behind the
other (`Forest.IsTaken.append`), and here it is shown for each kind of leaf.
-/

namespace TolerantXml

open Scanner

variable {config config' config'' next : Config} {b b' b'' : Builder} {taken more tail : Text}
  {offset start inner : Nat} {kind : TokenKind} {forest : Forest}

/-- Where a reading is, without the text that it passed. -/
structure Reading.At (r : Reading) (config : Config) (offset : Nat) (rest : Text) (b : Builder) :
    Prop where
  config_eq : r.scanner.config = config
  offset_eq : r.scanner.cursor.offset = offset
  rest_eq : r.scanner.cursor.rest = rest
  builder_eq : r.builder = b

/-- A text in front of another takes every reading from a configuration and a builder to others. -/
def Passes (taken tail : Text) (config : Config) (offset : Nat) (b : Builder) (config' : Config)
    (b' : Builder) : Prop :=
  ∀ r : Reading, r.At config offset (taken ++ tail) b →
    ∃ n, (r.after n).At config' (offset + taken.byteSize) tail b'

theorem Passes.refl (tail : Text) (config : Config) (offset : Nat) (b : Builder) :
    Passes [] tail config offset b config b :=
  fun _ at_ ↦ ⟨0, at_⟩

theorem Passes.append (first : Passes taken (more ++ tail) config offset b config' b')
    (second : Passes more tail config' (offset + taken.byteSize) b' config'' b'') :
    Passes (taken ++ more) tail config offset b config'' b'' := by
  intro r at_
  rw [List.append_assoc] at at_
  obtain ⟨m, at₁⟩ := first r at_
  obtain ⟨n, at₂⟩ := second _ at₁
  refine ⟨m + n, ?_⟩
  rw [Reading.after_add, Text.byteSize_append, ← Nat.add_assoc]
  exact at₂

/-- A token is passed on to the builder. -/
theorem passes_token (nonempty : taken ≠ [])
    (reads : ∀ before, step config before (taken ++ tail) = .emit kind taken next) (offset : Nat)
    (b : Builder) :
    Passes taken tail config offset b next
      (b.apply ⟨kind, ⟨offset, offset + taken.byteSize⟩, taken⟩) := by
  rintro ⟨⟨config, cursor⟩, b⟩ ⟨rfl, rfl, rest, rfl⟩
  have rest : cursor.rest = taken ++ tail := rest
  have ahead : cursor.rest ≠ [] := by
    rw [rest]
    exact List.append_ne_nil_of_left_ne_nil nonempty tail
  have next : Scanner.next ⟨config, cursor⟩ = _ :=
    read_of_step ahead (by rw [rest]; exact reads cursor.before)
  refine ⟨1, ?_⟩
  rw [Reading.after, Reading.after, Reading.next, next]
  refine ⟨rfl, rfl, ?_, rfl⟩
  rw [Cursor.advance, rest, List.drop_left]

/-! ### Items -/

/-- The configurations in which element content is read. -/
structure Scanner.Config.AtContent (config : Config) : Prop where
  state_eq : config.state = .content
  noProlog : config.inProlog = false

/-- The builders that may get items. -/
structure Builder.TakesItems (b : Builder) : Prop where
  current_lt : b.current < b.doc.count
  notDecl : b.currentNode.kind.isDeclaration = false

private theorem Builder.Grown.takesItems (grown : b.Grown forest offset b') (takes : b.TakesItems) :
    b'.TakesItems where
  current_lt := grown.current_lt takes.current_lt
  notDecl := by
    rw [grown.kind_eq]
    exact takes.notDecl

/-- In front of a text, a printed forest is read as it was printed. -/
def Forest.IsTaken (forest : Forest) (tail : Text) : Prop :=
  ∀ (config : Config) (offset : Nat) (b : Builder), config.AtContent → b.TakesItems →
    ∃ config' b', Passes forest.print tail config offset b config' b' ∧ config'.AtContent ∧
      b.Grown forest offset b'

theorem Forest.isTaken_nil (tail : Text) : Forest.nil.IsTaken tail :=
  fun config offset b atContent _ ↦
    ⟨config, b, .refl tail config offset b, atContent, .refl b offset⟩

theorem Forest.IsTaken.append {first second : Forest}
    (isFirst : first.IsTaken (second.print ++ tail)) (isSecond : second.IsTaken tail) :
    (first.append second).IsTaken tail := by
  intro config offset b atContent takes
  obtain ⟨config₁, b₁, passes₁, atContent₁, grown₁⟩ := isFirst config offset b atContent takes
  obtain ⟨config₂, b₂, passes₂, atContent₂, grown₂⟩ :=
    isSecond config₁ (offset + first.print.byteSize) b₁ atContent₁ (grown₁.takesItems takes)
  refine ⟨config₂, b₂, ?_, atContent₂, grown₁.append grown₂ takes.current_lt⟩
  rw [Forest.print_append]
  exact passes₁.append passes₂

/-! ### Leaves -/

/-- What is between delimiters is one token, or none if it is empty. -/
private theorem passes_content (offset : Nat) (kindOf : Option Span → NodeKind) {content : Text}
    (opened : b.Opened (kindOf none) start .nil inner b')
    (reads : content ≠ [] → ∀ before, step config before (content ++ tail) =
      .emit kind content config)
    (records : b.Opened (kindOf (some ⟨offset, offset + content.byteSize⟩)) start .nil inner
      (b'.apply ⟨kind, ⟨offset, offset + content.byteSize⟩, content⟩)) :
    ∃ b'', Passes content tail config offset b' config b'' ∧
      b.Opened (kindOf (contentSpan offset content)) start .nil inner b'' := by
  by_cases empty : content = []
  · subst empty
    exact ⟨b', .refl tail config offset b', opened⟩
  · rw [contentSpan, if_neg empty]
    exact ⟨_, passes_token empty (reads empty) offset b', records⟩

/-- The closing delimiter of a leaf closes it. -/
private theorem Builder.Opened.grown_closeIf {leaf : Leaf} (sameLine : Bool) {p : NodeKind → Bool}
    (opened : b.Opened (leaf.kind start sameLine) start .nil inner b')
    (takes : b.TakesItems) (isKind : p (leaf.kind start sameLine) = true)
    (isPrint : leaf.print = taken ++ more) :
    b.Grown (.leaf leaf .nil) start
      (b'.closeIf p (start + taken.byteSize + more.byteSize)) := by
  rw [closeIf, opened.kind_eq, if_pos isKind, Nat.add_assoc, ← Text.byteSize_append, ← isPrint]
  exact opened.grown_leaf takes.current_lt

/-- Behind a comment or an instruction in element content there is element content again. -/
private theorem Scanner.Config.AtContent.leaveMarkup (atContent : config.AtContent)
    (state next : State) : (((config.enterMarkup state).moveTo next).leaveMarkup).AtContent where
  state_eq := by
    show (if config.state = .subset then State.subset else .content) = .content
    rw [atContent.state_eq]
    rfl
  noProlog := atContent.noProlog

theorem isTaken_text {content : Text} (wellFormed : (Leaf.text content).WellFormed)
    (ends : ∀ c ∈ tail.head?, c = '<') :
    (Forest.leaf (.text content) .nil).IsTaken tail := by
  obtain ⟨inside, notBlank⟩ := wellFormed
  have nonempty : content ≠ [] := by
    rintro rfl
    cases notBlank
  intro config offset b atContent takes
  refine ⟨config, _, ?_, atContent, Builder.grown_addText takes.current_lt notBlank offset⟩
  rw [Forest.print_leaf]
  exact passes_token nonempty (step_content atContent.state_eq nonempty inside ends) offset b

theorem isTaken_comment {content : Text} (wellFormed : (Leaf.comment content).WellFormed)
    (tail : Text) : (Forest.leaf (.comment content) .nil).IsTaken tail := by
  intro config offset b atContent takes
  have lt := takes.current_lt
  have inComment : (config.enterMarkup .comment).state = .comment := rfl
  have opened : b.Opened (.comment ⟨none, b.followsOnSameLine offset⟩) offset .nil offset
      (b.openComment offset) := by
    rw [Builder.openComment, Builder.leaveDeclaration_eq takes.notDecl]
    exact Builder.opened_openToEnd lt _ _
  have opening := passes_token (by decide) (fun before ↦ step_commentOpen atContent.state_eq before
    (content ++ (Delimiter.commentClose ++ tail))) offset b
  obtain ⟨b', inside, filled⟩ :=
    passes_content (offset + Delimiter.commentOpen.byteSize)
      (fun span ↦ .comment ⟨span, b.followsOnSameLine offset⟩) opened
      (fun nonempty before ↦ step_comment inComment nonempty wellFormed before tail)
      (opened.setComment lt _)
  have closing := passes_token (by decide) (fun before ↦ step_commentClose inComment before tail)
    (offset + (Delimiter.commentOpen ++ content).byteSize) b'
  rw [Forest.print_leaf]
  refine ⟨_, _, (opening.append inside).append closing, atContent.leaveMarkup .comment .comment, ?_⟩
  exact filled.grown_closeIf _ takes rfl rfl

theorem isTaken_cdata {content : Text} (wellFormed : (Leaf.cdata content).WellFormed)
    (tail : Text) : (Forest.leaf (.cdata content) .nil).IsTaken tail := by
  intro config offset b atContent takes
  have lt := takes.current_lt
  have inCdata : (config.moveTo .cdata).state = .cdata := rfl
  have opened := Builder.opened_openToEnd lt (.cdata {}) offset
  have opening := passes_token (by decide) (fun before ↦ step_cdataOpen atContent.state_eq before
    (content ++ (Delimiter.cdataClose ++ tail))) offset b
  obtain ⟨b', inside, filled⟩ :=
    passes_content (offset + Delimiter.cdataOpen.byteSize) (fun span ↦ .cdata { content := span })
      opened (fun nonempty before ↦ step_cdata inCdata nonempty wellFormed before tail)
      (opened.setCdata lt _)
  have closing := passes_token (by decide) (fun before ↦ step_cdataClose inCdata before tail)
    (offset + (Delimiter.cdataOpen ++ content).byteSize) b'
  rw [Forest.print_leaf]
  refine ⟨_, _, (opening.append inside).append closing, ⟨rfl, atContent.noProlog⟩, ?_⟩
  exact filled.grown_closeIf false takes rfl rfl

/-- The data of an instruction are read behind the space that sets them off. -/
private theorem passes_printData {target data : Text}
    (wellFormed : (Leaf.instruction target data).WellFormed) (tail : Text)
    (inData : config.state = .instructionData)
    (opened : b.Opened (.instruction { target := some target }) start .nil inner b')
    (lt : b.current < b.doc.count) (offset : Nat) :
    ∃ b'', Passes (Leaf.printData data) (Delimiter.instructionClose ++ tail) config offset b'
        config b'' ∧
      b.Opened
        (.instruction { target := some target, content := contentSpan (offset + 1) data })
        start .nil inner b'' := by
  obtain ⟨-, -, notSpace, free⟩ := wellFormed
  by_cases empty : data = []
  · rw [Leaf.printData, contentSpan, if_pos empty, if_pos empty]
    exact ⟨b', .refl _ config offset b', opened⟩
  · have outside : ∀ c ∈ (data ++ (Delimiter.instructionClose ++ tail)).head?,
        isSpace c = false := by
      rwa [List.head?_append_of_ne_nil _ empty]
    have space := passes_token (by decide) (step_instructionSpace inData outside) offset b'
    have inside := passes_token empty (step_instructionData inData empty notSpace free · tail)
      (offset + 1) b'
    rw [Leaf.printData, contentSpan, if_neg empty, if_neg empty]
    exact ⟨_, space.append inside, opened.setInstructionData lt _⟩

theorem isTaken_instruction {target data : Text}
    (wellFormed : (Leaf.instruction target data).WellFormed) (tail : Text) :
    (Forest.leaf (.instruction target data) .nil).IsTaken tail := by
  have isName := wellFormed.1
  have notProlog := wellFormed.2.1
  intro config offset b atContent takes
  have lt := takes.current_lt
  have inTarget : (config.enterMarkup .instructionTarget).state = .instructionTarget := rfl
  have inData : ((config.enterMarkup .instructionTarget).moveTo .instructionData).state =
      .instructionData := rfl
  have outside : ∀ c ∈ (Leaf.printData data ++ (Delimiter.instructionClose ++ tail)).head?,
      isNameChar c = false := by
    intro c head
    by_cases empty : data = []
    · rw [Leaf.printData, if_pos empty] at head
      cases head
      decide
    · rw [Leaf.printData, if_neg empty] at head
      cases head
      decide
  have opened : b.Opened (.instruction {}) offset .nil offset (b.openInstruction offset) := by
    rw [Builder.openInstruction, Builder.leaveDeclaration_eq takes.notDecl]
    exact Builder.opened_openToEnd lt _ _
  have opening := passes_token (by decide) (fun before ↦ step_instructionOpen atContent.state_eq
    before (target ++ (Leaf.printData data ++ (Delimiter.instructionClose ++ tail)))) offset b
  have named := passes_token (ne_nil_of_isName isName)
    (step_instructionTarget inTarget isName notProlog outside)
    (offset + Delimiter.instructionOpen.byteSize) (b.openInstruction offset)
  let offset' := offset + Delimiter.instructionOpen.byteSize
  have targeted := opened.setTarget lt
    ⟨.instructionTarget, ⟨offset', offset' + target.byteSize⟩, target⟩ false
  obtain ⟨b', inside, filled⟩ := passes_printData wellFormed tail inData targeted lt
    (offset + (Delimiter.instructionOpen ++ target).byteSize)
  have closing := passes_token (by decide) (fun before ↦ step_instructionClose inData before tail)
    (offset + (Delimiter.instructionOpen ++ target ++ Leaf.printData data).byteSize) b'
  rw [Forest.print_leaf]
  refine ⟨_, _, ((opening.append named).append inside).append closing,
    atContent.leaveMarkup .instructionTarget .instructionData, ?_⟩
  rw [Text.byteSize_append _ target, ← Nat.add_assoc] at filled
  show b.Grown _ offset (b'.closeIf (·.instruction?.isSome) _)
  exact filled.grown_closeIf false takes rfl rfl

end TolerantXml
