import Mathlib.Data.List.TakeWhile
import TolerantXml.Proofs.Reading.Run
import TolerantXml.Proofs.Tree.Kinds
import TolerantXml.Proofs.Tree.Ordered
import TolerantXml.Proofs.Tree.Outline
import TolerantXml.Tree.Parse

/-!
# Outlines of parsed documents

No name that the scanner reads has white space or a square bracket in it (`isPlain_of_step`), so
none that a node has (`plainName_parse`). The outline of a document therefore tells of every
node what it stands for, its name, where it stands, whether it is closed, and its parent.
-/

namespace TolerantXml

/-! ### The names that are read -/

/-- Whether a token gives a node its name. -/
def TokenKind.isName : TokenKind → Bool
  | .startTag | .endTag | .prologTarget | .instructionTarget | .doctypeName => true
  | .elementDeclName | .attlistElement | .entityName => true
  | _ => false

namespace Lexeme

variable {p : Char → Bool}

private theorem isPlain_run (plain : ∀ c, p c = true → (!isSpace c && c != '[' && c != ']') = true)
    (rest : Text) : Text.isPlain (run p rest) = true :=
  List.all_eq_true.2 fun c mem ↦ plain c (List.mem_takeWhile_imp mem)

private theorem isPlain_name (rest : Text) : Text.isPlain (name rest) = true := by
  rw [name]
  split
  · apply isPlain_run
    intro c isChar
    by_contra notPlain
    simp only [isSpace, Bool.and_eq_true, Bool.not_eq_true', Bool.or_eq_false_iff, bne_iff_ne,
      beq_eq_false_iff_ne, not_and_or, not_not] at notPlain
    rcases notPlain with ((((rfl | rfl) | rfl) | rfl) | rfl) | rfl <;> revert isChar <;> decide
  · rfl

private theorem isPlain_word (rest : Text) : Text.isPlain (word rest) = true := by
  apply isPlain_run
  intro c
  simp +contextual [isWordBreak]

private theorem isPlain_doctypeName (rest : Text) :
    Text.isPlain (run Scanner.isDoctypeNameChar rest) = true := by
  apply isPlain_run
  intro c
  simp +contextual [Scanner.isDoctypeNameChar]

private theorem isPlain_prologTarget (rest : Text) : Text.isPlain (prologTarget rest) = true := by
  rw [prologTarget]
  split <;> rfl

end Lexeme

namespace Scanner

open Lexeme

/-- Whether a step reads no name with anything in it that separates the parts of markup. -/
def Step.NamesPlain : Step → Prop
  | .emit kind taken _ => kind.isName = true → Text.isPlain taken = true
  | .rescan _ => True

variable {config next : Config} {before rest taken : Text} {kind : TokenKind}
  {otherwise : Step} {parts : Step → Step}

private theorem attempt_namesPlain (plain : kind.isName = true → Text.isPlain taken = true)
    (other : otherwise.NamesPlain) : (attempt taken kind next otherwise).NamesPlain := by
  unfold attempt
  split
  · exact other
  · exact plain

private theorem stepStartTagName_namesPlain (config : Config) (rest : Text) :
    (stepStartTagName config rest).NamesPlain := by
  refine attempt_namesPlain (fun _ ↦ isPlain_name rest) ?_
  exact attempt_namesPlain nofun (attempt_namesPlain nofun trivial)

private theorem stepEndTagName_namesPlain (config : Config) (rest : Text) :
    (stepEndTagName config rest).NamesPlain := by
  refine attempt_namesPlain (fun _ ↦ isPlain_name rest) ?_
  exact attempt_namesPlain nofun (attempt_namesPlain nofun trivial)

private theorem stepInstructionTarget_namesPlain (config : Config) (rest : Text) :
    (stepInstructionTarget config rest).NamesPlain := by
  refine attempt_namesPlain (fun _ ↦ isPlain_prologTarget rest) ?_
  exact attempt_namesPlain (fun _ ↦ isPlain_name rest) trivial

private theorem stepDoctype_namesPlain (config : Config) (rest : Text) :
    (stepDoctype config .name rest).NamesPlain := by
  refine attempt_namesPlain nofun (attempt_namesPlain nofun (attempt_namesPlain nofun ?_))
  split
  · trivial
  · exact attempt_namesPlain (fun _ ↦ isPlain_doctypeName rest) nofun

/-- In a declaration it is the alternatives of the slot that matter. -/
private theorem stepDecl_namesPlain
    (slots : ∀ otherwise : Step, otherwise.NamesPlain → (parts otherwise).NamesPlain) :
    (stepDecl config rest parts).NamesPlain := by
  refine attempt_namesPlain nofun (attempt_namesPlain nofun ?_)
  split
  · trivial
  · exact slots _ nofun

private theorem stepEntityName_namesPlain (config : Config) (rest : Text)
    (other : otherwise.NamesPlain) : (stepEntitySlot config rest .name otherwise).NamesPlain := by
  refine attempt_namesPlain nofun ?_
  exact attempt_namesPlain (fun _ ↦ isPlain_word rest) other

/-- Nothing that separates the parts of markup is read as a part of a name. -/
theorem isPlain_of_step (reads : step config before rest = .emit kind taken next)
    (isName : kind.isName = true) : Text.isPlain taken = true := by
  suffices plain : (step config before rest).NamesPlain by
    rw [reads] at plain
    exact plain isName
  -- A name is read in the state that its token tells.
  cases emits_of_step reads with
  | startTag state =>
    simp only [step, state]
    exact stepStartTagName_namesPlain config rest
  | endTag state =>
    simp only [step, state]
    exact stepEndTagName_namesPlain config rest
  | prologTarget state | instructionTarget state =>
    simp only [step, state]
    exact stepInstructionTarget_namesPlain config rest
  | doctypePart state fills =>
    cases fills with
    | name =>
      simp only [step, state]
      exact stepDoctype_namesPlain config rest
    | _ => cases isName
  | elementPart state fills =>
    cases fills with
    | name =>
      simp only [step, state]
      exact stepDecl_namesPlain fun _ ↦ attempt_namesPlain fun _ ↦ isPlain_word rest
    | _ => cases isName
  | attlistPart state fills =>
    cases fills with
    | element =>
      simp only [step, state]
      exact stepDecl_namesPlain fun _ ↦ attempt_namesPlain fun _ ↦ isPlain_word rest
    | _ => cases isName
  | entityPart state fills =>
    cases fills with
    | name =>
      simp only [step, state]
      exact stepDecl_namesPlain fun _ ↦ stepEntityName_namesPlain config rest
    | _ => cases isName
  | _ => cases isName

end Scanner

/-! ### The names of nodes -/

namespace NodeKind

variable {kind : NodeKind}

/-- Whether the name of a node, if it has one, is free of what separates the parts of markup. -/
def PlainName (kind : NodeKind) : Prop := ∀ name, kind.name = some name → Text.isPlain name = true

private theorem PlainName.of_name_eq_some {name : Text} (isNamed : kind.name = some name)
    (plain : Text.isPlain name = true) : kind.PlainName := by
  intro name' isNamed'
  rw [isNamed, Option.some.injEq] at isNamed'
  exact isNamed' ▸ plain

/-- What a token may leave of the name of a node: the name it had, or the token as its name. -/
def Renamed (token : Token) (before after : NodeKind) : Prop :=
  after.name = before.name ∨ token.kind.isName = true ∧ after.name = some token.text

private theorem renamed_take (d : Doctype) (token : Token) :
    Renamed token (.doctype d) (.doctype (d.take token)) := by
  simp only [Renamed, name, Doctype.take, Doctype.setPart]
  cases isKind : token.kind with
  | doctypeName => exact .inr ⟨rfl, rfl⟩
  | _ => exact .inl rfl

private theorem renamed_takeParameter (token : Token) (kind : NodeKind) :
    Renamed token kind (kind.takeParameter token) := by
  cases kind with
  | doctype d =>
    rw [takeParameter]
    split
    · exact renamed_take d token
    · exact .inl rfl
  | elementDecl decl =>
    simp only [Renamed, name, takeParameter, take, ElementDecl.setPart]
    cases isKind : token.kind with
    | elementDeclName => exact .inr ⟨rfl, rfl⟩
    | _ => exact .inl rfl
  | attlistDecl decl =>
    simp only [Renamed, name, takeParameter, take, AttlistDecl.setPart]
    cases isKind : token.kind with
    | attlistElement => exact .inr ⟨rfl, rfl⟩
    | _ => exact .inl rfl
  | entityDecl decl =>
    simp only [Renamed, name, takeParameter, take, EntityDecl.setPart]
    cases isKind : token.kind with
    | entityName => exact .inr ⟨rfl, rfl⟩
    | _ => exact .inl rfl
  | _ => exact .inl rfl

private theorem renamed_modifyDoctype (token : Token) (kind : NodeKind) :
    Renamed token kind (kind.modifyDoctype (·.take token)) := by
  cases kind with
  | doctype d => exact renamed_take d token
  | _ => exact .inl rfl

end NodeKind

namespace Builder

variable {b : Builder} {token : Token}

private theorem renamed_rewrite (b : Builder) (token : Token) (kind : NodeKind) :
    NodeKind.Renamed token kind (b.rewrite token kind) := by
  unfold rewrite
  cases isKind : token.kind with
  | startTag =>
    cases kind with
    | element e => exact .inr ⟨by rw [isKind]; rfl, rfl⟩
    | _ => exact .inl rfl
  | prologTarget | instructionTarget =>
    cases kind with
    | instruction i => exact .inr ⟨by rw [isKind]; rfl, rfl⟩
    | _ => exact .inl rfl
  | doctypeName | doctypePublic | doctypeSystem | doctypePublicId | doctypeSystemId =>
    exact NodeKind.renamed_modifyDoctype token kind
  | elementDeclName | elementDeclCategory | elementDeclContent | attlistElement | attlistName
  | attlistType | attlistDefault | entityPercent | entityName | entityValue | entityPublic
  | entitySystem | entityPublicId | entitySystemId | unrecognized =>
    exact NodeKind.renamed_takeParameter token kind
  | _ => cases kind <;> exact .inl rfl

/-- A node that is added has no name yet, or belongs to an end tag and has its name. -/
private theorem name_added (b : Builder) (token : Token) :
    (b.added token).name = none ∨
      token.kind.isName = true ∧ (b.added token).name = some token.text := by
  rw [added]
  cases isKind : token.kind with
  | endTag => exact .inr ⟨rfl, rfl⟩
  | _ => exact .inl rfl

theorem plainName_apply (linked : b.Linked)
    (isPlain : token.kind.isName = true → Text.isPlain token.text = true)
    (before : ∀ id, (b.doc.node id).kind.PlainName) (id : Nat) :
    ((b.apply token).doc.node id).kind.PlainName := by
  have rewritten (kind : NodeKind) (plain : kind.PlainName) :
      (b.rewrite token kind).PlainName := by
    rcases b.renamed_rewrite token kind with same | ⟨isName, isText⟩
    · exact fun name isNamed ↦ plain name (same ▸ isNamed)
    · exact .of_name_eq_some isText (isPlain isName)
  have added : (b.added token).PlainName := by
    rcases b.name_added token with none | ⟨isName, isText⟩
    · rw [NodeKind.PlainName, none]
      exact nofun
    · exact .of_name_eq_some isText (isPlain isName)
  exact forall_kind_apply linked (fun _ plain ↦ plain) rewritten added (fun _ ↦ nofun) before id

private theorem plainName_start (text uri : Text) (mode : Mode) (id : Nat) :
    ((start text uri mode).doc.node id).kind.PlainName := by
  rcases kind_start text uri mode id with kind | ⟨-, -, kind⟩ <;> rw [kind] <;> exact fun _ ↦ nofun

end Builder

namespace Document

variable (text uri : Text) (mode : Mode)

/-- Every name in a document is free of what separates the parts of markup. -/
theorem plainName_parse (id : Nat) : ((parse text uri mode).node id).kind.PlainName := by
  obtain ⟨n, passed, last, atEnd, -, -, plain⟩ :=
    @Reading.exists_atEnd_of_steps (Reading.start text uri mode)
      (fun _ r ↦ r.builder.Linked ∧ ∀ id, (r.builder.doc.node id).kind.PlainName) []
      (fun _ _ _ before _ ↦ before)
      (fun _ _ token _ before _ reads ↦ ⟨before.1.apply token,
        Builder.plainName_apply before.1 (Scanner.isPlain_of_step reads) before.2⟩)
      ⟨Builder.start_linked text uri mode, Builder.plainName_start text uri mode⟩
  rw [Reading.parse_eq_finish atEnd, (Builder.kind_finish _ id).1]
  exact plain id

end Document

/-! ### What an outline tells -/

private theorem NodeKind.isPlain_label (kind : NodeKind) :
    kind.label.toList ≠ [] ∧ Text.isPlain kind.label.toList = true := by
  cases kind with
  | instruction i =>
    rw [label]
    split <;> decide
  | _ => rw [label]; decide

namespace Document

variable {doc doc' : Document} {id : Nat}

/-- The line of an outline for a node: two spaces for each node around it, what it is, its name if
it has one, and its range. All but the root are marked if they are not closed. -/
def outlineLine (doc : Document) (id : Nat) : Text :=
  let node := doc.node id
  List.replicate (2 * (doc.ancestors id).length) ' ' ++ node.kind.label.toList ++
    (node.kind.name.map (' ' :: ·)).getD [] ++ " [".toList ++ (toString node.start).toList ++
    ", ".toList ++ (toString node.stop).toList ++ ")".toList ++
    if node.closed = true ∨ id = root then [] else " (unclosed)".toList

/-- Whether two documents have as many nodes, and nodes of the same number stand for the same with
the same name in the same place, below nodes of the same number, and are both closed or not. -/
structure SameNodes (doc doc' : Document) : Prop where
  count : doc.count = doc'.count
  frame : ∀ id < doc.count, doc.frame id = doc'.frame id
  isProlog : ∀ id < doc.count, (doc.node id).kind.isProlog = (doc'.node id).kind.isProlog
  name : ∀ id < doc.count, (doc.node id).kind.name = (doc'.node id).kind.name
  span : ∀ id < doc.count, (doc.node id).span = (doc'.node id).span
  closed : ∀ id < doc.count, (doc.node id).closed = (doc'.node id).closed
  parent : ∀ id < doc.count, (doc.node id).parent = (doc'.node id).parent

/-- What makes an outline readable: nodes in the order of a walk, below a root that is never
closed, and no name that could be taken for more than a name. -/
structure Outlined (doc : Document) : Prop where
  linked : doc.Linked
  contiguous : doc.Contiguous
  root_closed : (doc.node root).closed = false
  plainName : ∀ id, (doc.node id).kind.PlainName

theorem outlined_parse (text uri : Text) (mode : Mode) : (parse text uri mode).Outlined := by
  have inOrder := (Builder.start_inOrder text uri mode).applyAll (Scanner.tokenize text mode)
  have retouched := Builder.retouched_finish
    ((Builder.start text uri mode).applyAll (Scanner.tokenize text mode))
  exact {
    linked := retouched.linked inOrder.linked.doc
    contiguous := retouched.contiguous inOrder.edge.contiguous
    root_closed := inOrder.ordered_finish.root_closed
    plainName := plainName_parse text uri mode }

namespace Outlined

variable (outlined : doc.Outlined)
include outlined

private theorem plain_outlineEntry (id : Nat) : (doc.node id).outlineEntry.Plain where
  label_ne_nil := (NodeKind.isPlain_label _).1
  label := (NodeKind.isPlain_label _).2
  name := outlined.plainName id

private theorem line_outlineEntry (lt : id < doc.count) :
    (doc.node id).outlineEntry.line (doc.depth id) = doc.outlineLine id := by
  have isRoot : (doc.depth id == 0) = decide (id = root) := by
    rw [Bool.eq_iff_iff, beq_iff_eq, decide_eq_true_iff, outlined.linked.depth_eq_zero lt]
  simp only [OutlineEntry.line, outlineLine, isRoot, Bool.or_eq_true, decide_eq_true_iff]
  rfl

/-- An outline has one line for each node, in the order of their numbers. -/
private theorem lines_eq : doc.outline.lines = (List.range doc.count).map doc.outlineLine := by
  rw [outlined.linked.lines_outline outlined.contiguous]
  exact List.map_congr_left fun id mem ↦ outlined.line_outlineEntry (List.mem_range.1 mem)

private theorem newline_not_mem_lines : ∀ line ∈ doc.outline.lines, '\n' ∉ line := by
  rw [outlined.linked.lines_outline outlined.contiguous]
  intro line mem
  obtain ⟨id, -, rfl⟩ := List.mem_map.1 mem
  exact (outlined.plain_outlineEntry id).newline_not_mem_line _

/-- Lines tell the nodes: of each node its line tells all but its parent, and the depths of the
nodes before it tell that. -/
private theorem sameNodes_of_lines_eq (outlined' : doc'.Outlined)
    (eq : doc.outline.lines = doc'.outline.lines) : doc.SameNodes doc' := by
  rw [outlined.linked.lines_outline outlined.contiguous,
    outlined'.linked.lines_outline outlined'.contiguous] at eq
  have count : doc.count = doc'.count := by simpa using congrArg List.length eq
  rw [count, List.map_inj_left] at eq
  have told (id : Nat) (lt : id < doc.count) :=
    (outlined.plain_outlineEntry id).line_inj (outlined'.plain_outlineEntry id)
      (eq id (List.mem_range.2 (count ▸ lt)))
  have label (id : Nat) (lt : id < doc.count) := NodeKind.label_eq_iff.1 (told id lt).2.1
  constructor
  case count => exact count
  case frame => exact fun id lt ↦ (label id lt).1
  case isProlog => exact fun id lt ↦ (label id lt).2
  case name => exact fun id lt ↦ (told id lt).2.2.1
  case span => exact fun id lt ↦ (told id lt).2.2.2.1
  case closed =>
    intro id lt
    by_cases isRoot : id = root
    · rw [isRoot, outlined.root_closed, outlined'.root_closed]
    · exact (told id lt).2.2.2.2 fun isZero ↦ isRoot ((outlined.linked.depth_eq_zero lt).1 isZero)
  case parent =>
    exact fun id lt ↦ outlined.linked.parent_eq_of_depth outlined.contiguous outlined'.linked
      outlined'.contiguous count (fun id lt ↦ (told id lt).1) lt

private theorem lines_eq_of_sameNodes (outlined' : doc'.Outlined) (same : doc.SameNodes doc') :
    doc.outline.lines = doc'.outline.lines := by
  rw [outlined.linked.lines_outline outlined.contiguous,
    outlined'.linked.lines_outline outlined'.contiguous, ← same.count]
  apply List.map_congr_left
  intro id mem
  have lt := List.mem_range.1 mem
  have label := NodeKind.label_eq_iff.2 ⟨same.frame id lt, same.isProlog id lt⟩
  rw [outlined.linked.depth_eq_of_parent outlined'.linked same.parent lt, Node.outlineEntry,
    Node.outlineEntry, label, same.name id lt, same.span id lt, same.closed id lt]

/-- Two outlines are written alike exactly where the documents have the same nodes. -/
theorem render_eq_iff (outlined' : doc'.Outlined) :
    doc.outline.render = doc'.outline.render ↔ doc.SameNodes doc' := by
  constructor
  · intro eq
    exact outlined.sameNodes_of_lines_eq outlined' (Text.unlines_inj outlined.newline_not_mem_lines
      outlined'.newline_not_mem_lines eq)
  · intro same
    rw [Outline.render, outlined.lines_eq_of_sameNodes outlined' same, Outline.render]

end Outlined

/-- Neither the element nor the root is closed, and only the element is marked. -/
example : String.ofList (parse ['<', 'a', '>', 'b'] [] .xml).outline.render =
    "document [0, 4)\n  element a [0, 4) (unclosed)\n    text [3, 4)\n" := by decide +kernel

end Document

end TolerantXml
