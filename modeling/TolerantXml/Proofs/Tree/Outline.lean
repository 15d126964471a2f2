import TolerantXml.Markup.Name
import TolerantXml.Proofs.Tree.Preorder
import TolerantXml.Tree.Outline

/-!
# Outlines of linked documents

An outline has one line for each node, in the order of their numbers (`lines_outline`). A line can
be cut into what it says of its node, as long as nothing in it can be taken for one of the
characters between its parts (`OutlineEntry.Plain`), and lines without a line break can be cut
apart (`unlines_inj`). The depths of the nodes tell their parents (`parent_eq_of_depth`).
-/

namespace TolerantXml

/-! ### Cutting texts -/

/-- Whether a text has no white space and no square bracket. -/
def Text.isPlain (text : Text) : Bool := text.all fun c ↦ !isSpace c && c != '[' && c != ']'

namespace Text

variable {first second behind behind' : Text} {c : Char} {lines lines' : List Text}

/-- What is in front of the first place of a character, and what is behind it. -/
private theorem append_cons_inj (notFirst : c ∉ first) (notSecond : c ∉ second)
    (eq : first ++ c :: behind = second ++ c :: behind') : first = second ∧ behind = behind' := by
  induction first generalizing second with
  | nil =>
    cases second with
    | nil => exact ⟨rfl, (List.cons.inj eq).2⟩
    | cons d second => exact absurd (List.cons.inj eq).1 (List.ne_of_not_mem_cons notSecond)
  | cons d first ih =>
    cases second with
    | nil => exact absurd (List.cons.inj eq).1.symm (List.ne_of_not_mem_cons notFirst)
    | cons e second =>
      obtain ⟨same, eq⟩ := List.cons.inj eq
      obtain ⟨rest, behind⟩ := ih (List.not_mem_of_not_mem_cons notFirst)
        (List.not_mem_of_not_mem_cons notSecond) eq
      exact ⟨by rw [same, rest], behind⟩

/-- How often a character is repeated in front of something else, and what that is. -/
private theorem replicate_append_inj {m n : Nat} (notFirst : first.head? ≠ some c)
    (notSecond : second.head? ≠ some c)
    (eq : List.replicate m c ++ first = List.replicate n c ++ second) :
    m = n ∧ first = second := by
  induction m generalizing n with
  | zero =>
    cases n with
    | zero => exact ⟨rfl, eq⟩
    | succ n =>
      rw [List.replicate_zero, List.nil_append] at eq
      exact absurd (by rw [eq]; rfl) notFirst
  | succ m ih =>
    cases n with
    | zero =>
      rw [List.replicate_zero, List.nil_append] at eq
      exact absurd (by rw [← eq]; rfl) notSecond
    | succ n =>
      obtain ⟨same, rest⟩ := ih (List.cons.inj eq).2
      exact ⟨by rw [same], rest⟩

/-- Lines that each end with a line break and have no other. -/
theorem unlines_inj (whole : ∀ line ∈ lines, '\n' ∉ line) (whole' : ∀ line ∈ lines', '\n' ∉ line)
    (eq : lines.flatMap (· ++ ['\n']) = lines'.flatMap (· ++ ['\n'])) : lines = lines' := by
  induction lines generalizing lines' with
  | nil =>
    cases lines' with
    | nil => rfl
    | cons line lines' => simp at eq
  | cons line lines ih =>
    cases lines' with
    | nil => simp at eq
    | cons line' lines' =>
      simp only [List.flatMap_cons, List.append_assoc, List.singleton_append] at eq
      obtain ⟨wholeLine, whole⟩ := List.forall_mem_cons.1 whole
      obtain ⟨wholeLine', whole'⟩ := List.forall_mem_cons.1 whole'
      obtain ⟨same, eq⟩ := append_cons_inj wholeLine wholeLine' eq
      rw [same, ih whole whole' eq]

theorem count_unlines (whole : ∀ line ∈ lines, '\n' ∉ line) :
    (lines.flatMap (· ++ ['\n'])).count '\n' = lines.length := by
  induction lines with
  | nil => rfl
  | cons line lines ih =>
    obtain ⟨wholeLine, whole⟩ := List.forall_mem_cons.1 whole
    rw [List.flatMap_cons, List.count_append, List.count_append, ih whole,
      List.count_eq_zero.2 wholeLine, List.length_cons, List.count_singleton_self]
    omega

private theorem not_mem_of_isPlain (plain : isPlain first = true)
    (separates : isSpace c = true ∨ c = '[' ∨ c = ']') : c ∉ first := by
  intro mem
  have inside := List.all_eq_true.1 plain c mem
  rcases separates with isSpace | rfl | rfl
  · simp [isSpace] at inside
  · simp at inside
  · simp at inside

/-- Nothing but digits is in a number. -/
private theorem not_mem_toString (n : Nat) (notDigit : c.isDigit = false) :
    c ∉ (toString n).toList := by
  intro mem
  rw [Nat.toString_eq_repr, Nat.toList_repr] at mem
  rw [Nat.isDigit_of_mem_toDigits (by decide) (by decide) mem] at notDigit
  cases notDigit

private theorem toString_inj {m n : Nat} (eq : (toString m).toList = (toString n).toList) :
    m = n := by
  simp only [Nat.toString_eq_repr, Nat.toList_repr] at eq
  rw [← @Nat.ofDigitChars_ten_toDigits m, eq, Nat.ofDigitChars_ten_toDigits]

end Text

/-! ### Lines -/

/-- What a node is called in an outline tells which construct it is. -/
theorem NodeKind.label_eq_iff {kind kind' : NodeKind} : kind.label = kind'.label ↔
    kind.frame = kind'.frame ∧ kind.isProlog = kind'.isProlog := by
  cases kind <;> cases kind' <;> grind [label, frame, isProlog, instruction?]

namespace OutlineEntry

variable {first second entry : OutlineEntry} {depth depth' : Nat}

/-- Whether no part of an entry can be taken for what stands between the parts. -/
structure Plain (entry : OutlineEntry) : Prop where
  label_ne_nil : entry.label.toList ≠ []
  label : Text.isPlain entry.label.toList = true
  name : ∀ name, entry.name = some name → name.isPlain = true

/-- The name in a line with the space behind it. -/
def nameField (entry : OutlineEntry) : Text := entry.name.elim [] (· ++ [' '])

/-- What is behind the closing bracket of a line. -/
def mark (entry : OutlineEntry) (depth : Nat) : Text :=
  if entry.closed || depth == 0 then [] else " (unclosed)".toList

/-- A line and the characters at which it can be cut. -/
private theorem line_eq (entry : OutlineEntry) (depth : Nat) : entry.line depth =
    List.replicate (2 * depth) ' ' ++ (entry.label.toList ++ ' ' :: (entry.nameField ++ '[' ::
      ((toString entry.span.start).toList ++ ',' :: ' ' ::
        ((toString entry.span.stop).toList ++ ')' :: entry.mark depth)))) := by
  have beforeStart : " [".toList = [' ', '['] := rfl
  have beforeStop : ", ".toList = [',', ' '] := rfl
  have behindStop : ")".toList = [')'] := rfl
  rw [line, nameField, mark, beforeStart, beforeStop, behindStop]
  cases entry.name with
  | none => simp only [Option.map_none, Option.getD_none, Option.elim_none, List.append_assoc,
      List.cons_append, List.nil_append]
  | some name => simp only [Option.map_some, Option.getD_some, Option.elim_some, List.append_assoc,
      List.cons_append, List.nil_append]

namespace Plain

variable (plain : entry.Plain)
include plain

private theorem bracket_not_mem_nameField : '[' ∉ entry.nameField := by
  rw [nameField]
  cases isName : entry.name with
  | none => exact List.not_mem_nil
  | some name =>
    have notName : '[' ∉ name := Text.not_mem_of_isPlain (plain.name name isName) (.inr (.inl rfl))
    simpa using notName

theorem newline_not_mem_line (depth : Nat) : '\n' ∉ entry.line depth := by
  have notLabel : '\n' ∉ entry.label.toList := Text.not_mem_of_isPlain plain.label (.inl rfl)
  have notName : '\n' ∉ entry.nameField := by
    rw [nameField]
    cases isName : entry.name with
    | none => exact List.not_mem_nil
    | some name =>
      have notName : '\n' ∉ name := Text.not_mem_of_isPlain (plain.name name isName) (.inl rfl)
      simpa using notName
  have notMark : '\n' ∉ entry.mark depth := by
    rw [mark]
    split <;> decide
  have notStart := Text.not_mem_toString (c := '\n') entry.span.start rfl
  have notStop := Text.not_mem_toString (c := '\n') entry.span.stop rfl
  rw [line_eq]
  simp only [List.mem_append, List.mem_cons, notLabel, notName, notMark, notStart, notStop,
    false_or, or_false]
  intro mem
  rcases mem with mem | isChar
  · cases List.eq_of_mem_replicate mem
  · revert isChar
    decide

private theorem head?_ne_space (behind : Text) :
    (entry.label.toList ++ behind).head? ≠ some ' ' := by
  obtain ⟨c, rest, isLabel⟩ := List.exists_cons_of_ne_nil plain.label_ne_nil
  intro head
  have notLabel : ' ' ∉ entry.label.toList := Text.not_mem_of_isPlain plain.label (.inl rfl)
  rw [isLabel, List.cons_append, List.head?_cons, Option.some.injEq] at head
  rw [isLabel, head] at notLabel
  exact notLabel List.mem_cons_self

end Plain

private theorem nameField_inj (eq : first.nameField = second.nameField) :
    first.name = second.name := by
  rw [nameField, nameField] at eq
  cases isFirst : first.name <;> cases isSecond : second.name <;> simp_all

private theorem closed_eq_of_mark_eq (notRoot : depth ≠ 0)
    (eq : first.mark depth = second.mark depth) : first.closed = second.closed := by
  rw [mark, mark] at eq
  cases isFirst : first.closed <;> cases isSecond : second.closed <;> simp_all

/-- A line tells the depth and all of the entry, but for what is not written at the root. -/
theorem Plain.line_inj (plain : first.Plain) (plain' : second.Plain)
    (eq : first.line depth = second.line depth') :
    depth = depth' ∧ first.label = second.label ∧ first.name = second.name ∧
      first.span = second.span ∧ (depth ≠ 0 → first.closed = second.closed) := by
  rw [line_eq, line_eq] at eq
  obtain ⟨twice, eq⟩ :=
    Text.replicate_append_inj (plain.head?_ne_space _) (plain'.head?_ne_space _) eq
  obtain rfl : depth = depth' := by omega
  obtain ⟨label, eq⟩ := Text.append_cons_inj (Text.not_mem_of_isPlain plain.label (.inl rfl))
    (Text.not_mem_of_isPlain plain'.label (.inl rfl)) eq
  obtain ⟨name, eq⟩ := Text.append_cons_inj plain.bracket_not_mem_nameField
    plain'.bracket_not_mem_nameField eq
  obtain ⟨start, eq⟩ := Text.append_cons_inj (Text.not_mem_toString _ rfl)
    (Text.not_mem_toString _ rfl) eq
  obtain ⟨stop, mark⟩ := Text.append_cons_inj (Text.not_mem_toString _ rfl)
    (Text.not_mem_toString _ rfl) (List.cons.inj eq).2
  have span : first.span = second.span := by
    have starts : first.span.start = second.span.start := Text.toString_inj start
    have stops : first.span.stop = second.span.stop := Text.toString_inj stop
    cases isFirst : first.span
    cases isSecond : second.span
    simp_all
  exact ⟨rfl, String.toList_inj.1 label, nameField_inj name, span,
    fun notRoot ↦ closed_eq_of_mark_eq notRoot mark⟩

end OutlineEntry

/-! ### The lines of a document -/

private theorem Outline.entriesOfAll_eq (depth : Nat) (outlines : List Outline) :
    entriesOfAll depth outlines = outlines.flatMap (entriesFrom depth) := by
  induction outlines with
  | nil => rfl
  | cons first rest ih => rw [entriesOfAll, ih, List.flatMap_cons]

namespace Document

variable {doc doc' : Document} {id other parent : Nat}

/-- How many nodes are around a node. -/
def depth (doc : Document) (id : Nat) : Nat := (doc.ancestors id).length

namespace Linked

variable (linked : doc.Linked)
include linked

theorem depth_root : doc.depth root = 0 := by
  rw [depth, ancestors_of_none linked.root_parent]
  rfl

private theorem depth_of_parent (hasParent : (doc.node id).parent = some parent) :
    doc.depth id = doc.depth parent + 1 := by
  rw [depth, ancestors_of_parent hasParent (linked.parent_lt hasParent).1, List.length_cons, depth]

theorem depth_eq_zero (lt : id < doc.count) : doc.depth id = 0 ↔ id = root := by
  constructor
  · intro isZero
    by_contra notRoot
    obtain ⟨parent, -, hasParent⟩ := linked.exists_parent id lt notRoot
    rw [linked.depth_of_parent hasParent] at isZero
    omega
  · rintro rfl
    exact linked.depth_root

/-- Every child has its place in an outline. -/
private theorem outlineFrom_eq (id : Nat) : doc.outlineFrom id =
    .node (doc.node id).outlineEntry ((doc.children id).map doc.outlineFrom) := by
  rw [outlineFrom]
  congr 1
  rw [List.map_eq_flatMap]
  apply List.flatMap_congr
  intro child mem
  rw [dif_pos (linked.lt_of_mem_children mem)]

/-- The entries of an outline are those of the descendants, with their depths. -/
private theorem entriesFrom_outlineFrom (id : Nat) :
    Outline.entriesFrom (doc.depth id) (doc.outlineFrom id) =
      (doc.descendants id).map fun below ↦ (doc.depth below, (doc.node below).outlineEntry) := by
  induction id using linked.childInduction with
  | step id ih =>
    rw [linked.outlineFrom_eq, Outline.entriesFrom, Outline.entriesOfAll_eq, List.flatMap_map,
      linked.descendants_cons, List.map_cons, List.map_flatMap]
    congr 1
    apply List.flatMap_congr
    intro child mem
    rw [← linked.depth_of_parent ((linked.mem_children id child).1 mem).2]
    exact ih child mem

/-- An outline has one line for each node, in the order of their numbers. -/
theorem lines_outline (contiguous : doc.Contiguous) : doc.outline.lines =
    (List.range doc.count).map fun id ↦ (doc.node id).outlineEntry.line (doc.depth id) := by
  have entries := linked.entriesFrom_outlineFrom root
  rw [linked.depth_root, linked.descendants_root contiguous] at entries
  rw [Outline.lines, outline, entries, List.map_map]
  rfl

/-! ### Parents -/

/-- Between a node and its parent there are only nodes at least as deep as the node. -/
private theorem depth_le_of_between (contiguous : doc.Contiguous)
    (hasParent : (doc.node id).parent = some parent) (above : parent < other) (below : other < id) :
    doc.depth id ≤ doc.depth other := by
  have lt : id < doc.count := (linked.parent_lt hasParent).2
  have onPath : parent ∈ doc.path id := by
    rw [linked.path_cons hasParent]
    exact List.mem_cons_of_mem _ mem_path_self
  have around : parent ∈ doc.path other :=
    contiguous id lt parent onPath other (Nat.le_of_lt above) (Nat.le_of_lt below)
  obtain ⟨child, isChild, childOnPath⟩ :=
    linked.exists_child_mem_path (Nat.lt_trans below lt) around (Nat.ne_of_lt above)
  have suffix := (linked.path_suffix (Nat.lt_trans below lt) childOnPath).length_le
  rw [path, path, List.length_cons, List.length_cons] at suffix
  rw [linked.depth_of_parent hasParent,
    ← linked.depth_of_parent ((linked.mem_children parent child).1 isChild).2]
  exact Nat.le_of_succ_le_succ suffix

/-- The parent of a node is the last one before it that is less deep, so depths tell parents. -/
theorem parent_eq_of_depth (contiguous : doc.Contiguous) (linked' : doc'.Linked)
    (contiguous' : doc'.Contiguous) (count : doc.count = doc'.count)
    (depths : ∀ id < doc.count, doc.depth id = doc'.depth id) (lt : id < doc.count) :
    (doc.node id).parent = (doc'.node id).parent := by
  by_cases isRoot : id = root
  · rw [isRoot, linked.root_parent, linked'.root_parent]
  · obtain ⟨parent, less, hasParent⟩ := linked.exists_parent id lt isRoot
    obtain ⟨parent', less', hasParent'⟩ := linked'.exists_parent id (count ▸ lt) isRoot
    have depth := linked.depth_of_parent hasParent
    have depth' := linked'.depth_of_parent hasParent'
    have same := depths id lt
    rw [hasParent, hasParent', Option.some.injEq]
    rcases Nat.lt_trichotomy parent parent' with before | eq | behind
    · have deep := linked.depth_le_of_between contiguous hasParent before less'
      have atParent := depths parent' (Nat.lt_trans less' lt)
      omega
    · exact eq
    · have deep := linked'.depth_le_of_between contiguous' hasParent' behind less
      have atParent := depths parent (Nat.lt_trans less lt)
      omega

/-- Nodes with the same parents are equally deep. -/
theorem depth_eq_of_parent (linked' : doc'.Linked)
    (parents : ∀ id < doc.count, (doc.node id).parent = (doc'.node id).parent)
    (lt : id < doc.count) : doc.depth id = doc'.depth id := by
  induction id using Nat.strongRecOn with
  | ind id ih =>
    by_cases isRoot : id = root
    · rw [isRoot, linked.depth_root, linked'.depth_root]
    · obtain ⟨parent, less, hasParent⟩ := linked.exists_parent id lt isRoot
      rw [linked.depth_of_parent hasParent,
        linked'.depth_of_parent ((parents id lt).symm.trans hasParent),
        ih parent less (Nat.lt_trans less lt)]

end Linked

end Document

end TolerantXml
