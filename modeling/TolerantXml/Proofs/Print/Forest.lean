import TolerantXml.Scanner.Lexeme
import TolerantXml.Text.Blank
import TolerantXml.Tree.Document

/-!
# Forests and how they are printed

A forest is a sequence of elements, texts, comments, character data sections and instructions,
where the elements hold forests. Here is how it is printed, what makes it well formed, and which
nodes a document has that holds it: they are numbered in the order in which they are printed, and
each covers what it was printed to (`Forest.Laid`).
-/

namespace TolerantXml

/-- An item without children. -/
inductive Leaf where
  | text (content : Text)
  | comment (content : Text)
  | cdata (content : Text)
  | instruction (target data : Text)
  deriving DecidableEq, Repr

/-- The tags of an element. -/
structure Tag where
  name : Text
  /-- The names and values of the attributes. -/
  attributes : List (Text × Text)
  /-- Whether there is one tag only, which is closed at once. -/
  selfClosed : Bool
  deriving DecidableEq, Repr

/-- A sequence of items: the first one, and the forest of the others. -/
inductive Forest where
  | nil
  | leaf (first : Leaf) (rest : Forest)
  | element (tag : Tag) (children rest : Forest)
  deriving DecidableEq, Repr

/-! ### Printing -/

/-- The data of an instruction are set off from its target. -/
def Leaf.printData (data : Text) : Text := if data = [] then [] else ' ' :: data

/-- Whether an item is a text. -/
def Leaf.isText : Leaf → Bool
  | .text _ => true
  | _ => false

/-- The text of an item without children. -/
def Leaf.print : Leaf → Text
  | .text content => content
  | .comment content => Delimiter.commentOpen ++ content ++ Delimiter.commentClose
  | .cdata content => Delimiter.cdataOpen ++ content ++ Delimiter.cdataClose
  | .instruction target data =>
    Delimiter.instructionOpen ++ target ++ printData data ++ Delimiter.instructionClose

namespace Tag

/-- An attribute with the space in front of it. -/
def printAttribute (attr : Text × Text) : Text :=
  [' '] ++ attr.1 ++ ['='] ++ Text.quote Text.doubleQuote attr.2

/-- Attributes one behind the other. -/
def printAttributes (attributes : List (Text × Text)) : Text := attributes.flatMap printAttribute

/-- The start tag, up to its end. -/
def opening (tag : Tag) : Text := ['<'] ++ tag.name ++ printAttributes tag.attributes

/-- The end tag. -/
def ending (tag : Tag) : Text := Delimiter.endTagOpen ++ tag.name ++ ['>']

end Tag

namespace Forest

/-- The text of a forest. -/
def print : Forest → Text
  | .nil => []
  | .leaf first rest => first.print ++ rest.print
  | .element tag children rest =>
    tag.opening ++
      (if tag.selfClosed then Delimiter.emptyTagClose
        else ['>'] ++ children.print ++ tag.ending) ++
      rest.print

/-- The number of nodes. -/
def size : Forest → Nat
  | .nil => 0
  | .leaf _ rest => 1 + rest.size
  | .element _ children rest => 1 + children.size + rest.size

/-- A forest behind another. -/
def append : Forest → Forest → Forest
  | .nil, other => other
  | .leaf first rest, other => .leaf first (rest.append other)
  | .element tag children rest, other => .element tag children (rest.append other)

/-- Whether the first item is a text. -/
def startsWithText : Forest → Bool
  | .leaf first _ => first.isText
  | _ => false

end Forest

/-! ### Well-formed forests -/

/-- Whether a text is a character that may start a name, and characters that may stand in one. -/
def Text.isName : Text → Bool
  | [] => false
  | c :: rest => isNameStart c && rest.all isNameChar

/-- An instruction has a name other than that of the prolog, and nothing in a leaf ends it early. -/
def Leaf.WellFormed : Leaf → Prop
  | .text content => '<' ∉ content ∧ content.isBlank = false
  | .comment content => ¬ Delimiter.commentClose <:+: content
  | .cdata content => ¬ Delimiter.cdataClose <:+: content
  | .instruction target data =>
    target.isName = true ∧ target ≠ Keyword.xml ∧ (∀ c ∈ data.head?, isSpace c = false) ∧
      ¬ Delimiter.instructionClose <:+: data

/-- The name of an attribute is not empty and has no white space, quotation mark, angle bracket,
slash or assignment sign in it, and its value has no double quotation mark. -/
def Tag.IsAttribute (attr : Text × Text) : Prop :=
  attr.1 ≠ [] ∧ attr.1.all (Lexeme.isAttributeNameChar false) = true ∧ Text.doubleQuote ∉ attr.2

/-- The attributes of a tag have different names. -/
def Tag.WellFormed (tag : Tag) : Prop :=
  tag.name.isName = true ∧ (tag.attributes.map Prod.fst).Nodup ∧
    ∀ attr ∈ tag.attributes, IsAttribute attr

/-- No two texts are neighbours, and an element that is closed at once has no children. -/
def Forest.WellFormed : Forest → Prop
  | .nil => True
  | .leaf first rest =>
    first.WellFormed ∧ rest.WellFormed ∧ (first.isText = true → rest.startsWithText = false)
  | .element tag children rest =>
    tag.WellFormed ∧ (tag.selfClosed = true → children = .nil) ∧ children.WellFormed ∧
      rest.WellFormed

instance : DecidablePred Leaf.WellFormed
  | .text content => inferInstanceAs (Decidable ('<' ∉ content ∧ content.isBlank = false))
  | .comment content => inferInstanceAs (Decidable (¬ Delimiter.commentClose <:+: content))
  | .cdata content => inferInstanceAs (Decidable (¬ Delimiter.cdataClose <:+: content))
  | .instruction target data =>
    inferInstanceAs (Decidable (target.isName = true ∧ target ≠ Keyword.xml ∧
      (∀ c ∈ data.head?, isSpace c = false) ∧ ¬ Delimiter.instructionClose <:+: data))

instance : DecidablePred Tag.IsAttribute := fun attr ↦
  inferInstanceAs (Decidable (attr.1 ≠ [] ∧
    attr.1.all (Lexeme.isAttributeNameChar false) = true ∧ Text.doubleQuote ∉ attr.2))

instance : DecidablePred Tag.WellFormed := fun tag ↦
  inferInstanceAs (Decidable (tag.name.isName = true ∧ (tag.attributes.map Prod.fst).Nodup ∧
    ∀ attr ∈ tag.attributes, Tag.IsAttribute attr))

instance Forest.decidableWellFormed : DecidablePred Forest.WellFormed
  | .nil => isTrue trivial
  | .leaf first rest =>
    have := decidableWellFormed rest
    inferInstanceAs (Decidable (first.WellFormed ∧ rest.WellFormed ∧
      (first.isText = true → rest.startsWithText = false)))
  | .element tag children rest =>
    have := decidableWellFormed children
    have := decidableWellFormed rest
    inferInstanceAs (Decidable (tag.WellFormed ∧ (tag.selfClosed = true → children = .nil) ∧
      children.WellFormed ∧ rest.WellFormed))

/-! ### Documents that hold a forest -/

/-- The stretch between delimiters, if there is any. -/
def contentSpan (offset : Nat) (content : Text) : Option Span :=
  if content = [] then none else some ⟨offset, offset + content.byteSize⟩

/-- What the node of a leaf stands for that is printed at an offset. -/
def Leaf.kind (offset : Nat) (sameLine : Bool) : Leaf → NodeKind
  | .text _ => .text
  | .comment content =>
    .comment
      { content := contentSpan (offset + Delimiter.commentOpen.byteSize) content
        sameLine := sameLine }
  | .cdata content =>
    .cdata { content := contentSpan (offset + Delimiter.cdataOpen.byteSize) content }
  | .instruction target data =>
    .instruction
      { target := some target
        content := contentSpan
          (offset + Delimiter.instructionOpen.byteSize + target.byteSize + 1) data }

namespace Tag

/-- An attribute that is printed at an offset. -/
def attributeAt (offset : Nat) (attr : Text × Text) : Attribute :=
  let nameStop := offset + 1 + attr.1.byteSize
  { name := attr.1
    nameSpan := ⟨offset + 1, nameStop⟩
    value := some attr.2
    valueSpan := some ⟨nameStop + 1, offset + (printAttribute attr).byteSize⟩ }

/-- A name and a quoted value where they are printed are the attribute. -/
theorem withValue_quote (offset : Nat) (attr : Text × Text) :
    let nameSpan : Span := ⟨offset + 1, offset + 1 + attr.1.byteSize⟩
    let quoted := Text.quote Text.doubleQuote attr.2
    let valueStart := offset + Text.byteSize ([' '] ++ attr.1 ++ ['='])
    (Attribute.named attr.1 nameSpan).withValue quoted
        ⟨valueStart, valueStart + quoted.byteSize⟩ = attributeAt offset attr := by
  have space : Text.byteSize [' '] = 1 := rfl
  have assign : Text.byteSize ['='] = 1 := rfl
  have isQuote : Text.isQuote Text.doubleQuote = true := rfl
  simp only [Attribute.withValue, Text.unquote_quote isQuote, attributeAt, printAttribute,
    Attribute.named, Text.byteSize_append, space, assign, ← Nat.add_assoc]

/-- Attributes that are printed from an offset on. -/
def attributesAt (offset : Nat) : List (Text × Text) → List Attribute
  | [] => []
  | attr :: rest =>
    attributeAt offset attr :: attributesAt (offset + (printAttribute attr).byteSize) rest

/-- The element of a start tag that is printed at an offset, as far as `>` or `/>`. -/
def opened (tag : Tag) (offset : Nat) : Element where
  tagName := some tag.name
  attributes := attributesAt (offset + 1 + tag.name.byteSize) tag.attributes
  startTagOpen := some offset

/-- The element of tags that are printed at an offset, with a forest between them. -/
def element (tag : Tag) (offset : Nat) (children : Forest) : Element :=
  let inner := offset + tag.opening.byteSize
  let outer := inner + 1 + children.print.byteSize
  if tag.selfClosed then { tag.opened offset with selfClosed := true }
  else
    { tag.opened offset with
      startTagClose := some inner
      endTagOpen := some outer
      endTagClose := some (outer + Delimiter.endTagOpen.byteSize + tag.name.byteSize) }

theorem attributesAt_pairs (offset : Nat) (attributes : List (Text × Text)) :
    (attributesAt offset attributes).map (fun attr ↦ (attr.name, attr.value.getD [])) =
      attributes := by
  induction attributes generalizing offset with
  | nil => rfl
  | cons attr rest ih =>
    rw [attributesAt, List.map_cons, ih]
    rfl

@[simp] theorem tagName_element (tag : Tag) (offset : Nat) (children : Forest) :
    (tag.element offset children).tagName = some tag.name := by
  rw [element]
  split <;> rfl

@[simp] theorem attributes_element (tag : Tag) (offset : Nat) (children : Forest) :
    (tag.element offset children).attributes =
      attributesAt (offset + 1 + tag.name.byteSize) tag.attributes := by
  rw [element]
  split <;> rfl

@[simp] theorem selfClosed_element (tag : Tag) (offset : Nat) (children : Forest) :
    (tag.element offset children).selfClosed = tag.selfClosed := by
  unfold element
  split
  · next selfClosed => exact selfClosed.symm
  · next notSelfClosed => exact (Bool.eq_false_iff.2 notSelfClosed).symm

end Tag

namespace Forest

/-- The numbers of the nodes of the items, where the first one has some number. -/
def roots : Forest → Nat → List Nat
  | .nil, _ => []
  | .leaf _ rest, id => id :: rest.roots (id + 1)
  | .element _ children rest, id => id :: rest.roots (id + 1 + children.size)

/-- A document has the nodes of a forest as children of a node, from some number on, and they are
those of the forest printed at some offset. -/
def Laid (doc : Document) : Forest → Nat → Nat → Nat → Prop
  | .nil, _, _, _ => True
  | .leaf first rest, parent, id, offset =>
    let stop := offset + first.print.byteSize
    (∃ sameLine, doc.node id = ⟨first.kind offset sameLine, offset, stop, true, some parent, []⟩) ∧
      rest.Laid doc parent (id + 1) stop
  | .element tag children rest, parent, id, offset =>
    let stop := offset + (element tag children nil).print.byteSize
    doc.node id =
        ⟨.element (tag.element offset children), offset, stop, true, some parent,
          children.roots (id + 1)⟩ ∧
      children.Laid doc id (id + 1) (offset + tag.opening.byteSize + 1) ∧
      rest.Laid doc parent (id + 1 + children.size) stop

variable {doc doc' : Document} (first second : Forest) {parent id offset : Nat}

theorem print_leaf (leaf : Leaf) : (Forest.leaf leaf nil).print = leaf.print := by
  rw [print, print, List.append_nil]

theorem print_selfClosed {tag : Tag} (selfClosed : tag.selfClosed = true) (children : Forest) :
    (element tag children nil).print = tag.opening ++ Delimiter.emptyTagClose := by
  rw [print, if_pos selfClosed, print, List.append_nil]

theorem print_element {tag : Tag} (notSelfClosed : tag.selfClosed = false) (children : Forest) :
    (element tag children nil).print =
      tag.opening ++ ['>'] ++ children.print ++ tag.ending := by
  rw [print, notSelfClosed, if_neg Bool.false_ne_true, print, List.append_nil]
  simp only [List.append_assoc]

theorem print_append : (first.append second).print = first.print ++ second.print := by
  induction first with
  | nil => rfl
  | leaf first rest ih => rw [append, print, ih, print, List.append_assoc]
  | element tag children rest _ ih => simp only [append, print, ih, List.append_assoc]

theorem size_append : (first.append second).size = first.size + second.size := by
  induction first with
  | nil => rw [append, size, Nat.zero_add]
  | leaf first rest ih => rw [append, size, ih, size, Nat.add_assoc]
  | element tag children rest _ ih =>
    rw [append, size, ih, size]
    omega

theorem roots_append (id : Nat) :
    (first.append second).roots id = first.roots id ++ second.roots (id + first.size) := by
  induction first generalizing id with
  | nil => rfl
  | leaf first rest ih => rw [append, roots, ih, roots, size, List.cons_append, Nat.add_assoc]
  | element tag children rest _ ih =>
    rw [append, roots, ih, roots, size, List.cons_append]
    congr 3
    omega

/-- A forest behind another has its nodes behind those of the other. -/
theorem laid_append (parent id offset : Nat) :
    (first.append second).Laid doc parent id offset ↔
      first.Laid doc parent id offset ∧
        second.Laid doc parent (id + first.size) (offset + first.print.byteSize) := by
  induction first generalizing id offset with
  | nil => simp [append, Laid, size, print]
  | leaf first rest ih =>
    simp only [append, Laid, ih, size, print, Text.byteSize_append, Nat.add_assoc, and_assoc]
  | element tag children rest _ ih =>
    simp only [append, Laid, ih, size, print, Text.byteSize_append, Nat.add_assoc, and_assoc,
      Text.byteSize_nil, Nat.add_zero]

/-- Nodes outside a forest do not matter to it. -/
theorem Laid.congr (h : first.Laid doc parent id offset)
    (same : ∀ other, id ≤ other → other < id + first.size → doc'.node other = doc.node other) :
    first.Laid doc' parent id offset := by
  induction first generalizing parent id offset with
  | nil => trivial
  | leaf first rest ih =>
    obtain ⟨⟨sameLine, node⟩, others⟩ := h
    rw [size] at same
    refine ⟨⟨sameLine, ?_⟩, ih others fun other ge lt ↦ same other (by omega) (by omega)⟩
    rw [same id (by omega) (by omega), node]
  | element tag children rest ihChildren ih =>
    obtain ⟨node, inner, others⟩ := h
    rw [size] at same
    refine ⟨?_, ?_, ?_⟩
    · rw [same id (by omega) (by omega), node]
    · exact ihChildren inner fun other ge lt ↦ same other (by omega) (by omega)
    · exact ih others fun other ge lt ↦ same other (by omega) (by omega)

end Forest

end TolerantXml
