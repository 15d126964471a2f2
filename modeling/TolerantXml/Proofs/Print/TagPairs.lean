import TolerantXml.Proofs.Print.ReadBack

/-!
# The tags of a printed forest

Where the tags of the elements that have two are printed (`Forest.tagPairs`). Texts may be
neighbours here; joined, they are printed to the same text with the same tags, and the forest is
well formed (`Forest.ItemsWellFormed.joinTexts`).
-/

namespace TolerantXml

/-- The name of an element, and the offsets at which its two tags are printed. -/
structure TagPair where
  name : Text
  startTag : Nat
  endTag : Nat
  deriving DecidableEq, Repr

/-- The offset of the name in the start tag. -/
def TagPair.startName (pair : TagPair) : Nat := pair.startTag + 1

/-- The offset of the name in the end tag. -/
def TagPair.endName (pair : TagPair) : Nat := pair.endTag + Delimiter.endTagOpen.byteSize

theorem TagPair.startName_eq (pair : TagPair) : pair.startName = pair.startTag + 1 := rfl

theorem TagPair.endName_eq (pair : TagPair) : pair.endName = pair.endTag + 2 := rfl

/-- Whether an offset is in one of the names or right behind it. -/
def TagPair.Covers (pair : TagPair) (offset : Nat) : Prop :=
  ∃ distance ≤ pair.name.byteSize,
    offset = pair.startName + distance ∨ offset = pair.endName + distance

instance (pair : TagPair) : DecidablePred pair.Covers := fun offset ↦
  decidable_of_iff (∃ distance, distance < pair.name.byteSize + 1 ∧
    (offset = pair.startName + distance ∨ offset = pair.endName + distance))
    (exists_congr fun _ ↦ and_congr_left' Nat.lt_succ_iff)

/-- The tags of an element that is printed at an offset, with a forest between them. -/
def Tag.pair (tag : Tag) (offset : Nat) (children : Forest) : TagPair :=
  ⟨tag.name, offset, offset + tag.opening.byteSize + 1 + children.print.byteSize⟩

namespace Tag

variable (tag : Tag) (offset : Nat) (children : Forest)

@[simp] theorem startTagOpen_element :
    (tag.element offset children).startTagOpen = some offset := by
  unfold element
  split <;> rfl

/-- An element has an end tag if it is not closed at once. -/
theorem endTagOpen_element : (tag.element offset children).endTagOpen =
    if tag.selfClosed then none else some (tag.pair offset children).endTag := by
  unfold element
  split <;> rfl

theorem startName_pair_le :
    (tag.pair offset children).startName + tag.name.byteSize ≤ offset + tag.opening.byteSize := by
  have size : tag.opening.byteSize =
      1 + tag.name.byteSize + (printAttributes tag.attributes).byteSize := by
    rw [opening, Text.byteSize_append, Text.byteSize_append]
    rfl
  simp only [TagPair.startName_eq, pair, size]
  omega

/-- Behind the name of its end tag an element ends with the end of the tag. -/
theorem endName_pair_add (notSelfClosed : tag.selfClosed = false) :
    (tag.pair offset children).endName + tag.name.byteSize + 1 =
      offset + (Forest.element tag children .nil).print.byteSize := by
  have close : Text.byteSize ['>'] = 1 := rfl
  rw [Forest.print_element notSelfClosed, ending]
  simp only [Text.byteSize_append, TagPair.endName, pair, close]
  omega

end Tag

namespace Forest

/-- The tags of the elements that have two, in a forest that is printed at an offset. -/
def tagPairs : Forest → Nat → List TagPair
  | .nil, _ => []
  | .leaf first rest, offset => rest.tagPairs (offset + first.print.byteSize)
  | .element tag children rest, offset =>
    (if tag.selfClosed then []
      else tag.pair offset children ::
        children.tagPairs (offset + tag.opening.byteSize + 1)) ++
      rest.tagPairs (offset + (element tag children nil).print.byteSize)

/-- Whether the items of a forest are well formed, where texts may be neighbours. -/
def ItemsWellFormed : Forest → Prop
  | .nil => True
  | .leaf first rest => first.WellFormed ∧ rest.ItemsWellFormed
  | .element tag children rest =>
    tag.WellFormed ∧ (tag.selfClosed = true → children = .nil) ∧ children.ItemsWellFormed ∧
      rest.ItemsWellFormed

instance decidableItemsWellFormed : DecidablePred ItemsWellFormed
  | .nil => isTrue trivial
  | .leaf first rest =>
    have := decidableItemsWellFormed rest
    inferInstanceAs (Decidable (first.WellFormed ∧ rest.ItemsWellFormed))
  | .element tag children rest =>
    have := decidableItemsWellFormed children
    have := decidableItemsWellFormed rest
    inferInstanceAs (Decidable (tag.WellFormed ∧ (tag.selfClosed = true → children = .nil) ∧
      children.ItemsWellFormed ∧ rest.ItemsWellFormed))

variable {forest : Forest} {pair : TagPair}

/-! ### Where tags are printed -/

theorem print_element_append (tag : Tag) (children rest : Forest) :
    (element tag children rest).print = (element tag children nil).print ++ rest.print := by
  simp only [print, List.append_nil]

/-- The tags of an element are where its pair says. -/
private theorem slice?_pair {tag : Tag} (notSelfClosed : tag.selfClosed = false) (before : Text)
    (children : Forest) (after : Text) :
    let text := before ++ (element tag children nil).print ++ after
    let pair := tag.pair before.byteSize children
    text.slice? pair.startTag (pair.startName + pair.name.byteSize) = some (['<'] ++ pair.name) ∧
      text.slice? pair.endTag (pair.endName + pair.name.byteSize) =
        some (Delimiter.endTagOpen ++ pair.name) := by
  intro text pair
  have isText : text =
      before ++ (tag.opening ++ ['>'] ++ children.print ++ tag.ending) ++ after := by
    rw [← print_element notSelfClosed]
  have open_size : Text.byteSize ['<'] = 1 := rfl
  have close_size : Text.byteSize ['>'] = 1 := rfl
  constructor
  · refine Text.slice?_eq_some_iff.2 ⟨before, Tag.printAttributes tag.attributes ++ ['>'] ++
      children.print ++ tag.ending ++ after, ?_, rfl, ?_⟩
    · rw [isText, Tag.opening]
      simp only [List.append_assoc]
      rfl
    · rw [Text.byteSize_append, TagPair.startName, open_size, Nat.add_assoc]
  · refine Text.slice?_eq_some_iff.2 ⟨before ++ tag.opening ++ ['>'] ++ children.print,
      ['>'] ++ after, ?_, ?_, ?_⟩
    · rw [isText, Tag.ending]
      simp only [List.append_assoc]
      rfl
    · simp only [Text.byteSize_append, close_size]
      rfl
    · rw [Text.byteSize_append, TagPair.endName, Nat.add_assoc]

/-- The names of the tags are in the text where the pairs say, behind the delimiters. -/
theorem slice?_of_mem_tagPairs (forest : Forest) (before after : Text)
    (mem : pair ∈ forest.tagPairs before.byteSize) :
    (before ++ forest.print ++ after).slice? pair.startTag
        (pair.startName + pair.name.byteSize) = some (['<'] ++ pair.name) ∧
      (before ++ forest.print ++ after).slice? pair.endTag
        (pair.endName + pair.name.byteSize) = some (Delimiter.endTagOpen ++ pair.name) := by
  induction forest generalizing before after with
  | nil => cases mem
  | leaf first rest ih =>
    rw [tagPairs, ← Text.byteSize_append] at mem
    rw [print, ← List.append_assoc]
    exact ih _ _ mem
  | element tag children rest ihChildren ih =>
    have text : before ++ (element tag children rest).print ++ after =
        before ++ (element tag children nil).print ++ (rest.print ++ after) := by
      rw [print_element_append]
      simp only [List.append_assoc]
    rw [tagPairs, List.mem_append] at mem
    rcases mem with inside | behind
    · cases selfClosed : tag.selfClosed with
      | true => simp [selfClosed] at inside
      | false =>
        rw [selfClosed, if_neg Bool.false_ne_true, List.mem_cons] at inside
        rcases inside with rfl | inside
        · rw [text]
          exact slice?_pair selfClosed before children _
        · have textInside : before ++ (element tag children rest).print ++ after =
              before ++ tag.opening ++ ['>'] ++ children.print ++
                (tag.ending ++ (rest.print ++ after)) := by
            rw [text, print_element selfClosed]
            simp only [List.append_assoc]
          rw [← size_inside] at inside
          rw [textInside]
          exact ihChildren _ _ inside
    · rw [← Text.byteSize_append] at behind
      rw [text, ← List.append_assoc]
      exact ih _ _ behind

/-! ### Neighbouring texts -/

/-- A leaf in front of a forest, where a text takes the text behind it. -/
def joinFirst : Leaf → Forest → Forest
  | .text content, .leaf (.text more) rest => .leaf (.text (content ++ more)) rest
  | first, rest => .leaf first rest

/-- A forest in which texts that are neighbours are one text. -/
def joinTexts : Forest → Forest
  | .nil => .nil
  | .leaf first rest => joinFirst first rest.joinTexts
  | .element tag children rest => .element tag children.joinTexts rest.joinTexts

private theorem print_joinFirst (first : Leaf) (rest : Forest) :
    (joinFirst first rest).print = first.print ++ rest.print := by
  unfold joinFirst
  split
  · simp only [print, Leaf.print, List.append_assoc]
  · rfl

theorem print_joinTexts (forest : Forest) : forest.joinTexts.print = forest.print := by
  induction forest with
  | nil => rfl
  | leaf first rest ih => rw [joinTexts, print_joinFirst, ih, print]
  | element tag children rest ihChildren ih => rw [joinTexts, print, print, ihChildren, ih]

private theorem tagPairs_joinFirst (first : Leaf) (rest : Forest) (offset : Nat) :
    (joinFirst first rest).tagPairs offset =
      rest.tagPairs (offset + first.print.byteSize) := by
  unfold joinFirst
  split
  · simp only [tagPairs, Leaf.print, Text.byteSize_append, Nat.add_assoc]
  · rfl

theorem tagPairs_joinTexts (forest : Forest) (offset : Nat) :
    forest.joinTexts.tagPairs offset = forest.tagPairs offset := by
  induction forest generalizing offset with
  | nil => rfl
  | leaf first rest ih => rw [joinTexts, tagPairs_joinFirst, ih, tagPairs]
  | element tag children rest ihChildren ih =>
    have same : (element tag children.joinTexts nil).print = (element tag children nil).print := by
      simp only [print, print_joinTexts]
    rw [joinTexts, tagPairs, tagPairs, ihChildren, ih, same, Tag.pair, Tag.pair, print_joinTexts]

private theorem wellFormed_joinFirst {first : Leaf} {rest : Forest} (isFirst : first.WellFormed)
    (isRest : rest.WellFormed) : (joinFirst first rest).WellFormed := by
  unfold joinFirst
  split
  · next content more rest =>
    obtain ⟨isMore, others, notText⟩ := isRest
    refine ⟨⟨?_, ?_⟩, others, notText⟩
    · simp [isFirst.1, isMore.1]
    · rw [Text.isBlank, List.all_append, ← Text.isBlank, isFirst.2, Bool.false_and]
  · next notBoth =>
    refine ⟨isFirst, isRest, fun isText ↦ ?_⟩
    cases first with
    | text content =>
      cases rest with
      | leaf second rest =>
        cases second with
        | text more => exact (notBoth content more rest rfl rfl).elim
        | _ => rfl
      | _ => rfl
    | _ => cases isText

/-- Joining texts makes a forest well formed, if its items are. -/
theorem ItemsWellFormed.joinTexts (wellFormed : forest.ItemsWellFormed) :
    forest.joinTexts.WellFormed := by
  induction forest with
  | nil => trivial
  | leaf first rest ih => exact wellFormed_joinFirst wellFormed.1 (ih wellFormed.2)
  | element tag children rest ihChildren ih =>
    obtain ⟨isTag, empty, isChildren, isRest⟩ := wellFormed
    refine ⟨isTag, fun selfClosed ↦ ?_, ihChildren isChildren, ih isRest⟩
    rw [empty selfClosed]
    rfl

end Forest

end TolerantXml
