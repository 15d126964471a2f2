import TolerantXml.Proofs.Reading.Openings

/-!
# What the name of an end tag changes

The name of an end tag is looked for on the path of the current node (`IsElementNamed`). The nearest
element of the name is closed, and the nodes open in it end where the end tag was opened
(`closesElement_nameEndTag`). If no element has the name, every open node ends there, and the end
tag gets an element of its own (`addsElement_nameEndTag`). Both are statements about every node of
the document and about all that the builder remembers, and hold behind any tokens
(`apply_endTag`).
-/

namespace TolerantXml

/-- Letter case is all that may tell two tag names apart. -/
private theorem sameTagName_iff (first second : Text) :
    sameTagName first second = true ↔ first.lowercase = second.lowercase := by
  rw [sameTagName, Bool.or_eq_true, beq_iff_eq, beq_iff_eq]
  constructor
  · rintro (same | same)
    · rw [same]
    · exact same
  · exact .inr

/-- A node is an element of a name, in whatever letter case. -/
def Document.IsElementNamed (doc : Document) (name : Text) (id : Nat) : Prop :=
  ∃ element tagName, (doc.node id).kind = .element element ∧ element.tagName = some tagName ∧
    tagName.lowercase = name.lowercase

namespace Builder

variable {b : Builder} {token : Token} {below around : List Nat} {element : Nat}

private theorem matchesTag_iff (b : Builder) (name : Text) (id : Nat) :
    b.matchesTag name id = true ↔ b.doc.IsElementNamed name id := by
  rw [matchesTag, Document.IsElementNamed]
  cases kind : (b.doc.node id).kind with
  | element e =>
    simp [NodeKind.element?, Element.matchesTag, Option.any_eq_true, sameTagName_iff]
  | _ => simp [NodeKind.element?]

/-! ### An element of the name -/

/-- An element was closed: it has an end tag that was opened at some offset, it ends where the name
of the tag does, and the nodes open below it end where the tag was opened. Nothing else changed. -/
structure ClosesElement (b after : Builder) (below : List Nat) (element opening stop : Nat) :
    Prop where
  builder_eq : after =
    { b with doc := { b.doc with nodes := after.doc.nodes }, current := element }
  count_eq : after.doc.count = b.doc.count
  element_eq : ∃ data, (b.doc.node element).kind = .element data ∧
    after.doc.node element =
      { b.doc.node element with
        kind := .element { data with endTagOpen := some opening }
        stop := stop
        closed := true }
  below_eq : ∀ id ∈ below, after.doc.node id = { b.doc.node id with stop := opening }
  others_eq : ∀ id, id ≠ element → id ∉ below → after.doc.node id = b.doc.node id

/-- The nearest element of the name is closed. -/
theorem closesElement_nameEndTag (linked : b.Linked)
    (path : b.doc.path b.current = below ++ element :: around)
    (isMatch : b.matchesTag token.text element = true)
    (others : ∀ id ∈ below, b.matchesTag token.text id = false) :
    ClosesElement b (b.nameEndTag token) below element (b.endTagOpen.getD token.start)
      token.stop := by
  have onPath : ∀ id ∈ below ++ element :: around, id < b.doc.count := by
    intro id mem
    exact linked.lt_of_mem_path (path ▸ mem)
  have element_lt := onPath element (List.mem_append_right _ List.mem_cons_self)
  have below_lt : ∀ id ∈ below, id < b.doc.count := fun id mem ↦
    onPath id (List.mem_append_left _ mem)
  -- What is open below the element was made behind it, so it is neither the element nor the root.
  have above : ∀ id ∈ below, element < id := by
    intro id mem
    have falls := linked.doc.pairwise_path linked.current_lt
    rw [path] at falls
    exact (List.pairwise_append.1 falls).2.2 id mem element List.mem_cons_self
  have ended := node_endAll b below_lt (b.endTagOpen.getD token.start)
  have count : (b.endAll (b.endTagOpen.getD token.start) below).doc.count = b.doc.count :=
    (retouched_endAll (path ▸ List.subset_append_left _ _) _).doc.count_eq
  have kept := ended element
  rw [if_neg fun h ↦ Nat.lt_irrefl _ (above element h.1)] at kept
  have nodes := Document.node_modify (fun node ↦
    { node with
      closed := true
      stop := token.stop
      kind := node.kind.modifyElement fun e ↦
        { e with endTagOpen := some (b.endTagOpen.getD token.start) } }) (count ▸ element_lt)
  rw [nameEndTag_of_match path isMatch others]
  constructor
  · rw [endAll_eq]
    rfl
  · exact (Document.count_modify _ _ _).trans count
  · obtain ⟨data, -, isElement, -, -⟩ := (matchesTag_iff b token.text element).1 isMatch
    refine ⟨data, isElement, ?_⟩
    rw [nodes, if_pos rfl, kept, isElement]
    rfl
  · intro id mem
    have behind := above id mem
    have notRoot : id ≠ Document.root := Nat.ne_zero_of_lt behind
    rw [nodes, if_neg (Nat.ne_of_gt behind), ended, if_pos ⟨mem, notRoot⟩]
  · intro id differ notBelow
    rw [nodes, if_neg differ, ended, if_neg fun h ↦ notBelow h.1]

/-! ### No element of the name -/

/-- An element was added for an end tag alone: it is the last child of the node that was the current
one, and becomes the current one. Every open node ends where the tag was opened. Nothing else
changed. -/
structure AddsElement (b after : Builder) (name : Text) (opening stop : Nat) : Prop where
  builder_eq : after =
    { b with doc := { b.doc with nodes := after.doc.nodes }, current := b.doc.count }
  count_eq : after.doc.count = b.doc.count + 1
  element_eq : after.doc.node b.doc.count =
    { kind := .element { tagName := some name, endTagOpen := some opening }
      start := opening
      stop := stop
      closed := false
      parent := some b.current
      children := [] }
  others_eq : ∀ id < b.doc.count, after.doc.node id =
    { b.doc.node id with
      stop := if id ∈ b.doc.path b.current ∧ id ≠ Document.root then opening
        else (b.doc.node id).stop
      children := if id = b.current then b.doc.children id ++ [b.doc.count]
        else b.doc.children id }

/-- An end tag that no open element has the name of gets an element. -/
theorem addsElement_nameEndTag (linked : b.Linked)
    (others : ∀ id ∈ b.doc.path b.current, b.matchesTag token.text id = false) :
    AddsElement b (b.nameEndTag token) token.text (b.endTagOpen.getD token.start) token.stop := by
  have inside : ∀ id ∈ b.doc.path b.current, id < b.doc.count :=
    fun id mem ↦ linked.lt_of_mem_path mem
  have ended := node_endAll b inside (b.endTagOpen.getD token.start)
  have retouched := retouched_endAll (List.Subset.refl (b.doc.path b.current))
    (b.endTagOpen.getD token.start)
  have count := retouched.doc.count_eq
  have nodes := Document.node_addChild (b.strayElement token)
    (retouched.linked linked).current_lt
  rw [retouched.current_eq, count] at nodes
  rw [nameEndTag_of_no_match others]
  constructor
  · rw [openNode, count, endAll_eq]
    rfl
  · rw [openNode, Document.count_addChild, count]
  · rw [openNode, retouched.current_eq, nodes, if_pos rfl]
    rfl
  · intro id lt
    rw [openNode, retouched.current_eq, nodes, if_neg (Nat.ne_of_lt lt)]
    split
    · next same =>
      subst same
      rw [ended]
      split
      · rfl
      · rfl
    · next differ =>
      rw [ended]
      split
      · rfl
      · rfl

/-! ### Behind any tokens -/

theorem linked_applyAll (linked : b.Linked) (tokens : List Token) : (b.applyAll tokens).Linked := by
  induction tokens generalizing b with
  | nil => exact linked
  | cons token tokens ih => exact ih (linked.apply token)

/-- The name of an end tag is taken for a tag that was opened where the last end tag was, or where
the name stands if there is none. If the current node or one around it is an element of the name,
the nearest one is closed; otherwise the end tag gets an element of its own. -/
theorem apply_endTag (text uri : Text) (mode : Mode) (passed : List Token) (token : Token)
    (isEndTag : token.kind = .endTag) :
    let b := (start text uri mode).applyAll passed
    let opening := ((lastEndTagOpen? passed).getD token).start
    ((∃ id ∈ b.doc.path b.current, b.doc.IsElementNamed token.text id) →
      ∃ below element around, b.doc.path b.current = below ++ element :: around ∧
        b.doc.IsElementNamed token.text element ∧
        (∀ id ∈ below, ¬ b.doc.IsElementNamed token.text id) ∧
        ClosesElement b (b.apply token) below element opening token.stop) ∧
    ((∀ id ∈ b.doc.path b.current, ¬ b.doc.IsElementNamed token.text id) →
      AddsElement b (b.apply token) token.text opening token.stop) := by
  intro b opening
  have linked : b.Linked := linked_applyAll (start_linked text uri mode) passed
  have isOpening : b.endTagOpen.getD token.start = opening := by
    rw [endTagOpen_applyAll, endTagOpen_start, Option.or_none]
    simp only [opening]
    cases lastEndTagOpen? passed with
    | none => rfl
    | some last => rfl
  have isNamed : b.apply token = b.nameEndTag token := by
    simp only [apply, isEndTag]
  rw [isNamed, ← isOpening]
  constructor
  · rintro ⟨id, mem, isMatch⟩
    have isFound : ((b.doc.path b.current).find? (b.matchesTag token.text)).isSome := by
      rw [List.find?_isSome]
      exact ⟨id, mem, (matchesTag_iff b token.text id).2 isMatch⟩
    obtain ⟨element, found⟩ := Option.isSome_iff_exists.1 isFound
    obtain ⟨isMatch, below, around, path, others⟩ := List.find?_eq_some_iff_append.1 found
    have others : ∀ id ∈ below, b.matchesTag token.text id = false := by
      intro id mem
      simpa using others id mem
    refine ⟨below, element, around, path, (matchesTag_iff b token.text element).1 isMatch, ?_,
      closesElement_nameEndTag linked path isMatch others⟩
    intro id mem isMatch
    rw [← matchesTag_iff, others id mem] at isMatch
    cases isMatch
  · intro others
    apply addsElement_nameEndTag linked
    intro id mem
    rw [← Bool.not_eq_true, matchesTag_iff]
    exact others id mem

/-- Behind `<a><b></` the name `A` closes the element around the current one. -/
theorem apply_endTag_around :
    let passed : List Token :=
      [⟨.startTagOpen, ⟨0, 1⟩, ['<']⟩, ⟨.startTag, ⟨1, 2⟩, ['a']⟩, ⟨.startTagClose, ⟨2, 3⟩, ['>']⟩,
        ⟨.startTagOpen, ⟨3, 4⟩, ['<']⟩, ⟨.startTag, ⟨4, 5⟩, ['b']⟩, ⟨.startTagClose, ⟨5, 6⟩, ['>']⟩,
        ⟨.endTagOpen, ⟨6, 8⟩, ['<', '/']⟩]
    let token : Token := ⟨.endTag, ⟨8, 9⟩, ['A']⟩
    let b := (start [] [] .xml).applyAll passed
    ∃ below element around, b.doc.path b.current = below ++ element :: around ∧
      b.doc.IsElementNamed token.text element ∧
      (∀ id ∈ below, ¬ b.doc.IsElementNamed token.text id) ∧
      ClosesElement b (b.apply token) below element ((lastEndTagOpen? passed).getD token).start
        token.stop := by
  intro passed token b
  have isAround : 1 ∈ b.doc.path b.current := by
    have parent : (b.doc.node b.current).parent = some 1 := rfl
    rw [Document.path, Document.ancestors_of_parent parent (by decide)]
    exact List.mem_cons_of_mem _ List.mem_cons_self
  have isNamed : b.doc.IsElementNamed token.text 1 :=
    ⟨{ tagName := some ['a'], startTagOpen := some 0, startTagClose := some 2 }, ['a'], rfl, rfl,
      by decide +kernel⟩
  exact (apply_endTag [] [] .xml passed token rfl).1 ⟨1, isAround, isNamed⟩

end Builder

end TolerantXml
