import TolerantXml.Proofs.Reading.Nesting

/-!
# The constructs of a document and the tokens that open them

No token but an opener adds a node, and every opener adds one that is of its kind and starts where
the opener does (`constructs_apply`). So the nodes of a document are the constructs that its tokens
open, one behind the other (`constructs_parse`). Whether a token is an opener depends on the builder
for two kinds only: text is one if it is not blank, and the name of an end tag if no element around
has that name.
-/

namespace TolerantXml

/-- What the nodes of a document stand for and where they start, in order. -/
def Document.constructs (doc : Document) : List (Frame × Nat) :=
  (List.range doc.count).map fun id ↦ (doc.frame id, (doc.node id).start)

/-- The constructs of a document that no token opens. -/
def Mode.givenConstructs : Mode → List (Frame × Nat)
  | .xml => [(.document, 0)]
  | .dtd => [(.document, 0), (.doctype, 0)]

/-- Whether a token opens a construct: any of a kind that may, but for blank text and for the name
of an end tag that matches the current element or one around it. -/
def Builder.isOpenedBy (b : Builder) (token : Token) : Bool :=
  match token.kind with
  | .content => !token.text.isBlank
  | .endTag => (b.doc.path b.current).all fun id ↦ !b.matchesTag token.text id
  | kind => kind.opens.isSome

/-- The end tag that was opened last by some tokens. -/
def lastEndTagOpen? (tokens : List Token) : Option Token :=
  (tokens.filter fun token ↦ token.kind = .endTagOpen).getLast?

/-- The construct that a token opens behind other tokens. It starts where the token does, but for
the element of an end tag, which starts where the tag was opened. -/
def Builder.opening? (b : Builder) (passed : List Token) (token : Token) : Option (Frame × Nat) :=
  if b.isOpenedBy token then
    token.kind.opens.map fun frame ↦
      (frame, if token.kind = .endTag then ((lastEndTagOpen? passed).getD token).start
        else token.start)
  else none

/-- The constructs that tokens open, each in the builder that took the tokens before it. -/
def Builder.openings (b : Builder) (tokens : List Token) : List (Frame × Nat) :=
  (List.range tokens.length).filterMap fun n ↦
    tokens[n]?.bind ((b.applyAll (tokens.take n)).opening? (tokens.take n))

namespace Document

variable {doc doc' : Document} {parent : Nat} {node : Node} {touched : Nat → Prop}

theorem Retouched.constructs_eq (h : Retouched touched doc doc') :
    doc'.constructs = doc.constructs := by
  rw [constructs, constructs, h.count_eq]
  apply List.map_congr_left
  intro id _
  rw [h.frame_eq, h.start_eq]

/-- A node that is added comes behind the others, which stay as they are. -/
theorem constructs_addChild (lt : parent < doc.count) :
    (doc.addChild parent node).constructs = doc.constructs ++ [(node.kind.frame, node.start)] := by
  have old : ∀ id ∈ List.range doc.count,
      ((doc.addChild parent node).frame id, ((doc.addChild parent node).node id).start) =
        (doc.frame id, (doc.node id).start) := by
    intro id mem
    have isOld : id ≠ doc.count := Nat.ne_of_lt (List.mem_range.1 mem)
    rw [frame_addChild lt, start_addChild lt, if_neg isOld, if_neg isOld]
  rw [constructs, count_addChild, List.range_succ, List.map_append, List.map_congr_left old,
    List.map_singleton, frame_addChild lt, start_addChild lt, if_pos rfl, if_pos rfl, constructs]

end Document

namespace Builder

variable {b b' : Builder} {token : Token} {tokens : List Token} {node : Node}

/-! ### The end tag that was opened last -/

theorem applyAll_concat (b : Builder) (tokens : List Token) (token : Token) :
    b.applyAll (tokens ++ [token]) = (b.applyAll tokens).apply token := by
  rw [applyAll, List.foldl_append, applyAll]
  rfl

/-- A builder remembers the opening of the end tag that was opened last by its tokens. -/
theorem endTagOpen_applyAll (b : Builder) (tokens : List Token) :
    (b.applyAll tokens).endTagOpen =
      ((lastEndTagOpen? tokens).map Token.start).or b.endTagOpen := by
  induction tokens using List.reverseRecOn with
  | nil => rfl
  | append_singleton tokens token ih =>
    rw [applyAll_concat, endTagOpen_apply, ih]
    by_cases isOpen : token.kind = .endTagOpen
    · simp [isOpen, lastEndTagOpen?]
    · simp [isOpen, lastEndTagOpen?]

/-! ### What a token opens -/

theorem constructs_openNode (linked : b.Linked) (node : Node) :
    (b.openNode node).doc.constructs = b.doc.constructs ++ [(node.kind.frame, node.start)] :=
  Document.constructs_addChild linked.current_lt

/-- What is opened behind a change or a return comes behind the constructs that were there. -/
theorem Returned.constructs_openNode (returned : b.Returned b') (linked : b.Linked) (node : Node) :
    (b'.openNode node).doc.constructs = b.doc.constructs ++ [(node.kind.frame, node.start)] := by
  rw [Builder.constructs_openNode (returned.linked linked), returned.doc.constructs_eq]

/-- Where a document type is open, a declaration is opened in it. -/
theorem constructs_openDeclaration (linked : b.Linked) (inDoctype : b.InDoctype) (start : Nat)
    (keyword : Text) (kind : Parameter → NodeKind) :
    (b.openDeclaration start keyword kind).doc.constructs =
      b.doc.constructs ++ [((kind (.keywordAt b.doc.text start keyword)).frame, start)] := by
  obtain ⟨id, isOpen, isDoctype⟩ := inDoctype
  have onSpine : .doctype ∈ b.spine := by
    rw [NodeKind.isDoctype_eq, decide_eq_true_eq] at isDoctype
    exact List.mem_map.2 ⟨id, isOpen, isDoctype⟩
  obtain ⟨inner, outer, spine, others⟩ := List.eq_append_cons_of_mem onSpine
  have returned := returned_returnToDoctype b start
  have isCurrent : (b.returnToDoctype start).currentNode.kind.isDoctype = true := by
    rw [NodeKind.isDoctype_eq, head_spine (spine_returnToDoctype linked spine others start)]
    rfl
  simp only [openDeclaration, isCurrent, ↓reduceIte, returned.doc.text_eq]
  exact returned.constructs_openNode linked _

/-- The name of an end tag opens an element if it matches none. -/
theorem constructs_nameEndTag (linked : b.Linked) (token : Token) :
    (b.nameEndTag token).doc.constructs =
      if (b.doc.path b.current).all fun id ↦ !b.matchesTag token.text id then
        b.doc.constructs ++ [(.element, b.endTagOpen.getD token.start)]
      else b.doc.constructs := by
  rcases nameEndTag_cases b token with
    ⟨before, element, after, path, isMatch, -, eq⟩ | ⟨noMatch, eq⟩
  · have returned : b.Returned (b.nameEndTag token) := by
      rw [eq]
      exact returned_closeMatch linked path (frame_of_matchesTag isMatch) token.stop
    have matched : ¬ (b.doc.path b.current).all (fun id ↦ !b.matchesTag token.text id) = true := by
      intro none
      have isNot := List.all_eq_true.1 none element (by simp [path])
      rw [isMatch] at isNot
      cases isNot
    rw [if_neg matched, returned.doc.constructs_eq]
  · have unmatched : (b.doc.path b.current).all (fun id ↦ !b.matchesTag token.text id) = true := by
      rw [List.all_eq_true]
      intro id mem
      rw [noMatch id mem]
      rfl
    have ended := retouched_endAll (List.Subset.refl (b.doc.path b.current))
      (b.endTagOpen.getD token.start)
    rw [if_pos unmatched, eq, ended.returned.constructs_openNode linked]
    rfl

/-- A token of a kind that opens nothing opens nothing. -/
private theorem opening?_eq_none (b : Builder) (passed : List Token) (h : token.kind.opens = none) :
    b.opening? passed token = none := by
  rw [opening?, h, Option.map_none, ite_self]

/-- A token adds the construct that it opens, and nothing else. -/
theorem constructs_apply (linked : b.Linked) (awaits : b.Awaits token.kind) {passed : List Token}
    (opened : b.endTagOpen = (lastEndTagOpen? passed).map Token.start) :
    (b.apply token).doc.constructs = b.doc.constructs ++ (b.opening? passed token).toList := by
  cases opens : token.kind.opens with
  | none =>
    rw [(returned_apply linked opens).doc.constructs_eq, opening?_eq_none b passed opens,
      Option.toList_none, List.append_nil]
  | some frame =>
    cases kind : token.kind with
    | startTagOpen =>
      simp only [apply, opening?, isOpenedBy, TokenKind.opens, kind]
      exact (retouched_setCurrentStop b _).returned.constructs_openNode linked _
    | content =>
      simp only [apply, addText, opening?, isOpenedBy, TokenKind.opens, kind]
      cases token.text.isBlank with
      | true => exact (List.append_nil _).symm
      | false => exact Document.constructs_addChild linked.current_lt
    | commentOpen | instructionOpen =>
      simp only [apply, opening?, isOpenedBy, TokenKind.opens, kind]
      exact (returned_leaveDeclaration linked _).constructs_openNode linked _
    | cdataOpen | doctypeOpen =>
      simp only [apply, opening?, isOpenedBy, TokenKind.opens, kind]
      exact constructs_openNode linked _
    | elementDeclOpen | attlistOpen | entityOpen =>
      rw [kind] at awaits
      simp only [apply, opening?, isOpenedBy, TokenKind.opens, kind]
      exact constructs_openDeclaration linked awaits _ _ _
    | endTag =>
      have place : b.endTagOpen.getD token.start =
          ((lastEndTagOpen? passed).getD token).start := by
        rw [opened]
        cases lastEndTagOpen? passed <;> rfl
      simp only [apply, opening?, isOpenedBy, TokenKind.opens, kind]
      rw [constructs_nameEndTag linked, place]
      split
      · rfl
      · exact (List.append_nil _).symm
    | _ =>
      rw [kind] at opens
      cases opens

theorem constructs_start (text uri : Text) (mode : Mode) :
    (start text uri mode).doc.constructs = mode.givenConstructs := by
  cases mode <;> rfl

theorem endTagOpen_start (text uri : Text) (mode : Mode) :
    (start text uri mode).endTagOpen = none := by
  cases mode <;> rfl

theorem openings_concat (b : Builder) (tokens : List Token) (token : Token) :
    b.openings (tokens ++ [token]) =
      b.openings tokens ++ ((b.applyAll tokens).opening? tokens token).toList := by
  have before : ∀ n ∈ List.range tokens.length,
      (tokens ++ [token])[n]?.bind ((b.applyAll ((tokens ++ [token]).take n)).opening?
        ((tokens ++ [token]).take n)) =
      tokens[n]?.bind ((b.applyAll (tokens.take n)).opening? (tokens.take n)) := by
    intro n mem
    have lt := List.mem_range.1 mem
    rw [List.getElem?_append_left lt, List.take_append_of_le_length (Nat.le_of_lt lt)]
  rw [openings, List.length_append, List.length_singleton, List.range_succ, List.filterMap_append,
    List.filterMap_congr before, openings]
  congr 1
  rw [List.filterMap_cons, List.filterMap_nil, List.getElem?_concat_length, List.take_left']
  · rw [Option.bind_some]
    cases opening? (b.applyAll tokens) tokens token <;> rfl
  · rfl

end Builder

namespace Reading

variable {text uri : Text} {mode : Mode} {passed ahead : List Token} {token : Token}

/-- Between the tokens of a text there is a reading that has passed those before, and that reads
the next one. -/
private theorem at_split (uri : Text)
    (split : Scanner.tokenize text mode = passed ++ token :: ahead) :
    ((start text uri mode).after passed.length).builder =
        (Builder.start text uri mode).applyAll passed ∧
      ((start text uri mode).after passed.length).scanner.next.1 = token := by
  have stands : (Scanner.start text mode).cursor.StandsIn text := Cursor.atStart_standsIn text
  have tokens : (Scanner.start text mode).tokens = passed ++ token :: ahead := split
  have next := Scanner.next_after_eq_getD stands passed.length
  rw [after_eq]
  constructor
  · show Builder.applyAll _ ((Scanner.start text mode).tokens.take passed.length) = _
    rw [tokens, List.take_left]
    rfl
  · show ((Scanner.start text mode).after passed.length).next.1 = token
    rw [next, tokens]
    simp

/-- In front of the name of an end tag, an end tag was opened. -/
private theorem exists_endTagOpen (split : Scanner.tokenize text mode = passed ++ token :: ahead)
    (isEndTag : token.kind = .endTag) : ∃ opening ∈ passed, opening.kind = .endTagOpen := by
  obtain ⟨builder, next⟩ := at_split [] split
  have nested := after_nested text [] mode passed.length
  by_cases atEnd : ((start text [] mode).after passed.length).scanner.cursor.rest = []
  · rw [Scanner.next_of_rest_nil atEnd] at next
    rw [← next] at isEndTag
    cases isEndTag
  · obtain ⟨config, _, read, now, emits, eq⟩ :=
      exists_emits (fun _ _ nested rescans ↦ nested.rescans rescans) nested atEnd
    rw [eq] at next
    obtain rfl : read = token := next
    have atName : config.state = .endTagName :=
      emits.transition.state_of_kind isEndTag rfl
    obtain ⟨place, -, isOpen, -⟩ := now.endTag atName
    rw [builder, Builder.endTagOpen_applyAll, Builder.endTagOpen_start, Option.or_none,
      Option.map_eq_some_iff] at isOpen
    obtain ⟨opening, isLast, -⟩ := isOpen
    have mem := List.mem_of_getLast? isLast
    rw [List.mem_filter, decide_eq_true_eq] at mem
    exact ⟨opening, mem⟩

/-- Behind some tokens of a text, the nodes are the constructs that they opened. -/
theorem constructs_applyAll (uri : Text) (split : Scanner.tokenize text mode = passed ++ ahead) :
    ((Builder.start text uri mode).applyAll passed).doc.constructs =
      mode.givenConstructs ++ (Builder.start text uri mode).openings passed := by
  induction passed using List.reverseRecOn generalizing ahead with
  | nil => exact (Builder.constructs_start text uri mode).trans (List.append_nil _).symm
  | append_singleton passed token ih =>
    rw [List.append_assoc, List.singleton_append] at split
    obtain ⟨builder, next⟩ := at_split uri split
    have inStep := after_inStep text uri mode passed.length
    have awaits := inStep.awaits
    have opened := Builder.endTagOpen_applyAll (Builder.start text uri mode) passed
    rw [builder, next] at awaits
    rw [Builder.endTagOpen_start, Option.or_none] at opened
    rw [Builder.applyAll_concat, Builder.constructs_apply (builder ▸ inStep.linked) awaits opened,
      ih split, Builder.openings_concat, List.append_assoc]

end Reading

/-- The nodes of a document are the root, the document type that stands around the declarations of
a text of declarations only, and one node for every token that opens a construct, in the order of
the tokens. An end tag that opens an element was opened itself before. -/
theorem constructs_parse (text uri : Text) (mode : Mode) :
    (Document.parse text uri mode).constructs =
        mode.givenConstructs ++
          (Builder.start text uri mode).openings (Scanner.tokenize text mode) ∧
      ∀ passed token ahead, Scanner.tokenize text mode = passed ++ token :: ahead →
        token.kind = .endTag → ∃ opening ∈ passed, opening.kind = .endTagOpen := by
  constructor
  · rw [Document.parse, (Builder.retouched_finish _).constructs_eq]
    exact Reading.constructs_applyAll uri (List.append_nil _).symm
  · intro passed token ahead split isEndTag
    exact Reading.exists_endTagOpen split isEndTag

end TolerantXml
