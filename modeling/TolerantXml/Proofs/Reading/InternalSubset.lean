import TolerantXml.Proofs.Reading.Mirror
import TolerantXml.Proofs.Scanner.InternalSubset
import TolerantXml.Proofs.Text.Lines
import TolerantXml.Proofs.Tree.Spared

/-!
# An internal subset is read like a text of declarations

A reading of a document type stands around the reading of its internal subset as a text on its own
(`Reading.Encloses`), from the opening bracket to the end of the inner text. Both have the same
tokens, and below the document types the same nodes, if nothing is left open in the subset
(`parse_inSubset`).
-/

namespace TolerantXml

open Scanner (subsetOpeningTokens subsetEndingTokens)

/-- The place of a text of declarations that is read as an internal subset: behind the opening of
the document type, with nodes of the same numbers. -/
def Inset.ofSubset : Inset := ⟨Text.subsetOpening.byteSize, 0, 2, true⟩

private theorem Text.isUnbroken_subsetOpening : Text.subsetOpening.IsUnbroken := by
  simp [IsUnbroken, subsetOpening, Delimiter.doctypeOpen]

private theorem Text.isUnbroken_subsetEnding : Text.subsetEnding.IsUnbroken := by
  simp [IsUnbroken, subsetEnding]

/-! ### Where declarations are read -/

/-- Where only declarations are read, some node other than the root is open. -/
private theorem Scanner.Config.Fits.ne_document {config : Scanner.Config} {spine : List Frame}
    (fits : config.Fits spine) (sound : config.Sound) (dtd : config.mode = .dtd) :
    spine ≠ [.document] := by
  have declares := sound.dtd_state dtd
  rintro rfl
  cases state : config.state with
  | subset =>
    obtain ⟨inner, outer, split, -, -⟩ := fits.exists_doctype state
    cases inner <;> simp at split
  | tag | assign | attributeValue =>
    have prolog := sound.dtd_inProlog dtd (by rw [state]; rfl)
    simp only [Fits, state, prolog, ↓reduceIte] at fits
    obtain ⟨outer, split, -⟩ := fits
    cases split
  | comment | instructionTarget | instructionData | elementDecl | attlistDecl | entityDecl =>
    simp only [Fits, state] at fits
    obtain ⟨outer, split, -⟩ := fits
    cases split
  | _ =>
    rw [state] at declares
    cases declares

/-! ### The opening of the document type -/

namespace Builder

section Opening

variable (text uri : Text) (mode : Mode)

/-- A builder in a document type that is its first node. -/
def inDoctype : Builder := (empty text uri mode).openToEnd (.doctype {}) 0

private theorem inDoctype_linked : (inDoctype text uri mode).Linked :=
  (empty_linked text uri mode).openNode rfl

theorem path_inDoctype :
    (inDoctype text uri mode).doc.path (inDoctype text uri mode).current =
      [1, Document.root] := by
  rw [inDoctype, openToEnd, path_openNode (empty_linked text uri mode)]
  exact congrArg _ (Document.linked_ofText text uri mode).path_root

theorem count_inDoctype : (inDoctype text uri mode).doc.count = 2 :=
  Document.count_addChild _ _ _

theorem frame_inDoctype : (inDoctype text uri mode).doc.frame 1 = .doctype :=
  (Document.frame_addChild Nat.one_pos 1).trans (if_pos rfl)

theorem children_inDoctype : (inDoctype text uri mode).doc.children 1 = [] :=
  (Document.children_addChild Nat.one_pos rfl 1).trans rfl

end Opening

/-- Behind the opening bracket, the document type that was opened mirrors the one that is given
around declarations. -/
private theorem mirrors_subsetOpening (source text uri uri' : Text) :
    Mirrors Inset.ofSubset [Document.root] [1]
      ((start source uri .xml).applyAll subsetOpeningTokens) (start text uri' .dtd) := by
  have retouched : (inDoctype source uri .xml).Retouched
      ((start source uri .xml).applyAll subsetOpeningTokens) :=
    (retouched_addDoctypeParameter _ _ _).trans (retouched_openSubset _ _)
  have lastClosed : ((start source uri .xml).applyAll subsetOpeningTokens).lastClosed = none := rfl
  have inner : start text uri' .dtd = inDoctype text uri' .dtd := rfl
  generalize (start source uri .xml).applyAll subsetOpeningTokens = outer at *
  rw [inner]
  constructor
  · exact retouched.linked (inDoctype_linked source uri .xml)
  · exact inDoctype_linked text uri' .dtd
  · rw [retouched.current_eq, retouched.doc.path_eq, path_inDoctype]
    rfl
  · exact path_inDoctype text uri' .dtd
  · intro id mem
    rw [List.mem_singleton.1 mem]
    exact Nat.le_refl 0
  · refine ⟨?_, ?_, fun id pos lt ↦ ?_⟩
    · rw [retouched.doc.count_eq, count_inDoctype, count_inDoctype]
      rfl
    · rw [count_inDoctype]
      exact Nat.le_refl 2
    · rw [count_inDoctype] at lt
      obtain rfl : id = 1 := by omega
      have frame := retouched.doc.frame_eq 1
      have children := retouched.doc.children_eq 1
      rw [frame_inDoctype] at frame
      rw [children_inDoctype] at children
      refine ⟨?_, ?_, ?_, ?_, fun _ ↦ frame_inDoctype text uri' .dtd, ?_, ?_, ?_, ?_, ?_⟩
      · exact frame.trans (frame_inDoctype text uri' .dtd).symm
      · exact children.trans (congrArg (List.map _) (children_inDoctype text uri' .dtd)).symm
      · exact fun le ↦ absurd le (by decide)
      · exact fun le ↦ absurd le (by decide)
      · exact fun le ↦ absurd le (by decide)
      · exact fun le ↦ absurd le (by decide)
      · exact fun le ↦ absurd le (by decide)
      · exact fun notOpen ↦ absurd (List.mem_singleton_self 1) notOpen
      · exact fun _ _ ↦ rfl
  · intro _
    rw [lastClosed]
    exact ⟨rfl, nofun⟩

end Builder

namespace Reading

variable {text uri : Text} {mode : Mode} {r outer inner : Reading} {ids : List Nat}

private theorem Nested.next (h : r.Nested text mode) : r.next.Nested text mode :=
  after_invariant (fun _ _ nested rescans ↦ nested.rescans rescans)
    (fun _ _ _ nested ↦ nested.emits) h 1

/-- Where only declarations are read, no end tag is. -/
private theorem Nested.kind_ne_endTag (h : r.Nested text .dtd) :
    r.scanner.next.1.kind ≠ .endTag := by
  by_cases atEnd : r.scanner.cursor.rest = []
  · rw [Scanner.next_of_rest_nil atEnd]
    nofun
  · obtain ⟨config, next, token, now, emits, eq⟩ :=
      exists_emits (fun _ _ nested rescans ↦ nested.rescans rescans) h atEnd
    rw [eq]
    intro kind
    have declares := now.inStep.sound.dtd_state now.mode_eq
    rw [emits.transition.state_of_kind kind rfl] at declares
    cases declares

/-- The tokens that are left lead to the same builder from anywhere. -/
private theorem applyAll_tokens_after (r : Reading) (n : Nat) :
    (r.after n).builder.applyAll (r.after n).scanner.tokens =
      r.builder.applyAll r.scanner.tokens := by
  induction n generalizing r with
  | zero => rfl
  | succ n ih =>
    rw [after, ih]
    by_cases ahead : r.scanner.cursor.rest = []
    · rw [next_of_rest_nil ahead]
    · rw [Scanner.tokens_of_rest_ne_nil ahead]
      rfl

/-! ### Inside the subset -/

/-- A reading of a document type stands in its subset where the reading of the subset does. -/
structure Encloses (text : Text) (outer inner : Reading) : Prop where
  outer_nested : outer.Nested text.inSubset .xml
  inner_nested : inner.Nested text .dtd
  scanner : Scanner.Embeds Inset.ofSubset.distance Text.subsetEnding outer.scanner inner.scanner
  builder : ∃ ids, Mirrors Inset.ofSubset [Document.root] ids outer inner

namespace Encloses

/-- Both read the same token. -/
private theorem readsAlike (h : Encloses text outer inner) (free : ']' ∉ text)
    (ahead : inner.scanner.cursor.rest ≠ [])
    (ends : inner.next.scanner.cursor.rest = [] → inner.next.scanner.config.state = .subset) :
    Scanner.Embeds.ReadsAlike Inset.ofSubset.distance outer.scanner inner.scanner := by
  have inside : Scanner.Embeds Inset.ofSubset.distance (']' :: ['>']) outer.scanner
    inner.scanner := h.scanner
  refine inside.next_of_bracket ahead (fun mem ↦ free ?_) ends
  rw [← h.inner_nested.standsIn.text_eq]
  exact List.mem_append_right _ mem

private theorem next (h : Encloses text outer inner) (free : ']' ∉ text)
    (ahead : inner.scanner.cursor.rest ≠ [])
    (ends : inner.next.scanner.cursor.rest = [] → inner.next.scanner.config.state = .subset) :
    Encloses text outer.next inner.next where
  outer_nested := h.outer_nested.next
  inner_nested := h.inner_nested.next
  scanner := h.scanner.next ahead (h.readsAlike free ahead ends)
  builder := by
    obtain ⟨ids, mirrors⟩ := h.builder
    have inStep := h.inner_nested.inStep
    cases ids with
    | nil =>
      have spine : inner.builder.spine = [.document] := by
        rw [Builder.spine, mirrors.builder.inner_path, List.nil_append, List.map_singleton,
          inStep.linked.doc.root_frame]
      exact absurd spine (inStep.fits.ne_document inStep.sound h.inner_nested.mode_eq)
    | cons id rest =>
      refine mirrors.next h.outer_nested h.inner_nested ahead (h.readsAlike free ahead ends)
        (fun isEndTag ↦ absurd isEndTag h.inner_nested.kind_ne_endTag) fun _ stop ↦ ?_
      have inside : inner.scanner.cursor.offset ≤ text.byteSize := by
        have offset := h.inner_nested.standsIn.offset_add_rest
        omega
      exact Text.sameLine_append Text.isUnbroken_subsetOpening Text.isUnbroken_subsetEnding inside
        stop

/-- At the end of the inner text, the outer reading is in front of the bracket that ends the subset,
and read the same tokens. -/
private theorem exists_atEnd (h : Encloses text outer inner) (free : ']' ∉ text)
    (ends : ∀ n, (inner.after n).scanner.cursor.rest = [] →
      (inner.after n).scanner.config.state = .subset) :
    ∃ n, (inner.after n).scanner.cursor.rest = [] ∧ Encloses text (outer.after n) (inner.after n) ∧
      outer.scanner.tokens =
        inner.scanner.tokens.dropLast.map (·.moved Inset.ofSubset.distance) ++
          (outer.after n).scanner.tokens := by
  induction size : inner.scanner.cursor.rest.length using Nat.strongRecOn
    generalizing outer inner with
  | ind size ih =>
    by_cases ahead : inner.scanner.cursor.rest = []
    · refine ⟨0, ahead, h, ?_⟩
      rw [Scanner.tokens_of_rest_nil ahead]
      rfl
    · have less := Scanner.read_rest_length_lt inner.scanner.config inner.scanner.cursor ahead
      obtain ⟨n, atEnd, encloses, tokens⟩ :=
        ih _ (size ▸ less) (h.next free ahead (ends 1)) (fun n ↦ ends (n + 1)) rfl
      refine ⟨n + 1, atEnd, encloses, ?_⟩
      have reads := h.readsAlike free ahead (ends 1)
      have outerAhead : outer.scanner.cursor.rest ≠ [] := by
        rw [h.scanner.rest]
        exact List.append_ne_nil_of_left_ne_nil ahead _
      have more : inner.scanner.next.2.tokens ≠ [] := by
        intro isNil
        have head := Scanner.head?_tokens inner.scanner.next.2
        rw [isNil] at head
        cases head
      rw [Scanner.tokens_of_rest_ne_nil outerAhead, Scanner.tokens_of_rest_ne_nil ahead,
        List.dropLast_cons_of_ne_nil more, List.map_cons, List.cons_append]
      refine congrArg₂ List.cons ?_ tokens
      exact congrArg Prod.fst reads

/-- At the end of the subset, if nothing but the document type is open, the path has nothing
else. -/
private theorem ids_eq (h : Encloses text outer inner)
    (mirrors : Mirrors Inset.ofSubset [Document.root] ids outer inner)
    (state : inner.scanner.config.state = .subset)
    (closed : ∀ id, 2 ≤ id → id < inner.builder.doc.count →
      (inner.builder.doc.node id).closed = true) : ids = [1] := by
  have inStep := h.inner_nested.inStep
  have path := mirrors.builder.inner_path
  -- What is open and not an element is not closed, so it is the document type.
  have isFirst : ∀ id ∈ ids, inner.builder.doc.frame id ≠ .element → id = 1 := by
    intro id mem notElement
    have pos := mirrors.builder.pos mem
    have lt := mirrors.builder.lt_count mem
    rcases Nat.lt_or_ge id 2 with less | ge
    · omega
    · have isOpen := (mirrors.builder.doc.node id pos lt).unclosed mem notElement
      rw [closed id ge lt] at isOpen
      cases isOpen
  obtain ⟨frames, around, spine, stands, -⟩ := inStep.fits.exists_doctype state
  obtain ⟨before, doctype, after, split, rfl, isDoctype, rfl⟩ :=
    Builder.exists_path_of_spine spine
  have doctypeMem : doctype ∈ ids :=
    mirrors.builder.mem_ids (by simp [split]) (by rw [isDoctype]; nofun)
  obtain rfl : doctype = 1 := isFirst doctype doctypeMem (by rw [isDoctype]; nofun)
  have sorted := mirrors.builder.pairwise
  rw [path] at split
  rw [split] at sorted
  have nothingBefore : before = [] := by
    rw [List.eq_nil_iff_forall_not_mem]
    intro id mem
    have standsIn := stands _ (List.mem_map.2 ⟨id, mem, rfl⟩)
    have idMem : id ∈ ids := by
      refine mirrors.builder.mem_ids (by simp [path, split, mem]) fun isDocument ↦ ?_
      rw [isDocument] at standsIn
      cases standsIn
    have isOne := isFirst id idMem fun isElement ↦ by
      rw [isElement] at standsIn
      cases standsIn
    have greater := (List.pairwise_append.1 sorted).2.2 id mem 1 List.mem_cons_self
    omega
  subst nothingBefore
  obtain ⟨rest, rfl⟩ : ∃ rest, ids = 1 :: rest := by
    cases ids with
    | nil => cases doctypeMem
    | cons id rest => exact ⟨rest, congrArg (· :: rest) (List.cons.inj split).1⟩
  have nothingBehind : rest = [] := by
    rw [List.eq_nil_iff_forall_not_mem]
    intro id mem
    have less := mirrors.builder.lt_of_mem_rest mem
    have pos := mirrors.builder.pos (List.mem_cons_of_mem 1 mem)
    omega
  rw [nothingBehind]

end Encloses

/-- Behind the opening bracket, the reading of the document type encloses that of the subset. -/
private theorem encloses_start (text uri uri' : Text) :
    Encloses text ((start text.inSubset uri .xml).after 5) (start text uri' .dtd) := by
  have nested := after_nested text.inSubset uri .xml 5
  have split : text.inSubset = Text.subsetOpening ++ (text ++ Text.subsetEnding) :=
    List.append_assoc _ _ _
  obtain ⟨tokens, scanner⟩ := Scanner.tokens_subsetOpening (text ++ Text.subsetEnding)
  rw [← split] at tokens scanner
  have reading : (start text.inSubset uri .xml).after 5 =
      ⟨Scanner.atSubset (text ++ Text.subsetEnding),
        (Builder.start text.inSubset uri .xml).applyAll subsetOpeningTokens⟩ := by
    have taken : (Scanner.start text.inSubset .xml).tokens.take 5 = subsetOpeningTokens := by
      have all : (Scanner.start text.inSubset .xml).tokens = _ := tokens
      rw [all]
      exact List.take_left' rfl
    rw [after_eq]
    exact congrArg₂ Reading.mk scanner (congrArg _ taken)
  have mirrors := Builder.mirrors_subsetOpening text.inSubset text uri uri'
  refine ⟨nested, start_nested text uri' .dtd, ?_, [1], ?_⟩
  · rw [reading]
    refine ⟨rfl, ?_, rfl, ?_⟩
    · exact (Nat.zero_add _).symm
    · exact Scanner.sameWords_of_isWordBreak_nil (by decide) _
  · rw [reading]
    exact ⟨(Nat.zero_add _).symm, mirrors, nofun, nofun⟩

/-! ### The end of the document type -/

/-- The end of a subset and of its document type returns to a node around, and spares what is not
open. -/
private theorem applyAll_subsetEnding {b : Builder} (linked : b.Linked) (offset : Nat) :
    b.Returned (b.applyAll (subsetEndingTokens offset)) ∧
      Builder.Spares True b (b.applyAll (subsetEndingTokens offset)) := by
  have tokens : b.applyAll (subsetEndingTokens offset) =
      (b.apply ⟨.subsetClose, ⟨offset, offset + 1⟩, [']']⟩).apply
        ⟨.doctypeClose, ⟨offset + 1, offset + 2⟩, ['>']⟩ := by
    have atEnd : ∀ b : Builder, b.apply ⟨.eos, ⟨offset + 2, offset + 2⟩, []⟩ = b := fun _ ↦ rfl
    rw [Builder.applyAll, subsetEndingTokens, List.foldl_cons, List.foldl_cons, List.foldl_cons,
      List.foldl_nil, atEnd]
  rw [tokens]
  constructor
  · exact (Builder.returned_apply linked rfl).trans linked
      (Builder.returned_apply (linked.apply _) rfl)
  · refine Builder.Spares.trans ((Builder.spares_apply linked ?_ ?_).mono fun _ ↦ trivial)
      ((Builder.spares_apply (linked.apply _) ?_ ?_).mono fun _ ↦ trivial)
    all_goals
      intro closes
      cases closes

/-- Where nothing but the document type is open, the nodes in it are final. -/
private theorem node_inSubset (mirrors : Mirrors Inset.ofSubset [Document.root] [1] outer inner)
    (offset : Nat) {id : Nat} (le : 2 ≤ id) (lt : id < inner.builder.doc.count) :
    (outer.builder.applyAll (subsetEndingTokens offset)).finish.node id =
      (inner.builder.finish.node id).moved Text.subsetOpening.byteSize 0 := by
  have linked := mirrors.builder.outer_linked
  obtain ⟨returned, spares⟩ := applyAll_subsetEnding linked offset
  have lt' : id < outer.builder.doc.count := mirrors.builder.doc.count_eq.symm ▸ lt
  have isOther : id ∉ [1] := by
    rw [List.mem_singleton]
    omega
  have notRoot : id ∉ [Document.root] := by
    rw [List.mem_singleton, Document.root]
    omega
  have notOpen : id ∉ inner.builder.doc.path inner.builder.current := by
    rw [mirrors.builder.inner_path]
    exact fun mem ↦ (List.mem_append.1 mem).elim isOther notRoot
  have notOpen' : id ∉ outer.builder.doc.path outer.builder.current := by
    rw [mirrors.builder.outer_path]
    exact fun mem ↦ (List.mem_append.1 mem).elim isOther notRoot
  have node := (mirrors.builder.doc.node id (by omega) lt).seen_eq le le isOther
  simp only [Inset.ofSubset, Node.seen_true] at node
  have outerNode := Builder.node_finish (returned.linked linked)
    fun mem ↦ notOpen' (spares.mem_path id lt' mem)
  have innerNode := Builder.node_finish mirrors.builder.inner_linked notOpen
  calc (outer.builder.applyAll (subsetEndingTokens offset)).finish.node id
    _ = outer.builder.doc.node id := outerNode.trans (spares.node_eq id lt' notOpen')
    _ = (inner.builder.doc.node id).moved Text.subsetOpening.byteSize 0 := node
    _ = (inner.builder.finish.node id).moved Text.subsetOpening.byteSize 0 := by rw [innerNode]

/-- Behind the declarations, the document type ends and nothing in it changes. -/
private theorem finish_inSubset (mirrors : Mirrors Inset.ofSubset [Document.root] ids outer inner)
    (offset : Nat) :
    let xml := (outer.builder.applyAll (subsetEndingTokens offset)).finish
    let dtd := inner.builder.finish
    xml.Linked ∧ dtd.Linked ∧ 1 < dtd.count ∧ xml.count = dtd.count ∧
      xml.frame 1 = .doctype ∧ dtd.frame 1 = .doctype ∧
      (∀ id, 1 ≤ id → id < dtd.count → xml.children id = dtd.children id) ∧
      (ids = [1] → ∀ id, 2 ≤ id → id < dtd.count →
        xml.node id = (dtd.node id).moved Text.subsetOpening.byteSize 0) := by
  intro xml dtd
  have linked := mirrors.builder.outer_linked
  have returned := (applyAll_subsetEnding linked offset).1
  have outerFinish :=
    Builder.retouched_finish (outer.builder.applyAll (subsetEndingTokens offset))
  have innerFinish := Builder.retouched_finish inner.builder
  have count : outer.builder.doc.count = inner.builder.doc.count := mirrors.builder.doc.count_eq
  have nodes := mirrors.builder.doc.node
  have lt : 1 < inner.builder.doc.count := mirrors.builder.doc.first_le
  have isDoctype : inner.builder.doc.frame 1 = .doctype :=
    (nodes 1 (Nat.le_refl 1) lt).isDoctype Nat.one_lt_two
  refine ⟨outerFinish.linked (returned.linked linked).doc,
    innerFinish.linked mirrors.builder.inner_linked.doc, ?_, ?_, ?_, ?_, ?_, ?_⟩
  · rw [innerFinish.count_eq]
    exact lt
  · rw [outerFinish.count_eq, returned.doc.count_eq, innerFinish.count_eq, count]
  · rw [outerFinish.frame_eq, returned.doc.frame_eq, ← isDoctype]
    exact mirrors.builder.frame_eq (Nat.le_refl 1) lt
  · rw [innerFinish.frame_eq, isDoctype]
  · intro id pos less
    rw [innerFinish.count_eq] at less
    rw [outerFinish.children_eq, returned.doc.children_eq, innerFinish.children_eq]
    have same := (nodes id pos less).children
    simp only [Inset.ofSubset, Nat.add_zero, List.map_id'] at same
    exact same
  · rintro rfl id le less
    exact node_inSubset mirrors offset le (innerFinish.count_eq ▸ less)

end Reading

/-! ### Both documents -/

/-- A document type that is the first node is that of the document. -/
private theorem Document.Linked.doctype_eq {doc : Document} (linked : doc.Linked)
    (lt : 1 < doc.count) (isDoctype : doc.frame 1 = .doctype) : doc.doctype = some 1 := by
  obtain ⟨parent, less, hasParent⟩ := linked.exists_parent 1 lt (by decide)
  obtain rfl : parent = root := Nat.lt_one_iff.1 less
  have mem : 1 ∈ doc.children root := (linked.mem_children root 1).2 ⟨lt, hasParent⟩
  obtain ⟨first, others, children⟩ := List.exists_cons_of_ne_nil (List.ne_nil_of_mem mem)
  have sorted := linked.sorted root
  rw [children] at mem sorted
  have isFirst : first = 1 := by
    rcases List.mem_cons.1 mem with eq | isOther
    · exact eq.symm
    · have pos : root < first :=
        (linked.lt_of_mem_children (children ▸ List.mem_cons_self)).1
      have less := (List.pairwise_cons.1 sorted).1 1 isOther
      rw [root] at pos
      omega
  have found : (doc.node 1).kind.isDoctype = true := by
    rw [NodeKind.isDoctype_eq, decide_eq_true_eq]
    exact isDoctype
  rw [doctype, children, isFirst, List.find?_cons, found]

/-- Declarations are read in an internal subset as they are on their own, if the text has no bracket
and ends between declarations: with the same tokens, and if all that was opened is closed, with the
same nodes, both only further on in the text. -/
theorem parse_inSubset (text uri uri' : Text) (free : ']' ∉ text)
    (ends : ((Scanner.start text .dtd).after (Scanner.tokenize text .dtd).length).config.state =
      .subset) :
    let distance := Text.subsetOpening.byteSize
    let xml := Document.parse text.inSubset uri .xml
    let dtd := Document.parse text uri' .dtd
    Scanner.tokenize Text.subsetOpening .xml =
        subsetOpeningTokens ++ [Token.atEnd Text.subsetOpening] ∧
      Scanner.tokenize text.inSubset .xml =
        subsetOpeningTokens ++ (Scanner.tokenize text .dtd).dropLast.map (·.moved distance) ++
          subsetEndingTokens (text.byteSize + distance) ∧
      xml.doctype = some 1 ∧ dtd.doctype = some 1 ∧
      xml.count = dtd.count ∧ xml.children 1 = dtd.children 1 ∧
      xml.descendants 1 = dtd.descendants 1 ∧
      ((∀ id, 2 ≤ id → id < dtd.count → (dtd.node id).closed = true) →
        ∀ id, 2 ≤ id → id < dtd.count → xml.node id = (dtd.node id).moved distance 0) := by
  intro distance xml dtd
  let inner := Reading.start text uri' .dtd
  let outer := (Reading.start text.inSubset uri .xml).after 5
  have isSubset : ∀ n, (inner.after n).scanner.cursor.rest = [] →
      (inner.after n).scanner.config.state = .subset := by
    intro n atEnd
    rw [Reading.after_eq] at atEnd ⊢
    rw [Scanner.after_eq_of_atEnd atEnd]
    exact ends
  obtain ⟨n, atEnd, encloses, tokens⟩ :=
    (Reading.encloses_start text uri uri').exists_atEnd free isSubset
  have ahead := encloses.scanner.rest
  have offset := encloses.scanner.offset
  have size := encloses.inner_nested.standsIn.offset_add_rest
  rw [atEnd, List.nil_append] at ahead
  rw [atEnd, Text.byteSize_nil, Nat.add_zero] at size
  have config := encloses.scanner.config
  have ending : (outer.after n).scanner.tokens = subsetEndingTokens (text.byteSize + distance) := by
    rw [Scanner.tokens_subsetEnding (congrArg Scanner.Config.mode config)
      ((congrArg Scanner.Config.state config).trans (isSubset n atEnd)) ahead, offset, size]
    rfl
  obtain ⟨ids, mirrors⟩ := encloses.builder
  have isXml : xml = ((outer.after n).builder.applyAll
      (subsetEndingTokens (text.byteSize + distance))).finish := by
    rw [← ending, Reading.applyAll_tokens_after, Reading.applyAll_tokens_after]
    rfl
  have isDtd : dtd = (inner.after n).builder.finish := Reading.parse_eq_finish atEnd
  obtain ⟨xmlLinked, dtdLinked, lt, count, xmlDoctype, dtdDoctype, children, nodes⟩ :=
    Reading.finish_inSubset mirrors (text.byteSize + distance)
  rw [← isXml] at xmlLinked count xmlDoctype children nodes
  rw [← isDtd] at dtdLinked lt count dtdDoctype children nodes
  refine ⟨?_, ?_, xmlLinked.doctype_eq (count ▸ lt) xmlDoctype, dtdLinked.doctype_eq lt dtdDoctype,
    count, children 1 (Nat.le_refl 1) lt, ?_, fun closed ↦ ?_⟩
  · have opening := (Scanner.tokens_subsetOpening []).1
    rw [List.append_nil, Scanner.tokens_of_rest_nil rfl, Scanner.next_of_rest_nil rfl] at opening
    exact opening
  · obtain ⟨opening, place⟩ := Scanner.tokens_subsetOpening (text ++ Text.subsetEnding)
    have split : Text.subsetOpening ++ (text ++ Text.subsetEnding) = text.inSubset :=
      (List.append_assoc _ _ _).symm
    rw [split] at opening place
    have scanner : ((Reading.start text.inSubset uri .xml).after 5).scanner =
        (Scanner.start text.inSubset .xml).after 5 := by
      rw [Reading.after_eq]
      rfl
    rw [scanner, place, ending] at tokens
    rw [opening, tokens, List.append_assoc]
    rfl
  · have moved : ∀ id, 1 ≤ id → id < dtd.count →
        xml.children (id + 0) = (dtd.children id).map (· + 0) := by
      intro id pos less
      rw [Nat.add_zero, children id pos less]
      exact (List.map_id _).symm
    have below := Document.descendants_moved dtdLinked (Nat.le_of_eq count.symm) moved
      (Nat.le_refl 1) lt
    rw [Nat.add_zero] at below
    exact below.trans (List.map_id _)
  · refine nodes (encloses.ids_eq mirrors (isSubset n atEnd) fun id le less ↦ ?_)
    have finished := closed id le (by rwa [isDtd, (Builder.retouched_finish _).count_eq])
    rwa [isDtd, (Builder.kind_finish _ id).2] at finished

/-- A declaration and a comment behind it, which are nodes 2 and 3 of both documents. -/
theorem parse_inSubset_elementAndComment :
    let text : Text := ['<', '!', 'E', 'L', 'E', 'M', 'E', 'N', 'T', ' ', 'a', ' ', 'A', 'N', 'Y',
      '>', '\n', '<', '!', '-', '-', 'b', '-', '-', '>']
    let xml := Document.parse text.inSubset [] .xml
    let dtd := Document.parse text [] .dtd
    ']' ∉ text ∧
      ((Scanner.start text .dtd).after (Scanner.tokenize text .dtd).length).config.state =
        .subset ∧
      dtd.count = 4 ∧ (dtd.node 2).closed = true ∧ (dtd.node 3).closed = true ∧
      xml.node 2 = (dtd.node 2).moved 13 0 ∧ xml.node 3 = (dtd.node 3).moved 13 0 := by
  intro text xml dtd
  have free : ']' ∉ text := by decide
  have ends : ((Scanner.start text .dtd).after
      (Scanner.tokenize text .dtd).length).config.state = .subset := by decide +kernel
  have count : (Document.parse text [] .dtd).count = 4 := by decide +kernel
  have first : ((Document.parse text [] .dtd).node 2).closed = true := by decide +kernel
  have second : ((Document.parse text [] .dtd).node 3).closed = true := by decide +kernel
  have closed : ∀ id, 2 ≤ id → id < dtd.count → (dtd.node id).closed = true := by
    intro id le lt
    have lt : id < 4 := count ▸ lt
    obtain rfl | rfl : id = 2 ∨ id = 3 := by omega
    · exact first
    · exact second
  obtain ⟨-, -, -, -, -, -, -, nodes⟩ := parse_inSubset text [] [] free ends
  refine ⟨free, ends, count, first, second, ?_, ?_⟩
  · exact nodes closed 2 (by decide) (Nat.lt_of_lt_of_eq (by decide) count.symm)
  · exact nodes closed 3 (by decide) (Nat.lt_of_lt_of_eq (by decide) count.symm)

end TolerantXml
