import TolerantXml.Proofs.Reading.Lifetime
import TolerantXml.Proofs.Reading.Mirror

/-!
# The text of an element on its own

While an element is open, the reading of its document mirrors the reading of the text of the element
alone (`Lifetime.mirrors_after`): the scanner stands inside that text, and the builder adds the same
nodes. Behind the element nothing of it changes, and the text alone is at its end. So a text that
was cut out of a document as that of an element is parsed to the same tree (`parse_nodeText`).
-/

namespace TolerantXml

/-- The place of the text of an element: it starts at `offset`, and has `id` as its first node. -/
def Inset.ofElement (offset id : Nat) : Inset := ⟨offset, id - 1, 1, false⟩

/-! ### A document that is part of another one -/

/-- A document holds another one, whose text is a part of its text, from the node `id` on: all nodes
but the root are the same, only further on. -/
structure Document.Holds (doc part : Document) (id : Nat) : Prop where
  linked : part.Linked
  pos : 1 ≤ id
  isElement : doc.frame id = .element
  one_lt : 1 < part.count
  count_le : part.count + (id - 1) ≤ doc.count
  node : ∀ other, 1 ≤ other → other < part.count →
    Node.Mirrors (.ofElement (doc.node id).start id) other False (doc.node (other + (id - 1)))
      (part.node other)
  text : ∃ before behind : Text, doc.text = before ++ part.text ++ behind ∧
    before.byteSize = (doc.node id).start
  stop_le : ∀ other, 1 ≤ other → other < part.count → (part.node other).stop ≤ part.length

namespace Document.Holds

variable {doc part : Document} {id other : Nat}

private theorem first_add (h : Holds doc part id) : 1 + (id - 1) = id := Nat.add_sub_cancel' h.pos

/-- The first node is the only child of the root. -/
theorem children_root (h : Holds doc part id) : part.children root = [1] := by
  refine h.linked.children_eq_singleton fun child ↦ ?_
  rw [h.linked.mem_children]
  constructor
  · rintro ⟨lt, hasParent⟩
    by_contra notFirst
    have notRoot : child ≠ root := by
      rintro rfl
      rw [h.linked.root_parent] at hasParent
      cases hasParent
    rw [root] at notRoot
    exact (h.node child (by omega) lt).below (by omega) hasParent
  · rintro rfl
    obtain ⟨parent, less, hasParent⟩ := h.linked.exists_parent 1 h.one_lt (by decide)
    obtain rfl : parent = root := Nat.lt_one_iff.1 less
    exact ⟨h.one_lt, hasParent⟩

theorem frame_first (h : Holds doc part id) : part.frame 1 = .element := by
  have node := h.node 1 (Nat.le_refl 1) h.one_lt
  rw [h.first_add] at node
  exact node.frame.symm.trans h.isElement

/-- The first node is the one that the document has. -/
private theorem first_eq (h : Holds doc part id) :
    doc.node id = { (part.node 1).moved (doc.node id).start (id - 1) with
      parent := (doc.node id).parent } := by
  have node := h.node 1 (Nat.le_refl 1) h.one_lt
  rw [h.first_add] at node
  refine node.eq_moved (Nat.le_refl 1) not_false fun isComment ↦ ?_
  have isElement := h.frame_first.symm.trans isComment
  cases isElement

private theorem descendants_eq (h : Holds doc part id) :
    doc.descendants id = (part.descendants 1).map (· + (id - 1)) := by
  have below := descendants_moved h.linked h.count_le
    (fun other pos lt ↦ (h.node other pos lt).children) (Nat.le_refl 1) h.one_lt
  rwa [h.first_add] at below

/-- The nodes cover the same texts. -/
private theorem nodeText_eq (h : Holds doc part id) (pos : 1 ≤ other) (lt : other < part.count) :
    doc.nodeText (other + (id - 1)) = part.nodeText other := by
  obtain ⟨before, behind, text, start⟩ := h.text
  have node := h.node other pos lt
  have span : (doc.node (other + (id - 1))).span =
      (part.node other).span.moved before.byteSize := by
    rw [start, Node.span, node.start pos, node.stop not_false]
    rfl
  rw [nodeText, textOf, span, text]
  exact Span.text_moved (h.stop_le other pos lt)

end Document.Holds

/-! ### Two readings -/

/-- The opening of a start tag at the beginning of a text. -/
def Token.startTagOpen : Token := ⟨.startTagOpen, ⟨0, 1⟩, ['<']⟩

namespace Builder

variable {b : Builder}

/-- An element that is opened mirrors the one that is opened first in another document. -/
private theorem mirrors_startTagOpen (linked : b.Linked) (text uri : Text) (offset : Nat) :
    Mirrors (.ofElement offset b.doc.count) (b.doc.path b.current) [1]
      (b.apply (Token.startTagOpen.moved offset))
      ((start text uri .xml).apply Token.startTagOpen) := by
  have innerLinked := start_linked text uri .xml
  have innerCount : (start text uri .xml).doc.count = 1 := rfl
  have innerPath : (start text uri .xml).doc.path (start text uri .xml).current = [Document.root] :=
    innerLinked.doc.path_root
  let opened : Token := Token.startTagOpen.moved offset
  obtain ⟨count, path, node⟩ : _ ∧ _ ∧ _ := opens_apply linked (rfl : opened.kind = .startTagOpen)
  obtain ⟨count', path', node'⟩ : _ ∧ _ ∧ _ :=
    opens_apply innerLinked (rfl : Token.startTagOpen.kind = .startTagOpen)
  rw [innerCount] at count' path' node'
  rw [innerPath] at path'
  have pos : 1 ≤ b.doc.count := linked.doc.root_lt
  have shifted : 1 + (b.doc.count - 1) = b.doc.count := Nat.add_sub_cancel' pos
  constructor
  · exact linked.apply _
  · exact innerLinked.apply _
  · rw [path]
    simp only [Inset.ofElement, List.map_singleton, shifted, List.singleton_append]
  · exact path'
  · intro id mem
    exact Nat.le_sub_one_of_lt (linked.lt_of_mem_path mem)
  · refine ⟨?_, ?_, fun id idPos lt ↦ ?_⟩
    · rw [count, count']
      simp only [Inset.ofElement]
      omega
    · rw [count']
      exact Nat.le_succ 1
    · obtain rfl : id = 1 := by omega
      simp only [Inset.ofElement, shifted]
      rw [node, node']
      constructor
      · rfl
      · rfl
      · exact fun le ↦ absurd le (by decide)
      · exact fun le ↦ absurd le (by decide)
      · exact fun lt ↦ absurd lt (Nat.lt_irrefl 1)
      · exact fun _ ↦ rfl
      · exact fun _ ↦ rfl
      · exact fun _ ↦ rfl
      · exact fun notOpen ↦ absurd (List.mem_singleton_self 1) notOpen
      · exact fun _ _ ↦ rfl
  · exact nofun

end Builder

namespace Reading

variable {text : Text} {id length n : Nat} {opening : Reading}

/-- A reading that opens a start tag reads the same token as the text does that begins with it. -/
private theorem Steady.token_eq (h : opening.Steady text)
    (opens : opening.scanner.next.1.kind = .startTagOpen) :
    opening.scanner.next.1 = Token.startTagOpen.moved opening.scanner.cursor.offset ∧
      opening.next.scanner.config = (Scanner.Config.initial .xml).inStartTag := by
  have reads :=
    Scanner.next_startTagOpen h.nested.inStep.sound h.returning h.nested.mode_eq opens
  rw [Reading.next, reads]
  refine ⟨?_, rfl⟩
  simp only [Token.moved, Token.startTagOpen, Span.moved, Nat.zero_add, Nat.add_comm 1]

/-- At the end of a text in which nothing is open, the end changes no node but the root. -/
private theorem Steady.finish_of_closed {r : Reading} (h : r.Steady text)
    (atEnd : r.scanner.cursor.rest = [])
    (closed : r.builder.doc.path r.builder.current = [Document.root]) {other : Nat}
    (pos : 1 ≤ other) (lt : other < r.builder.doc.count) :
    r.builder.finish.node other = r.builder.doc.node other ∧
      (r.builder.doc.node other).stop ≤ text.byteSize := by
  have notOpen : other ∉ r.builder.doc.path r.builder.current := by
    rw [closed, List.mem_singleton, Document.root]
    omega
  have size : r.scanner.cursor.offset = text.byteSize := by
    have size := h.nested.standsIn.offset_add_rest
    rwa [atEnd, Text.byteSize_nil, Nat.add_zero] at size
  refine ⟨Builder.node_finish h.linked notOpen, ?_⟩
  rw [← size]
  exact (h.nested.spans.ended other lt notOpen).2

namespace Lifetime

/-- What the document reads while the element is open is ahead in the text alone. -/
private theorem isPrefix_taken (h : Lifetime text id length opening) (le : n ≤ length)
    {inner : Scanner} (inside : Scanner.Embeds opening.scanner.cursor.offset
      (opening.next.after (length + 1)).scanner.cursor.rest (opening.next.after n).scanner inner) :
    inner.cursor.rest ≠ [] ∧
      (opening.next.after n).scanner.next.1.text <+: inner.cursor.rest := by
  obtain ⟨kind, taken, config, -, nonempty, starts, eq⟩ :=
    Scanner.next_of_rest_ne_nil (h.ahead le)
  obtain ⟨passed, rest, -⟩ := exists_read (opening.next.after n).next (length - n)
  have closed :
      (opening.next.after n).next.after (length - n) = opening.next.after (length + 1) := by
    rw [← after_succ, ← after_add]
    congr 1
    omega
  have split := Cursor.rest_advance starts
  have behind : (opening.next.after n).next.scanner.cursor =
      (opening.next.after n).scanner.cursor.advance taken :=
    congrArg (fun result ↦ result.2.cursor) eq
  rw [closed, behind] at rest
  rw [rest, inside.rest, ← List.append_assoc] at split
  have inner_rest := List.append_cancel_right split
  rw [eq, ← inner_rest]
  exact ⟨List.append_ne_nil_of_left_ne_nil nonempty _, List.prefix_append taken passed⟩

section Mirrors

variable (h : Lifetime text id length opening) {covered : Text}
  (covers : Covers opening length covered) (uri : Text)

include h covers

/-- Behind the opening of the start tag, the document and the text alone have the same element. -/
private theorem mirrors_opening :
    Scanner.Embeds opening.scanner.cursor.offset
        (opening.next.after (length + 1)).scanner.cursor.rest
        opening.next.scanner (start covered uri .xml).next.scanner ∧
      Mirrors (.ofElement opening.scanner.cursor.offset id)
        (opening.builder.doc.path opening.builder.current) [1]
        opening.next (start covered uri .xml).next := by
  have steady := start_steady covered uri
  obtain ⟨opens, inside⟩ := Scanner.embeds_startTagOpen h.steady.nested.inStep.sound
    h.steady.returning h.steady.nested.mode_eq h.opens covers.rest covers.last
  obtain ⟨token, -⟩ := h.steady.token_eq h.opens
  obtain ⟨token', config⟩ := steady.token_eq opens
  have builder := Builder.mirrors_startTagOpen h.steady.linked covered uri
    opening.scanner.cursor.offset
  rw [← token, h.count_eq] at builder
  refine ⟨inside, inside.offset, ?_, ?_, ?_⟩
  · rw [Reading.next, Reading.next, token']
    exact builder
  · rw [config]
    intro awaitsValue
    cases awaitsValue
  · rw [config]
    intro atName
    cases atName

/-- While an element is open, the reading of the document mirrors that of its text alone. -/
theorem mirrors_after (le : n ≤ length + 1) :
    Scanner.Embeds opening.scanner.cursor.offset
        (opening.next.after (length + 1)).scanner.cursor.rest
        (opening.next.after n).scanner ((start covered uri .xml).next.after n).scanner ∧
      ∃ ids, Mirrors (.ofElement opening.scanner.cursor.offset id)
        (opening.builder.doc.path opening.builder.current) ids
        (opening.next.after n) ((start covered uri .xml).next.after n) := by
  induction n with
  | zero =>
    obtain ⟨inside, mirrors⟩ := h.mirrors_opening covers uri
    exact ⟨inside, [1], mirrors⟩
  | succ n ih =>
    have short : n ≤ length := Nat.le_of_succ_le_succ le
    obtain ⟨inside, ids, mirrors⟩ := ih (Nat.le_of_succ_le le)
    have outerSteady := h.steady.next.after n
    have innerSteady := (start_steady covered uri).next.after n
    obtain ⟨ahead, reach⟩ := h.isPrefix_taken short inside
    have last :
        ((start covered uri .xml).next.after n).scanner.cursor.rest.getLast? = some '>' := by
      have last := covers.last
      rw [← innerSteady.nested.standsIn.text_eq, Cursor.text,
        List.getLast?_append_of_ne_nil _ ahead] at last
      exact last
    have reads := inside.next_of_cut innerSteady.nested.mode_eq last reach
    -- The element is on the path of the document, so the text alone has an open node too.
    have isOpen := h.mem_path short
    rw [mirrors.builder.outer_path, List.mem_append] at isOpen
    have isInner := isOpen.resolve_right fun mem ↦ by
      have le := mirrors.builder.above_le id mem
      have pos := h.pos
      simp only [Inset.ofElement] at le
      omega
    rw [after_succ _ n, after_succ _ n]
    refine ⟨inside.next ahead reads, ?_⟩
    cases ids with
    | nil => cases isInner
    | cons place rest =>
      refine mirrors.next outerSteady.nested innerSteady.nested ahead reads
        (fun isEndTag ↦ ?_) (fun sameLines ↦ by cases sameLines)
      have notLast : n ≠ length := by
        rintro rfl
        have closes := h.closes
        have same := congrArg (fun result ↦ result.1.kind) reads
        rw [same, Token.moved, isEndTag] at closes
        cases closes
      refine ⟨Nat.le_refl 1, id, ?_, ?_⟩
      · rw [← after_succ]
        exact h.mem_path (by omega)
      · have pos := h.pos
        simp only [Inset.ofElement]
        omega

/-- Behind the element, the text alone is at its end, and everything in it was left. -/
private theorem mirrors_closed : ∃ inner : Reading, inner.Steady covered ∧
    inner.scanner.cursor.rest = [] ∧ Document.parse covered uri .xml = inner.builder.finish ∧
    Mirrors (.ofElement opening.scanner.cursor.offset id)
      (opening.builder.doc.path opening.builder.current) []
      (opening.next.after (length + 1)) inner := by
  obtain ⟨inside, ids, mirrors⟩ := h.mirrors_after covers uri (Nat.le_refl (length + 1))
  have nothing : ids = [] := by
    rw [List.eq_nil_iff_forall_not_mem]
    intro place mem
    have isOpen : place + (id - 1) ∈ (opening.next.after (length + 1)).builder.doc.path
        (opening.next.after (length + 1)).builder.current := by
      rw [mirrors.builder.outer_path]
      exact List.mem_append_left _ (List.mem_map_of_mem mem)
    have less := h.lt_of_mem_path isOpen
    have pos := mirrors.builder.pos mem
    omega
  have atEnd := List.self_eq_append_left.1 inside.rest
  subst nothing
  refine ⟨_, (start_steady covered uri).next.after (length + 1), atEnd, ?_, mirrors⟩
  exact parse_eq_finish (n := length + 2) atEnd

end Mirrors

section GoesOn

variable (h : Lifetime text id length opening) {covered : Text}
  (covers : Covers opening length covered) {doc : Document}
  (goesOn : GoesOn text id length opening doc)

include h goesOn

private theorem start_of_goesOn : (doc.node id).start = opening.scanner.cursor.offset := by
  rw [goesOn.node_eq id (Nat.le_refl id) (h.lt_count (length + 1)), h.start_eq]

include covers

/-- The text of the document, cut at the start and the end of the element. -/
private theorem cut_of_goesOn : ∃ before behind : Text,
    doc.text = before ++ covered ++ behind ∧ before.byteSize = (doc.node id).start := by
  have stands := h.steady.nested.standsIn
  refine ⟨opening.scanner.cursor.before.reverse,
    (opening.next.after (length + 1)).scanner.cursor.rest, ?_, ?_⟩
  · rw [goesOn.text_eq, List.append_assoc, ← covers.rest]
    exact stands.text_eq.symm
  · rw [h.start_of_goesOn goesOn, stands.offset_eq, Text.byteSize_reverse]

/-- The element covers what was read in its stretch. -/
private theorem nodeText_of_goesOn : doc.nodeText id = covered := by
  obtain ⟨before, behind, cut, start⟩ := h.cut_of_goesOn covers goesOn
  have first := goesOn.node_eq id (Nat.le_refl id) (h.lt_count (length + 1))
  have stop : (doc.node id).stop = (doc.node id).start + covered.byteSize := by
    rw [h.start_of_goesOn goesOn, first, h.stop_eq, covers.offset]
  rw [Document.nodeText, Document.textOf, Node.span, stop, cut, ← start]
  exact Span.text_eq

end GoesOn

/-- A document that goes on behind an element holds the document of the text of the element. -/
private theorem holds (h : Lifetime text id length opening) {doc : Document}
    (goesOn : GoesOn text id length opening doc) (isElement : doc.frame id = .element)
    (uri : Text) : doc.Holds (Document.parse (doc.nodeText id) uri .xml) id := by
  obtain ⟨covered, covers⟩ := h.exists_covers
  obtain ⟨inner, steady, atEnd, parsed, mirrors⟩ := h.mirrors_closed covers uri
  have finished := Builder.retouched_finish inner.builder
  have mirrored := mirrors.builder.doc
  have isCovered : inner.builder.doc.text = covered := steady.nested.spans.text_eq
  have node {other : Nat} (pos : 1 ≤ other) (lt : other < inner.builder.doc.count) :=
    steady.finish_of_closed atEnd mirrors.builder.inner_path pos lt
  have pos := h.pos
  have inside := h.lt_count (length + 1)
  have count := mirrored.count_eq
  simp only [Inset.ofElement] at count
  rw [h.nodeText_of_goesOn covers goesOn, parsed]
  constructor
  · exact finished.linked steady.linked.doc
  · exact pos
  · exact isElement
  · rw [finished.count_eq]
    omega
  · rw [finished.count_eq, ← count]
    exact goesOn.count_le
  · intro other otherPos lt
    rw [finished.count_eq] at lt
    rw [h.start_of_goesOn goesOn, (node otherPos lt).1,
      goesOn.node_eq _ (by omega) (by omega)]
    exact (mirrored.node other otherPos lt).congr (by simp)
  · rw [finished.text_eq, isCovered]
    exact h.cut_of_goesOn covers goesOn
  · intro other otherPos lt
    rw [finished.count_eq] at lt
    rw [(node otherPos lt).1, Document.length, finished.text_eq, isCovered]
    exact (node otherPos lt).2

end Lifetime

end Reading

/-- The text of an element that has a start tag and an end is parsed on its own to one element,
which is that of the document with all that is in it: only the offsets are moved by the start of the
element, and the numbers of the nodes, which come in the same order. Whether a comment follows on
the line of an end tag depends on what is in front, and is left out of sight. -/
theorem parse_nodeText (text uri uri' : Text) {id : Nat} {element : Element}
    (isElement : ((Document.parse text uri .xml).node id).kind = .element element)
    (opened : element.startTagOpen.isSome = true)
    (ended : element.selfClosed = true ∨ element.endTagClose.isSome = true) :
    let doc := Document.parse text uri .xml
    let alone := Document.parse (doc.nodeText id) uri' .xml
    let distance := (doc.node id).start
    let shift := id - 1
    alone.children Document.root = [1] ∧ alone.frame 1 = .element ∧
      (alone.node 1).parent = some Document.root ∧
      doc.node id =
        { (alone.node 1).moved distance shift with parent := (doc.node id).parent } ∧
      (∀ other, 2 ≤ other → other < alone.count →
        (doc.node (other + shift)).seen false =
          ((alone.node other).moved distance shift).seen false) ∧
      doc.descendants id = (alone.descendants 1).map (· + shift) ∧
      ∀ other, 1 ≤ other → other < alone.count →
        doc.nodeText (other + shift) = alone.nodeText other := by
  intro doc alone distance shift
  have lt : id < doc.count := by
    by_contra outside
    rw [Document.node_of_count_le (Nat.le_of_not_lt outside)] at isElement
    cases isElement
  have marks : (doc.node id).kind.marks = (true, true) := by
    have ended' : (element.selfClosed || element.endTagClose.isSome) = true := by
      rw [Bool.or_eq_true]
      exact ended
    rw [isElement, NodeKind.marks, opened, ended']
  have frame : doc.frame id = .element := by
    rw [Document.frame, isElement]
    rfl
  obtain ⟨length, opening, lifetime, goesOn⟩ := Reading.exists_lifetime lt marks
  have holds : doc.Holds alone id := lifetime.holds goesOn frame uri'
  have children := holds.children_root
  have first : 1 ∈ alone.children Document.root := by
    rw [children]
    exact List.mem_singleton_self 1
  refine ⟨children, holds.frame_first, ((holds.linked.mem_children _ _).1 first).2,
    holds.first_eq, ?_, holds.descendants_eq, fun other ↦ holds.nodeText_eq⟩
  intro other le less
  have pos : 1 ≤ other := Nat.le_of_succ_le le
  exact (holds.node other pos less).seen_eq pos le not_false

/-- The second element of a document on its own. In the document its comment is on the line of the
end tag of the first one, and alone it is not, but is the same otherwise. -/
theorem parse_nodeText_behindElement :
    let text : Text := ['<', 'a', '/', '>', '<', 'b', '>', '<', '!', '-', '-', 'c', '-', '-', '>',
      '<', '/', 'b', '>']
    let doc := Document.parse text [] .xml
    let alone := Document.parse (doc.nodeText 2) [] .xml
    (doc.node 2).kind = .element
        { tagName := some ['b'], startTagOpen := some 4, startTagClose := some 6
          endTagOpen := some 15, endTagClose := some 18 } ∧
      alone.children Document.root = [1] ∧ alone.count = 3 ∧ (doc.node 2).start = 4 ∧
      doc.descendants 2 = (alone.descendants 1).map (· + 1) ∧
      (doc.node 3).seen false = ((alone.node 2).moved 4 1).seen false ∧
      (doc.node 3).kind = .comment { content := some ⟨11, 12⟩, sameLine := true } ∧
      (alone.node 2).kind = .comment { content := some ⟨7, 8⟩, sameLine := false } := by
  intro text doc alone
  have isElement : ((Document.parse text [] .xml).node 2).kind = .element
      { tagName := some ['b'], startTagOpen := some 4, startTagClose := some 6
        endTagOpen := some 15, endTagClose := some 18 } := by decide +kernel
  have count : (Document.parse ((Document.parse text [] .xml).nodeText 2) [] .xml).count = 3 := by
    decide +kernel
  have start : ((Document.parse text [] .xml).node 2).start = 4 := by decide +kernel
  have inDocument : ((Document.parse text [] .xml).node 3).kind =
      .comment { content := some ⟨11, 12⟩, sameLine := true } := by decide +kernel
  have onItsOwn :
      ((Document.parse ((Document.parse text [] .xml).nodeText 2) [] .xml).node 2).kind =
        .comment { content := some ⟨7, 8⟩, sameLine := false } := by decide +kernel
  obtain ⟨children, -, -, -, nodes, descendants, -⟩ :=
    parse_nodeText text [] [] isElement rfl (.inr rfl)
  have node := nodes 2 (Nat.le_refl 2) (Nat.lt_of_lt_of_eq (by decide) count.symm)
  rw [start] at node
  exact ⟨isElement, children, count, start, descendants, node, inDocument, onItsOwn⟩

end TolerantXml
