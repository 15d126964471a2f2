import TolerantXml.Proofs.Reading.Nesting
import TolerantXml.Proofs.Reading.Settled
import TolerantXml.Proofs.Scanner.StartTag

/-!
# From the start tag of an element to its end

An element with a start tag was opened where that tag was read (`exists_opening`), and an element
that came to its end did so at a token that closes a tag, where it was the current node
(`exists_closing`). In between it is open, and behind that token it stays as it is. So an element
with a start tag and an end has a stretch of the reading of its own (`Lifetime`).
-/

namespace TolerantXml

/-- The opening of a start tag opens an element behind all other nodes. -/
theorem Builder.opens_apply {b : Builder} {token : Token} (linked : b.Linked)
    (opens : token.kind = .startTagOpen) :
    (b.apply token).doc.count = b.doc.count + 1 ∧
      (b.apply token).doc.path (b.apply token).current = b.doc.count :: b.doc.path b.current ∧
      (b.apply token).doc.node b.doc.count =
        { kind := .element { startTagOpen := some token.start }, start := token.start
          stop := token.stop, parent := some b.current } := by
  let opened : Node :=
    { kind := .element { startTagOpen := some token.start }, start := token.start
      stop := token.stop }
  have ended := retouched_setCurrentStop b token.span.start
  have endedLinked := ended.linked linked
  have path := path_openNode endedLinked opened
  have node := Document.node_addChild opened endedLinked.current_lt b.doc.count
  rw [ended.doc.count_eq, ended.doc.path_eq, ended.current_eq] at path
  rw [ended.doc.count_eq, if_pos rfl] at node
  simp only [apply, opens, openElement]
  refine ⟨?_, path, node.trans ?_⟩
  · rw [openNode, Document.count_addChild, ended.doc.count_eq]
  · rw [ended.current_eq]

namespace Reading

variable {text uri : Text} {r : Reading} {id n : Nat}

/-- Text that was read was ahead. -/
theorem exists_read (r : Reading) (n : Nat) : ∃ passed : Text,
    r.scanner.cursor.rest = passed ++ (r.after n).scanner.cursor.rest ∧
      (r.after n).scanner.cursor.offset = r.scanner.cursor.offset + passed.byteSize := by
  induction n generalizing r with
  | zero => exact ⟨[], rfl, rfl⟩
  | succ n ih =>
    obtain ⟨passed, rest, offset⟩ := ih r.next
    rw [after, offset]
    by_cases ahead : r.scanner.cursor.rest = []
    · rw [next_of_rest_nil ahead] at rest ⊢
      exact ⟨passed, rest, rfl⟩
    · obtain ⟨kind, taken, config, -, -, starts, eq⟩ := Scanner.next_of_rest_ne_nil ahead
      refine ⟨taken ++ passed, ?_, ?_⟩
      · rw [List.append_assoc, ← rest, Reading.next, eq, Cursor.rest_advance starts]
      · simp only [Reading.next, eq, Cursor.advance, Text.byteSize_append]
        omega

/-- What holds of a reading of a document between two tokens. -/
structure Steady (text : Text) (r : Reading) : Prop where
  nested : r.Nested text .xml
  returning : r.scanner.config.Returning
  value : r.scanner.config.state.awaitsValue = true →
    ∃ index, r.builder.pending = some (r.builder.current, index)

theorem start_steady (text uri : Text) : (start text uri .xml).Steady text where
  nested := start_nested text uri .xml
  returning := Scanner.Config.initial_returning .xml
  value := (start_aimed text uri .xml).value

namespace Steady

theorem linked (h : r.Steady text) : r.builder.Linked := h.nested.inStep.linked

private theorem aimed (h : r.Steady text) : r.Aimed := ⟨h.nested.inStep, h.value⟩

private theorem rescans (h : r.Steady text) {next : Scanner.Config}
    (rescans : r.scanner.config.Rescans next) :
    Steady text ⟨⟨next, r.scanner.cursor⟩, r.builder⟩ where
  nested := h.nested.rescans rescans
  returning := h.returning.rescans h.nested.inStep.sound rescans
  value := (h.aimed.rescans rescans).value

private theorem emits (h : r.Steady text) {token : Token} {next : Scanner.Config}
    (emits : r.Emits token next) :
    Steady text ⟨⟨next, r.scanner.cursor.advance token.text⟩, r.builder.apply token⟩ where
  nested := h.nested.emits emits
  returning := h.returning.emits h.nested.inStep.sound emits.transition
  value := (h.aimed.emits emits).value

theorem after (h : r.Steady text) (n : Nat) : (r.after n).Steady text :=
  after_invariant (fun _ _ steady rescans ↦ steady.rescans rescans)
    (fun _ _ _ steady ↦ steady.emits) h n

theorem next (h : r.Steady text) : r.next.Steady text := h.after 1

end Steady

/-! ### The opening of an element -/

/-- An element with a start tag was opened by it. -/
theorem exists_opening (text uri : Text)
    (lt : id < ((start text uri .xml).after n).builder.doc.count)
    (opened : (((start text uri .xml).after n).builder.doc.node id).kind.marks.1 = true) :
    ∃ m < n, ((start text uri .xml).after m).scanner.next.1.kind = .startTagOpen ∧
      ((start text uri .xml).after m).builder.doc.count = id := by
  induction n with
  | zero =>
    obtain rfl : id = 0 := Nat.lt_one_iff.1 lt
    cases opened
  | succ n ih =>
    have steady := (start_steady text uri).after n
    rw [after_succ] at lt opened
    by_cases old : id < ((start text uri .xml).after n).builder.doc.count
    · have before : (((start text uri .xml).after n).builder.doc.node id).kind.marks.1 = true := by
        rcases steady.aimed.closes_or_spares with ⟨-, closes⟩ | spares
        · rw [← closes.opened_eq id old]
          exact opened
        · rw [← spares.marks_eq id old]
          exact opened
      obtain ⟨m, less, opening⟩ := ih old before
      exact ⟨m, Nat.lt_succ_of_lt less, opening⟩
    · rcases steady.aimed.closes_or_spares with ⟨-, closes⟩ | spares
      · exact absurd (closes.returned.doc.count_eq ▸ lt) old
      · have opens := spares.unopened id (Nat.le_of_not_lt old) lt opened
        refine ⟨n, Nat.lt_succ_self n, opens, ?_⟩
        rw [Reading.next, (Builder.opens_apply steady.linked opens).1] at lt
        omega

/-- An element that was opened has no end yet. -/
private theorem Steady.fresh_of_opens (h : r.Steady text)
    (opens : r.scanner.next.1.kind = .startTagOpen) :
    r.builder.doc.count < r.next.builder.doc.count ∧
      (r.next.builder.doc.node r.builder.doc.count).kind.marks.2 = false := by
  have opened : r.builder.doc.count < r.next.builder.doc.count := by
    rw [Reading.next, (Builder.opens_apply h.linked opens).1]
    exact Nat.lt_succ_self _
  rcases h.aimed.closes_or_spares with ⟨closes, -⟩ | spares
  · rw [opens] at closes
    cases closes
  · exact ⟨opened, spares.unended _ (Nat.le_refl _) opened⟩

/-! ### The end of an element -/

/-- An element that came to its end did so where it was the current node, at the end of a tag. -/
theorem exists_closing (h : r.Steady text) (lt : id < r.builder.doc.count)
    (fresh : (r.builder.doc.node id).kind.marks.2 = false)
    (ended : ((r.after n).builder.doc.node id).kind.marks.2 = true) :
    ∃ m < n, (r.after m).scanner.next.1.kind.Closes ∧ (r.after m).builder.current = id := by
  induction n with
  | zero =>
    have open_ : (r.builder.doc.node id).kind.marks.2 = true := ended
    rw [fresh] at open_
    cases open_
  | succ n ih =>
    by_cases before : ((r.after n).builder.doc.node id).kind.marks.2 = true
    · obtain ⟨m, less, closing⟩ := ih before
      exact ⟨m, Nat.lt_succ_of_lt less, closing⟩
    · have old := Nat.lt_of_lt_of_le lt (h.aimed.keeps_after n).count_le
      rw [after_succ] at ended
      rcases (h.after n).aimed.closes_or_spares with ⟨closes, closesTag⟩ | spares
      · refine ⟨n, Nat.lt_succ_self n, closes, ?_⟩
        by_contra isOther
        rw [closesTag.node_eq id (Ne.symm isOther)] at ended
        exact before ended
      · rw [spares.marks_eq id old] at ended
        exact absurd ended before

/-! ### Elements with a start tag and an end -/

/-- The stretch of a reading in which an element comes about: the next token opens it, and the token
behind `length` others closes it. -/
structure Lifetime (text : Text) (id length : Nat) (opening : Reading) : Prop where
  steady : opening.Steady text
  opens : opening.scanner.next.1.kind = .startTagOpen
  count_eq : opening.builder.doc.count = id
  closes : (opening.next.after length).scanner.next.1.kind.Closes
  current_eq : (opening.next.after length).builder.current = id

/-- What is read from the start tag of an element up to the token that closes it. -/
structure Covers (opening : Reading) (length : Nat) (covered : Text) : Prop where
  rest : opening.scanner.cursor.rest =
    covered ++ (opening.next.after (length + 1)).scanner.cursor.rest
  offset : (opening.next.after (length + 1)).scanner.cursor.offset =
    opening.scanner.cursor.offset + covered.byteSize
  last : covered.getLast? = some '>'

namespace Lifetime

variable {length : Nat} {opening : Reading}

theorem lt_count (h : Lifetime text id length opening) (n : Nat) :
    id < (opening.next.after n).builder.doc.count := by
  have opened := (Builder.opens_apply h.steady.linked h.opens).1
  refine Nat.lt_of_lt_of_le ?_ (h.steady.next.aimed.keeps_after n).count_le
  rw [Reading.next, opened, h.count_eq]
  exact Nat.lt_succ_self id

theorem pos (h : Lifetime text id length opening) : 1 ≤ id := by
  rw [← h.count_eq]
  exact h.steady.linked.doc.root_lt

/-- The element starts with its start tag. -/
theorem start_eq (h : Lifetime text id length opening) (n : Nat) :
    ((opening.next.after n).builder.doc.node id).start = opening.scanner.cursor.offset := by
  obtain ⟨-, -, node⟩ := Builder.opens_apply h.steady.linked h.opens
  rw [(h.steady.next.aimed.keeps_after n).start_eq id (h.lt_count 0), Reading.next]
  rw [h.count_eq] at node
  rw [node, Scanner.next_start]

/-- In front of the token that closes it, the element is open. -/
theorem mem_path (h : Lifetime text id length opening) (le : n ≤ length) :
    id ∈ (opening.next.after n).builder.doc.path (opening.next.after n).builder.current := by
  have keeps := (h.steady.next.after n).aimed.keeps_after (length - n)
  rw [← after_add, Nat.add_sub_cancel' le] at keeps
  refine keeps.mem_path id (h.lt_count n) ?_
  rw [h.current_eq]
  exact Document.Linked.mem_path_self

/-- The last token closes the current node. -/
private theorem closesTag (h : Lifetime text id length opening) :
    Builder.ClosesTag (opening.next.after length).scanner.next.1.stop
      (opening.next.after length).builder (opening.next.after (length + 1)).builder := by
  rw [after_succ]
  exact Builder.closesTag_apply (h.steady.next.after length).linked h.closes

private theorem current_ne_root (h : Lifetime text id length opening) :
    (opening.next.after length).builder.current ≠ Document.root := by
  have pos := h.pos
  rw [h.current_eq, Document.root]
  omega

/-- Up to the token that closes the element there is text ahead. -/
theorem ahead (h : Lifetime text id length opening) (le : n ≤ length) :
    (opening.next.after n).scanner.cursor.rest ≠ [] := by
  obtain ⟨passed, rest, -⟩ := exists_read (opening.next.after n) (length - n)
  rw [← after_add, Nat.add_sub_cancel' le] at rest
  rw [rest]
  refine List.append_ne_nil_of_right_ne_nil _ fun atEnd ↦ ?_
  have closes := h.closes
  rw [Scanner.next_of_rest_nil atEnd] at closes
  cases closes

/-- Behind the token that closes the element, only nodes before it are open. -/
theorem lt_of_mem_path (h : Lifetime text id length opening) {other : Nat}
    (mem : other ∈ (opening.next.after (length + 1)).builder.doc.path
      (opening.next.after (length + 1)).builder.current) : other < id := by
  have linked := (h.steady.next.after length).linked
  have sorted := linked.doc.pairwise_path linked.current_lt
  rw [h.closesTag.path_eq h.current_ne_root, h.current_eq] at sorted
  exact (List.pairwise_cons.1 sorted).1 other mem

/-- The element ends behind the token that closes it. -/
theorem stop_eq (h : Lifetime text id length opening) :
    ((opening.next.after (length + 1)).builder.doc.node id).stop =
      (opening.next.after (length + 1)).scanner.cursor.offset := by
  have stop := h.closesTag.stop_eq h.current_ne_root
  rw [h.current_eq] at stop
  rw [stop, Scanner.next_stop, after_succ]
  rfl

/-- The text of the element is what was read in its stretch. -/
theorem exists_covers (h : Lifetime text id length opening) :
    ∃ covered, Covers opening length covered := by
  obtain ⟨covered, rest, offset⟩ := exists_read opening (length + 1)
  rw [Reading.after] at rest offset
  have closes := h.closes
  obtain ⟨config, next, token, -, emits, eq⟩ :=
    exists_emits (fun _ _ steady rescans ↦ Steady.rescans steady rescans)
      (h.steady.next.after length) (h.ahead (Nat.le_refl length))
  have closed : (opening.next.after (length + 1)).scanner =
      ⟨next, (opening.next.after length).scanner.cursor.advance token.text⟩ := by
    rw [after_succ]
    exact congrArg Prod.snd eq
  rw [eq] at closes
  refine ⟨covered ++ token.text, ?_, ?_, ?_⟩
  · rw [closed, rest, List.append_assoc, Cursor.rest_advance emits.starts]
  · simp only [closed, Cursor.advance, offset, Text.byteSize_append]
    omega
  · rw [List.getLast?_append_of_ne_nil _ emits.nonempty]
    exact emits.transition.getLast?_of_closes closes

end Lifetime

/-- A document that goes on behind a stretch of its reading has all nodes that were added in it. -/
structure GoesOn (text : Text) (id length : Nat) (opening : Reading) (doc : Document) : Prop where
  text_eq : doc.text = text
  count_le : (opening.next.after (length + 1)).builder.doc.count ≤ doc.count
  node_eq : ∀ other, id ≤ other → other < (opening.next.after (length + 1)).builder.doc.count →
    doc.node other = (opening.next.after (length + 1)).builder.doc.node other

/-- Behind the element, no token and not the end of the text changes what is in it. -/
private theorem Lifetime.goesOn {length : Nat} {opening : Reading}
    (h : Lifetime text id length opening) (more : Nat) :
    GoesOn text id length opening
      ((opening.next.after (length + 1)).after more).builder.finish := by
  have closed := h.steady.next.after (length + 1)
  have finished := Builder.retouched_finish ((opening.next.after (length + 1)).after more).builder
  have keeps := closed.aimed.keeps_after more
  constructor
  · rw [finished.text_eq]
    exact (closed.after more).nested.spans.text_eq
  · rw [finished.count_eq]
    exact keeps.count_le
  · intro other le inside
    have notOpen : other ∉ (opening.next.after (length + 1)).builder.doc.path
        (opening.next.after (length + 1)).builder.current :=
      fun mem ↦ absurd (h.lt_of_mem_path mem) (Nat.not_lt_of_le le)
    rw [Builder.node_finish (closed.after more).linked
      fun mem ↦ notOpen (keeps.mem_path other inside mem)]
    exact keeps.node_eq other inside notOpen

/-- An element with a start tag and an end has a stretch of the reading of its own, and with all
that was opened in it, it is in the document as it was behind that stretch. -/
theorem exists_lifetime (lt : id < (Document.parse text uri .xml).count)
    (marks : ((Document.parse text uri .xml).node id).kind.marks = (true, true)) :
    ∃ length opening, Lifetime text id length opening ∧
      GoesOn text id length opening (Document.parse text uri .xml) := by
  obtain ⟨total, atEnd⟩ := (start text uri .xml).exists_atEnd
  have parsed := parse_eq_finish atEnd
  rw [parsed, (Builder.retouched_finish _).count_eq] at lt
  rw [parsed, (Builder.kind_finish _ id).1] at marks
  obtain ⟨before, less, opens, count⟩ := exists_opening text uri lt (congrArg Prod.fst marks)
  have steady := (start_steady text uri).after before
  obtain ⟨rest, rfl⟩ := Nat.exists_eq_add_of_lt less
  have split : (start text uri .xml).after (before + rest + 1) =
      ((start text uri .xml).after before).next.after rest := by
    rw [Nat.add_assoc, Nat.add_comm rest 1, after_add, Reading.after_add]
    rfl
  rw [split] at parsed lt marks
  generalize (start text uri .xml).after before = opening at *
  obtain ⟨opened, fresh⟩ := steady.fresh_of_opens opens
  rw [count] at opened fresh
  obtain ⟨length, short, closes, current⟩ :=
    exists_closing steady.next opened fresh (congrArg Prod.snd marks)
  have lifetime : Lifetime text id length opening := ⟨steady, opens, count, closes, current⟩
  obtain ⟨more, rfl⟩ := Nat.exists_eq_add_of_lt short
  rw [show length + more + 1 = length + 1 + more by omega, after_add] at parsed
  rw [parsed]
  exact ⟨length, opening, lifetime, lifetime.goesOn more⟩

end Reading

end TolerantXml
