import Mathlib.Logic.Relation
import TolerantXml.Proofs.Tree.Moves

/-!
# Shifts of a builder

What a builder does with a token, besides writing into a node and adding one, is one of four things
(`Builder.Shift`): it moves to an open node, it moves the end of one, it closes the current node and
returns to its parent, or it marks the element that an end tag matches as closed. All four leave
what nodes stand for, how they are linked, and every node that is not open, however many of them
come one after another (`Builder.Shifts`).
-/

namespace TolerantXml

/-- The tokens at the end of a tag that closes an element. -/
inductive TokenKind.Closes : TokenKind → Prop where
  | emptyTag : Closes .emptyTagClose
  | endTag : Closes .endTagClose

/-- What becomes of a node while only its end changes: it gets another one, or is closed. -/
def Node.EndsAs (node node' : Node) : Prop :=
  ∃ closed stop, (node.closed = true → closed = true) ∧
    node' = { node with closed := closed, stop := stop }

namespace Node.EndsAs

variable {node node' node'' : Node}

theorem refl (node : Node) : node.EndsAs node := ⟨node.closed, node.stop, id, rfl⟩

theorem trans (first : node.EndsAs node') (second : node'.EndsAs node'') : node.EndsAs node'' := by
  obtain ⟨closed, stop, mono, rfl⟩ := first
  obtain ⟨closed', stop', mono', rfl⟩ := second
  exact ⟨closed', stop', fun isClosed ↦ mono' (mono isClosed), rfl⟩

theorem kind_eq (ends : node.EndsAs node') : node'.kind = node.kind := by
  obtain ⟨closed, stop, -, rfl⟩ := ends
  rfl

theorem closed_mono (ends : node.EndsAs node') (isClosed : node.closed = true) :
    node'.closed = true := by
  obtain ⟨closed, stop, mono, rfl⟩ := ends
  exact mono isClosed

end Node.EndsAs

namespace Builder

variable {b b' b'' c : Builder} {kind : TokenKind} {matched id stop : Nat}

/-! ### Returns one after another -/

/-- A builder that returned has only nodes open that were. -/
theorem Returned.mem_path (returned : b.Returned b') (linked : b.Linked)
    (mem : id ∈ b'.doc.path b'.current) : id ∈ b.doc.path b.current := by
  rw [returned.doc.path_eq] at mem
  exact (linked.doc.path_suffix linked.current_lt returned.current_mem).subset mem

theorem Returned.trans (linked : b.Linked) (first : b.Returned b')
    (second : b'.Returned b'') : b.Returned b'' where
  doc := first.doc.trans <|
    second.doc.mono fun _ isOpen ↦ ⟨first.mem_path linked isOpen.1, isOpen.2⟩
  current_mem := first.mem_path linked second.current_mem

/-- A node that was left is not open any more. -/
theorem not_mem_path_of_left (linked : b.Linked)
    (path : b.doc.path b.current = b.current :: b'.doc.path b'.current) :
    b.current ∉ b'.doc.path b'.current := by
  have decreasing := linked.doc.pairwise_path linked.current_lt
  rw [path, List.pairwise_cons] at decreasing
  exact fun mem ↦ Nat.lt_irrefl _ (decreasing.1 b.current mem)

/-! ### Shifts -/

/-- What a builder does at once for a token of a kind that may match an element. Only the end of a
tag closes an element, and only the name of an end tag marks one. -/
inductive Shift (kind : TokenKind) (matched : Nat) (b b' : Builder) : Prop where
  | move (doc : b'.doc = b.doc) (isOpen : b'.current ∈ b.doc.path b.current)
  | stop (id stop : Nat) (isOpen : b.IsOpen id)
    (doc : b'.doc = b.doc.modify id fun node ↦ { node with stop := stop })
    (current : b'.current = b.current)
  | close (stop : Nat) (closes : kind.Closes ∨ b.doc.frame b.current ≠ .element)
    (parent : b.currentNode.parent = some b'.current)
    (doc : b'.doc = b.doc.modify b.current fun node ↦ { node with closed := true, stop := stop })
  | mark (stop : Nat) (isName : kind = .endTag) (isMatch : b.current = matched)
    (isElement : b.doc.frame b.current = .element)
    (doc : b'.doc = b.doc.modify b.current fun node ↦ { node with closed := true, stop := stop })
    (current : b'.current = b.current)

/-- What a builder does at once, one after another. -/
def Shifts (kind : TokenKind) (matched : Nat) : Builder → Builder → Prop :=
  Relation.ReflTransGen (Shift kind matched)

namespace Shift

variable (shift : Shift kind matched b b') (linked : b.Linked)
include shift linked

/-- A shift changes the end of an open node, or of none. -/
private theorem doc_cases : b'.doc = b.doc ∨
    ∃ id change, b.IsOpen id ∧ (∀ node : Node, node.EndsAs (change node)) ∧
      b'.doc = b.doc.modify id change := by
  cases shift with
  | move doc => exact .inl doc
  | stop id stop isOpen doc =>
    exact .inr ⟨id, _, isOpen, fun node ↦ ⟨node.closed, stop, fun closed ↦ closed, rfl⟩, doc⟩
  | close stop _ parent doc =>
    have notRoot : b.current ≠ Document.root := by
      intro isRoot
      rw [currentNode, isRoot, linked.doc.root_parent] at parent
      cases parent
    exact .inr ⟨b.current, _, ⟨Document.Linked.mem_path_self, notRoot⟩,
      fun _ ↦ ⟨true, stop, fun _ ↦ rfl, rfl⟩, doc⟩
  | mark stop _ _ isElement doc =>
    have notRoot : b.current ≠ Document.root := by
      apply linked.doc.ne_root_of_frame
      rw [isElement]
      decide
    exact .inr ⟨b.current, _, ⟨Document.Linked.mem_path_self, notRoot⟩,
      fun _ ↦ ⟨true, stop, fun _ ↦ rfl, rfl⟩, doc⟩

private theorem current_mem : b'.current ∈ b.doc.path b.current := by
  cases shift with
  | move _ isOpen => exact isOpen
  | stop _ _ _ _ current | mark _ _ _ _ _ current =>
    exact current ▸ Document.Linked.mem_path_self
  | close _ _ parent =>
    rw [linked.doc.path_cons parent]
    exact List.mem_cons_of_mem _ Document.Linked.mem_path_self

private theorem returned : b.Returned b' := by
  refine ⟨?_, shift.current_mem linked⟩
  rcases shift.doc_cases linked with doc | ⟨id, change, isOpen, ends, doc⟩
  · rw [doc]
    exact .refl b.doc
  · have same (node : Node) : ∃ closed stop,
        change node = { node with closed := closed, stop := stop } := by
      obtain ⟨closed, stop, -, eq⟩ := ends node
      exact ⟨closed, stop, eq⟩
    rw [doc]
    refine Document.retouched_modify _ _ ?_ ?_ ?_ ?_ (.inl isOpen)
    all_goals
      intro node
      obtain ⟨closed, stop, eq⟩ := same node
      rw [eq]

private theorem endsAs (id : Nat) : (b.doc.node id).EndsAs (b'.doc.node id) := by
  rcases shift.doc_cases linked with doc | ⟨place, change, isOpen, ends, doc⟩
  · exact doc ▸ .refl _
  · rw [doc, Document.node_modify change (linked.lt_of_mem_path isOpen.1)]
    split
    · next isPlace => exact isPlace ▸ ends _
    · exact .refl _

private theorem node_eq (notOpen : id ∉ b.doc.path b.current) : b'.doc.node id = b.doc.node id := by
  rcases shift.doc_cases linked with doc | ⟨place, change, isOpen, -, doc⟩
  · rw [doc]
  · rw [doc, Document.node_modify change (linked.lt_of_mem_path isOpen.1), if_neg]
    rintro rfl
    exact notOpen isOpen.1

/-- A shift closes the current node at most: one that is left, which is an element only at the end
of a tag, or the element that an end tag matches. -/
private theorem closed_cases (id : Nat) : (b'.doc.node id).closed = (b.doc.node id).closed ∨
    (kind.Closes ∨ b.doc.frame id ≠ .element) ∧ id ∉ b'.doc.path b'.current ∨
      kind = .endTag ∧ id = matched ∧ b.doc.frame id = .element := by
  have path_eq := (shift.returned linked).doc.path_eq
  cases shift with
  | move doc => exact .inl (by rw [doc])
  | stop place stop isOpen doc =>
    left
    rw [doc, Document.node_modify _ (linked.lt_of_mem_path isOpen.1)]
    split
    · next isPlace => rw [isPlace]
    · rfl
  | close stop closes parent doc =>
    rcases eq_or_ne id b.current with rfl | other
    · refine .inr (.inl ⟨closes, not_mem_path_of_left linked ?_⟩)
      rw [linked.doc.path_cons parent, path_eq]
    · rw [doc, Document.node_modify _ linked.current_lt, if_neg other]
      exact .inl rfl
  | mark stop isName isMatch isElement doc =>
    rcases eq_or_ne id b.current with rfl | other
    · exact .inr (.inr ⟨isName, isMatch, isElement⟩)
    · rw [doc, Document.node_modify _ linked.current_lt, if_neg other]
      exact .inl rfl

end Shift

namespace Shifts

variable (shifts : Shifts kind matched b b') (linked : b.Linked)
include shifts linked

theorem returned : b.Returned b' := by
  induction shifts with
  | refl => exact (Retouched.refl b).returned
  | tail _ shift ih => exact ih.trans linked (shift.returned (ih.linked linked))

theorem endsAs (id : Nat) : (b.doc.node id).EndsAs (b'.doc.node id) := by
  induction shifts with
  | refl => exact .refl _
  | tail before shift ih =>
    exact ih.trans (shift.endsAs ((returned before linked).linked linked) id)

theorem node_eq (notOpen : id ∉ b.doc.path b.current) : b'.doc.node id = b.doc.node id := by
  induction shifts with
  | refl => rfl
  | tail before shift ih =>
    have returned := returned before linked
    rw [shift.node_eq (returned.linked linked) fun mem ↦ notOpen (returned.mem_path linked mem), ih]

/-- Of the nodes that stay open, only the element that an end tag matches is closed. -/
theorem closed_eq (mem : id ∈ b'.doc.path b'.current)
    (unmatched : ¬ (kind = .endTag ∧ id = matched ∧ b.doc.frame id = .element)) :
    (b'.doc.node id).closed = (b.doc.node id).closed := by
  induction shifts with
  | refl => rfl
  | tail before shift ih =>
    have returned := returned before linked
    have linked' := returned.linked linked
    rw [← ih ((shift.returned linked').mem_path linked' mem)]
    rcases shift.closed_cases linked' id with same | ⟨-, notOpen⟩ | isMatched
    · exact same
    · exact absurd mem notOpen
    · rw [returned.doc.frame_eq] at isMatched
      exact absurd isMatched unmatched

/-- An element is closed by the end of a tag or by the name of an end tag only. -/
theorem closed_eq_of_element (isElement : b.doc.frame id = .element) (notEnd : ¬ kind.Closes)
    (notName : kind ≠ .endTag) : (b'.doc.node id).closed = (b.doc.node id).closed := by
  induction shifts with
  | refl => rfl
  | tail before shift ih =>
    have returned := returned before linked
    rw [← returned.doc.frame_eq] at isElement
    rw [← ih]
    rcases shift.closed_cases (returned.linked linked) id with same | ⟨closes, -⟩ | ⟨isName, -⟩
    · exact same
    · exact closes.elim (absurd · notEnd) (absurd isElement ·)
    · exact absurd isName notName

end Shifts

/-! ### What builders do in shifts -/

theorem shifts_setStop (isOpen : id ∈ b.doc.path b.current) (stop : Nat) :
    Shifts kind matched b (b.setStop stop id) := by
  unfold setStop
  split
  · exact .refl
  · next notRoot => exact .single (.stop id stop ⟨isOpen, notRoot⟩ rfl rfl)

theorem shifts_setCurrentStop (b : Builder) (stop : Nat) :
    Shifts kind matched b (b.setCurrentStop stop) :=
  shifts_setStop Document.Linked.mem_path_self stop

theorem shifts_foldl_setStop (stopOf : Builder → Nat → Nat) {ids : List Nat}
    (h : ids ⊆ b.doc.path b.current) :
    Shifts kind matched b (ids.foldl (fun b id ↦ b.setStop (stopOf b id) id) b) := by
  induction ids generalizing b with
  | nil => exact .refl
  | cons id ids ih =>
    have isOpen := h List.mem_cons_self
    have first := retouched_setStop (stopOf b id) isOpen
    refine (shifts_setStop isOpen (stopOf b id)).trans (ih ?_)
    rw [first.doc.path_eq, first.current_eq]
    exact fun other mem ↦ h (List.mem_cons_of_mem _ mem)

/-- A builder may return to one of its open nodes when others have ended. -/
theorem Shifts.moveTo (shifts : Shifts kind matched b c) (stays : b.Retouched c)
    (isOpen : id ∈ b.doc.path b.current) : Shifts kind matched b { c with current := id } := by
  refine shifts.tail (.move rfl ?_)
  rw [stays.doc.path_eq, stays.current_eq]
  exact isOpen

/-- What a builder remembers makes no difference. -/
private theorem Shifts.remember (shifts : Shifts kind matched b c) (doc : b'.doc = c.doc)
    (current : b'.current = c.current) : Shifts kind matched b b' :=
  shifts.tail (.move doc (current ▸ Document.Linked.mem_path_self))

theorem shifts_close (closes : kind.Closes ∨ b.doc.frame b.current ≠ .element) (stop : Nat) :
    Shifts kind matched b (b.close stop) := by
  unfold close
  split
  · exact .refl
  · next parent hasParent => exact .single (.close stop closes hasParent rfl)

theorem shifts_closeTag (closes : kind.Closes) (stop : Nat) :
    Shifts kind matched b (b.closeTag stop) := by
  have closed : Shifts kind matched b (b.close stop) := shifts_close (.inl closes) stop
  rw [closeTag]
  split
  · exact closed
  · exact closed.remember rfl rfl

theorem shifts_closeIf {p : NodeKind → Bool} (others : ∀ e, p (.element e) = false) (stop : Nat) :
    Shifts kind matched b (b.closeIf p stop) := by
  unfold closeIf
  split
  · next holds =>
    refine shifts_close (.inr fun isElement ↦ ?_) stop
    rw [currentNode] at holds
    rw [Document.frame] at isElement
    cases isKind : (b.doc.node b.current).kind with
    | element e =>
      rw [isKind, others] at holds
      cases holds
    | _ =>
      rw [isKind] at isElement
      cases isElement
  · exact .refl

theorem shifts_leaveDeclaration (linked : b.Linked) (offset : Nat) :
    Shifts kind matched b (b.leaveDeclaration offset) := by
  unfold leaveDeclaration
  split
  · next parent hasParent =>
    split
    · refine (shifts_setCurrentStop b _).moveTo (retouched_setCurrentStop b _) ?_
      rw [linked.doc.path_cons hasParent]
      exact List.mem_cons_of_mem _ Document.Linked.mem_path_self
    · exact .refl
  · exact .refl

theorem shifts_returnToDoctype (b : Builder) (offset : Nat) :
    Shifts kind matched b (b.returnToDoctype offset) := by
  by_cases isIn : .doctype ∈ b.spine
  · obtain ⟨inner, outer, split, others⟩ := List.eq_append_cons_of_mem isIn
    obtain ⟨before, doctype, after, path, rfl, isDoctype, rfl⟩ := exists_path_of_spine split
    have inside : before ⊆ b.doc.path b.current := path ▸ List.subset_append_left _ _
    rw [returnToDoctype_eq path isDoctype fun id mem isDoctype ↦
      others (List.mem_map.2 ⟨id, mem, isDoctype⟩)]
    refine (shifts_foldl_setStop _ inside).moveTo (retouched_foldl_setStop _ inside) ?_
    rw [path]
    exact List.mem_append_right _ List.mem_cons_self
  · rw [returnToDoctype_of_not_mem isIn]
    exact .refl

end Builder

end TolerantXml
