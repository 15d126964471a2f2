import TolerantXml.Proofs.Reading.NodeAt

/-!
# The node before an offset

The search for the node before an offset goes down to the last child that starts before the offset.
All nodes that are not below that child end before it starts or behind the offset, besides those
around it, which end where it ends if they have ended (`NothingCloser.child`). So where the search
stops at a node that has ended, no other node ends between it and the offset (`nodeBefore_parse`).
-/

namespace TolerantXml

namespace Document

variable {doc : Document} {id child offset : Nat}

/-- The children of a node up to the first that does not start before an offset. -/
def childrenBefore (doc : Document) (offset id : Nat) : List Nat :=
  (doc.children id).takeWhile fun child ↦ (doc.node child).start < offset

/-- A node that is not below some node ends behind an offset, or before that node starts, or at its
end if that is not behind the offset. -/
def NothingCloser (doc : Document) (offset id : Nat) : Prop :=
  ∀ other < doc.count, other ≠ root → id ∉ doc.path other →
    offset < (doc.node other).stop ∨ (doc.node other).stop ≤ (doc.node id).start ∨
      (doc.node id).stop ≤ offset ∧ (doc.node other).stop = (doc.node id).stop

/-- Whether the search may go on below a node. -/
structure IsOnTheWay (doc : Document) (offset id : Nat) : Prop where
  lt_count : id < doc.count
  start_lt : id ≠ root → (doc.node id).start < offset
  goesOn : id ≠ root → offset < (doc.node id).stop ∨ doc.endsWithLastChild id = true
  nothingCloser : doc.NothingCloser offset id

/-- What is found before an offset: a node that the offset lies in, but behind none of whose
children it starts, or a node that has ended, behind which no other ends. -/
def IsBefore (doc : Document) (offset id : Nat) : Prop :=
  (doc.node id).start < offset ∧
    (offset < (doc.node id).stop ∧
        (∀ child ∈ doc.children id, offset ≤ (doc.node child).start) ∨
      (doc.node id).stop ≤ offset ∧
        ∀ other < doc.count, other ≠ root →
          ¬ ((doc.node id).stop < (doc.node other).stop ∧ (doc.node other).stop ≤ offset))

private theorem endsWithLastChild_eq_true (h : doc.endsWithLastChild id = true) :
    ∃ last, (doc.children id).getLast? = some last ∧
      (doc.node last).stop = (doc.node id).stop := by
  obtain ⟨last, isLast, same⟩ := (Option.any_eq_true _ _).1 h
  exact ⟨last, isLast, beq_iff_eq.1 same⟩

/-- The search may start at the root. -/
private theorem Linked.isOnTheWay_root (linked : doc.Linked) (offset : Nat) :
    doc.IsOnTheWay offset root where
  lt_count := linked.root_lt
  start_lt notRoot := absurd rfl notRoot
  goesOn notRoot := absurd rfl notRoot
  nothingCloser _ lt _ notBelow := absurd (linked.root_mem_path lt) notBelow

namespace WellNested

variable (nested : doc.WellNested) (linked : doc.Linked)
include nested

/-- A node that has ended at an offset behind the start of the text starts before it. -/
private theorem start_lt_of_stop_le (lt : id < doc.count) (notRoot : id ≠ root)
    (ended : (doc.node id).stop ≤ offset) (behind : 0 < offset) :
    (doc.node id).start < offset := by
  rcases nested.start_lt_stop id lt notRoot with less | ⟨-, empty, -⟩
  · exact Nat.lt_of_lt_of_le less ended
  · have ordered := nested.start_le_stop id lt
    have inText := nested.stop_le_length id lt
    rw [length, empty, Text.byteSize_nil] at inText
    omega

include linked

/-! ### The children before an offset -/

/-- The starts of children increase. -/
private theorem pairwise_starts (id : Nat) :
    (doc.children id).Pairwise fun first second ↦
      (doc.node first).start ≤ (doc.node second).start := by
  refine (nested.pairwise_siblings linked id).imp_of_mem fun mem _ le ↦ ?_
  exact Nat.le_trans (nested.start_le_stop _ (linked.lt_of_mem_children mem).2) le

/-- Behind the children before an offset come those that do not start before it. -/
private theorem exists_childrenBefore (offset id : Nat) :
    ∃ later, doc.children id = doc.childrenBefore offset id ++ later ∧
      ∀ child ∈ later, offset ≤ (doc.node child).start := by
  refine ⟨_, (List.takeWhile_append_dropWhile
    (p := fun child ↦ decide ((doc.node child).start < offset))).symm, ?_⟩
  have sorted := (nested.pairwise_starts linked id).sublist
    (List.dropWhile_sublist fun child ↦ decide ((doc.node child).start < offset))
  have stops := List.head?_dropWhile_not
    (fun child ↦ decide ((doc.node child).start < offset)) (doc.children id)
  generalize (doc.children id).dropWhile _ = later at sorted stops
  cases later with
  | nil => exact List.forall_mem_nil _
  | cons first later =>
    have notBefore : offset ≤ (doc.node first).start := by simpa using stops
    refine List.forall_mem_cons.2 ⟨notBefore, fun child mem ↦ ?_⟩
    exact Nat.le_trans notBefore ((List.pairwise_cons.1 sorted).1 child mem)

/-- If no child is before an offset, none starts before it. -/
private theorem le_start_of_childrenBefore (none : (doc.childrenBefore offset id).getLast? = none) :
    ∀ child ∈ doc.children id, offset ≤ (doc.node child).start := by
  obtain ⟨later, split, starts⟩ := nested.exists_childrenBefore linked offset id
  rw [List.getLast?_eq_none_iff.1 none, List.nil_append] at split
  rwa [split]

/-- The last child before an offset starts before it, and every other child ends before that one
starts or starts at the offset or behind it. -/
private theorem of_getLast?_childrenBefore
    (isLast : (doc.childrenBefore offset id).getLast? = some child) :
    child ∈ doc.children id ∧ (doc.node child).start < offset ∧
      ∀ sibling ∈ doc.children id, sibling ≠ child →
        (doc.node sibling).stop ≤ (doc.node child).start ∨
          offset ≤ (doc.node sibling).start := by
  obtain ⟨later, split, starts⟩ := nested.exists_childrenBefore linked offset id
  obtain ⟨earlier, before⟩ := List.getLast?_eq_some_iff.1 isLast
  have mem : child ∈ doc.childrenBefore offset id := List.mem_of_getLast? isLast
  have isBefore := List.mem_takeWhile_imp mem
  rw [before] at split
  have apart := nested.pairwise_siblings linked id
  rw [split] at apart ⊢
  refine ⟨by simp, of_decide_eq_true isBefore, fun sibling isSibling differ ↦ ?_⟩
  rcases List.mem_append.1 isSibling with isEarlier | isLater
  · rcases List.mem_append.1 isEarlier with isEarlier | same
    · have earlierFirst := (List.pairwise_append.1 (List.pairwise_append.1 apart).1).2.2
      exact .inl (earlierFirst sibling isEarlier child List.mem_cons_self)
    · exact absurd (List.mem_singleton.1 same) differ
  · exact .inr (starts sibling isLater)

/-- A node that has ended with its last child has that one before the offset. -/
private theorem stop_eq_of_endsWithLastChild (start_lt : (doc.node id).start < offset)
    (ended : (doc.node id).stop ≤ offset) (endsWith : doc.endsWithLastChild id = true) :
    ∃ last, (doc.childrenBefore offset id).getLast? = some last ∧
      (doc.node last).stop = (doc.node id).stop := by
  obtain ⟨last, isLast, same⟩ := endsWithLastChild_eq_true endsWith
  have mem := List.mem_of_getLast? isLast
  have less := linked.lt_of_mem_children mem
  have notRoot : last ≠ root := Nat.ne_of_gt (Nat.lt_of_le_of_lt (Nat.zero_le id) less.1)
  have lastBefore : (doc.node last).start < offset :=
    nested.start_lt_of_stop_le less.2 notRoot (same ▸ ended)
      (Nat.lt_of_le_of_lt (Nat.zero_le _) start_lt)
  obtain ⟨earlier, split⟩ := List.getLast?_eq_some_iff.1 isLast
  have sorted := nested.pairwise_starts linked id
  have all : doc.childrenBefore offset id = doc.children id := by
    rw [childrenBefore, List.takeWhile_eq_self_iff]
    intro child isChild
    rw [split] at sorted isChild
    rcases List.mem_append.1 isChild with isEarlier | isLast
    · have le := (List.pairwise_append.1 sorted).2.2 child isEarlier last List.mem_cons_self
      exact decide_eq_true (Nat.lt_of_le_of_lt le lastBefore)
    · rw [List.mem_singleton.1 isLast]
      exact decide_eq_true lastBefore
  exact ⟨last, all ▸ isLast, same⟩

/-! ### The search -/

/-- The search goes down to a child that starts before the offset and ends where its parent ends if
that has ended. -/
private theorem nothingCloser_child (h : doc.IsOnTheWay offset id)
    (isLast : (doc.childrenBefore offset id).getLast? = some child) :
    doc.NothingCloser offset child := by
  obtain ⟨isChild, start_lt, siblings⟩ := nested.of_getLast?_childrenBefore linked isLast
  have inside := nested.inside_parent id child isChild
  have behind : 0 < offset := Nat.lt_of_le_of_lt (Nat.zero_le _) start_lt
  -- A parent that has ended ends with this child.
  have sameStop : id ≠ root → (doc.node id).stop ≤ offset →
      (doc.node child).stop = (doc.node id).stop := by
    intro notRoot ended
    have endsWith := (h.goesOn notRoot).resolve_left (Nat.not_lt_of_le ended)
    obtain ⟨last, isLast', same⟩ :=
      nested.stop_eq_of_endsWithLastChild linked (h.start_lt notRoot) ended endsWith
    rw [isLast, Option.some.injEq] at isLast'
    rw [isLast', same]
  intro other lt notRoot notBelow
  by_cases same : other = id
  · subst same
    have := sameStop notRoot
    omega
  by_cases below : id ∈ doc.path other
  · -- The node is below another child.
    obtain ⟨sibling, isSibling, onPath⟩ := linked.exists_child_mem_path lt below (Ne.symm same)
    have differ : sibling ≠ child := fun same ↦ notBelow (same ▸ onPath)
    have inSibling := nested.inside_of_mem_path linked lt onPath
    rcases siblings sibling isSibling differ with ended | later
    · exact .inr (.inl (Nat.le_trans inSibling.2 ended))
    · have := mt (nested.start_lt_of_stop_le lt notRoot · behind)
      omega
  · rcases h.nothingCloser other lt notRoot below with later | earlier | ⟨ended, atEnd⟩
    · exact .inl later
    · exact .inr (.inl (Nat.le_trans earlier inside.1))
    · have isNotRoot : id ≠ root := fun isRoot ↦ below (isRoot ▸ linked.root_mem_path lt)
      have := sameStop isNotRoot ended
      omega

/-- Where the search stops on its way, the offset is in front of all children. -/
private theorem isBefore_of_childless (h : doc.IsOnTheWay offset id) (notRoot : id ≠ root)
    (none : (doc.childrenBefore offset id).getLast? = none) : doc.IsBefore offset id := by
  have start_lt := h.start_lt notRoot
  refine ⟨start_lt, .inl ⟨?_, nested.le_start_of_childrenBefore linked none⟩⟩
  by_contra notInside
  have ended := Nat.le_of_not_lt notInside
  have endsWith := (h.goesOn notRoot).resolve_left notInside
  obtain ⟨last, isLast, -⟩ := nested.stop_eq_of_endsWithLastChild linked start_lt ended endsWith
  cases none.symm.trans isLast

/-- Where the search stops at a node that has ended, no other node ends closer to the offset. -/
private theorem isBefore_of_ended (lt : id < doc.count) (start_lt : (doc.node id).start < offset)
    (ended : (doc.node id).stop ≤ offset) (nothingCloser : doc.NothingCloser offset id) :
    doc.IsBefore offset id := by
  refine ⟨start_lt, .inr ⟨ended, fun other otherLt notRoot closer ↦ ?_⟩⟩
  by_cases below : id ∈ doc.path other
  · have inside := nested.inside_of_mem_path linked otherLt below
    omega
  · have ordered := nested.start_le_stop id lt
    have := nothingCloser other otherLt notRoot below
    omega

/-- The search stays at a node of which no child starts before the offset, and otherwise it finds a
node further down that is before it. -/
private theorem nodeBeforeFrom_cases (h : doc.IsOnTheWay offset id) :
    doc.nodeBeforeFrom id offset = id ∧ (doc.childrenBefore offset id).getLast? = none ∨
      (∃ child ∈ doc.children id, (doc.node child).start < offset) ∧
        id < doc.nodeBeforeFrom id offset ∧ doc.nodeBeforeFrom id offset < doc.count ∧
        doc.IsBefore offset (doc.nodeBeforeFrom id offset) := by
  fun_induction nodeBeforeFrom doc id offset with
  | case1 id none => exact .inl ⟨rfl, none⟩
  | case2 id child isLast stops =>
    obtain ⟨isChild, start_lt, -⟩ := nested.of_getLast?_childrenBefore linked isLast
    have less := linked.lt_of_mem_children isChild
    have ended := of_decide_eq_true (Bool.and_eq_true_iff.1 stops).1
    exact .inr ⟨⟨child, isChild, start_lt⟩, less.1, less.2,
      nested.isBefore_of_ended linked less.2 start_lt ended
        (nested.nothingCloser_child linked h isLast)⟩
  | case3 id child isLast goesOn less ih =>
    obtain ⟨isChild, start_lt, -⟩ := nested.of_getLast?_childrenBefore linked isLast
    have notRoot : child ≠ root := Nat.ne_of_gt (Nat.lt_of_le_of_lt (Nat.zero_le id) less.1)
    have onTheWay : doc.IsOnTheWay offset child := by
      refine ⟨less.2, fun _ ↦ start_lt, fun _ ↦ ?_, nested.nothingCloser_child linked h isLast⟩
      simpa [Nat.not_le, or_iff_not_imp_left] using goesOn
    refine .inr ⟨⟨child, isChild, start_lt⟩, ?_⟩
    rcases ih onTheWay with ⟨stays, none⟩ | ⟨-, down, lt, isBefore⟩
    · rw [stays]
      exact ⟨less.1, less.2, nested.isBefore_of_childless linked onTheWay notRoot none⟩
    · exact ⟨Nat.lt_trans less.1 down, lt, isBefore⟩
  | case4 id child isLast _ noLink =>
    obtain ⟨isChild, -, -⟩ := nested.of_getLast?_childrenBefore linked isLast
    exact absurd (linked.lt_of_mem_children isChild) noLink

end WellNested

end Document

/-- Looking up the node before an offset finds the root only where no child of the root starts
before the offset. Otherwise the node found starts before the offset. If it covers the offset, none
of its children starts before that; if it has ended, no node other than the root ends between it and
the offset. -/
theorem nodeBefore_parse (text uri : Text) (mode : Mode) (offset : Nat) :
    let doc := Document.parse text uri mode
    let found := doc.nodeBefore offset
    found < doc.count ∧
      (found = Document.root ↔
        ∀ child ∈ doc.children Document.root, offset ≤ (doc.node child).start) ∧
      (found ≠ Document.root →
        (doc.node found).start < offset ∧
          (offset < (doc.node found).stop ∧
              (∀ child ∈ doc.children found, offset ≤ (doc.node child).start) ∨
            (doc.node found).stop ≤ offset ∧
              ∀ other < doc.count, other ≠ Document.root →
                ¬ ((doc.node found).stop < (doc.node other).stop ∧
                  (doc.node other).stop ≤ offset))) := by
  intro doc found
  obtain ⟨r, nested, atEnd, eq⟩ := Reading.exists_nested text uri mode
  obtain ⟨-, -, linked, nested⟩ := nested.finish atEnd
  have finish : r.builder.finish = doc := eq.symm
  rw [finish] at linked nested
  have onTheWay := linked.isOnTheWay_root offset
  rcases nested.nodeBeforeFrom_cases linked onTheWay with
    ⟨stays, none⟩ | ⟨⟨child, isChild, start_lt⟩, down, lt, isBefore⟩
  · have isRoot : found = Document.root := stays
    have starts := nested.le_start_of_childrenBefore linked none
    exact ⟨isRoot ▸ linked.root_lt, iff_of_true isRoot starts, fun notRoot ↦ absurd isRoot notRoot⟩
  · have notRoot : found ≠ Document.root := Nat.ne_of_gt down
    refine ⟨lt, iff_of_false notRoot fun starts ↦ ?_, fun _ ↦ isBefore⟩
    exact absurd (starts child isChild) (Nat.not_le_of_lt start_lt)

end TolerantXml
