import TolerantXml.Proofs.Reading.Openings
import TolerantXml.Proofs.Tree.Kinds

/-!
# Nodes that are left alone

A token changes the current node and nodes around it, and no others: a node that was left stays as
it is, and is not open again (`Builder.keeps_apply`). An element comes to its end by the token that
closes a tag, while it is the current node (`Builder.closesTag_apply`), and no other token changes
which tags of an element were seen (`Builder.spares_apply`).
-/

namespace TolerantXml

/-- Whether the start tag of an element was seen, and whether its end was: `/>`, or the end of its
end tag. -/
def NodeKind.marks : NodeKind → Bool × Bool
  | .element e => (e.startTagOpen.isSome, e.selfClosed || e.endTagClose.isSome)
  | _ => (false, false)

/-- A tag that closes an element ends with a closing bracket. -/
theorem Scanner.Config.Emits.getLast?_of_closes {config next : Scanner.Config} {kind : TokenKind}
    {taken : Text} (emits : config.Emits kind taken next) (closes : kind.Closes) :
    taken.getLast? = some '>' := by
  cases closes with
  | emptyTag =>
    cases emits with
    | emptyTagClose => rfl
    | doctypePart _ fills | elementPart _ fills | attlistPart _ fills | entityPart _ fills =>
      cases fills
  | endTag =>
    cases emits with
    | endTagClose => rfl
    | doctypePart _ fills | elementPart _ fills | attlistPart _ fills | entityPart _ fills =>
      cases fills

namespace NodeKind

theorem marks_modifyInstruction (change : Instruction → Instruction) (kind : NodeKind) :
    (kind.modifyInstruction change).marks = kind.marks := by
  cases kind <;> rfl

theorem marks_modifyDoctype (change : Doctype → Doctype) (kind : NodeKind) :
    (kind.modifyDoctype change).marks = kind.marks := by
  cases kind <;> rfl

theorem marks_modifyAttributes (change : List Attribute → List Attribute) (kind : NodeKind) :
    (kind.modifyAttributes change).marks = kind.marks := by
  cases kind <;> rfl

/-- A parameter is no tag. -/
theorem marks_takeParameter (token : Token) (kind : NodeKind) :
    (kind.takeParameter token).marks = kind.marks := by
  cases kind with
  | doctype d =>
    rw [takeParameter]
    split
    · rfl
    · rfl
  | _ => rfl

end NodeKind

namespace Builder

variable {b b' b'' c : Builder} {id place : Nat} {token : Token}
  {kind : TokenKind} {change : NodeKind → NodeKind} {isAdded : NodeKind} {node : Node}

/-- What happened from one builder to another: nodes that were left stay as they are, and no old
node is open that was not. No node moves its start. -/
structure Keeps (b b' : Builder) : Prop where
  count_le : b.doc.count ≤ b'.doc.count
  start_eq : ∀ id < b.doc.count, (b'.doc.node id).start = (b.doc.node id).start
  node_eq : ∀ id < b.doc.count, id ∉ b.doc.path b.current → b'.doc.node id = b.doc.node id
  mem_path : ∀ id < b.doc.count, id ∈ b'.doc.path b'.current → id ∈ b.doc.path b.current

theorem Keeps.refl (b : Builder) : Keeps b b where
  count_le := Nat.le_refl _
  start_eq _ _ := rfl
  node_eq _ _ _ := rfl
  mem_path _ _ mem := mem

theorem Keeps.trans (first : Keeps b b') (second : Keeps b' b'') : Keeps b b'' where
  count_le := Nat.le_trans first.count_le second.count_le
  start_eq id lt :=
    (second.start_eq id (Nat.lt_of_lt_of_le lt first.count_le)).trans (first.start_eq id lt)
  node_eq id lt notOpen := by
    have lt' := Nat.lt_of_lt_of_le lt first.count_le
    rw [second.node_eq id lt' fun mem ↦ notOpen (first.mem_path id lt mem)]
    exact first.node_eq id lt notOpen
  mem_path id lt mem :=
    first.mem_path id lt (second.mem_path id (Nat.lt_of_lt_of_le lt first.count_le) mem)

/-- A child is added to the current node, and becomes the current one or not. -/
theorem keeps_addChild (linked : b.Linked) (doc : b'.doc = b.doc.addChild b.current node)
    (path : ∀ id < b.doc.count, id ∈ b'.doc.path b'.current → id ∈ b.doc.path b.current) :
    Keeps b b' where
  count_le := by
    rw [doc, Document.count_addChild]
    exact Nat.le_succ _
  start_eq id lt := by
    rw [doc, Document.start_addChild linked.current_lt, if_neg (Nat.ne_of_lt lt)]
  node_eq id lt notOpen := by
    rw [doc, Document.node_addChild node linked.current_lt, if_neg (Nat.ne_of_lt lt), if_neg]
    rintro rfl
    exact notOpen Document.Linked.mem_path_self
  mem_path := path

theorem keeps_openNode (linked : b.Linked) (node : Node) : Keeps b (b.openNode node) := by
  refine keeps_addChild linked rfl fun id lt mem ↦ ?_
  rw [path_openNode linked] at mem
  exact (List.mem_cons.1 mem).resolve_left (Nat.ne_of_lt lt)

theorem keeps_modifyKind (linked : b.Linked) (retouched : b.Retouched (b.modifyKind change)) :
    Keeps b (b.modifyKind change) where
  count_le := Nat.le_of_eq retouched.doc.count_eq.symm
  start_eq id _ := retouched.doc.start_eq id
  node_eq id _ notOpen := by
    rw [modifyKind, Document.node_modify _ linked.current_lt, if_neg]
    rintro rfl
    exact notOpen Document.Linked.mem_path_self
  mem_path _ _ := retouched.returned.mem_path linked

private theorem Grows.keeps (grows : Grows kind c b') (linked : c.Linked) : Keeps c b' := by
  cases grows with
  | nothing doc current =>
    exact ⟨Nat.le_of_eq (doc ▸ rfl), fun _ _ ↦ doc ▸ rfl, fun _ _ _ ↦ doc ▸ rfl,
      fun _ _ mem ↦ by rwa [doc, current] at mem⟩
  | text node _ _ _ doc current =>
    refine keeps_addChild linked doc fun id _ mem ↦ ?_
    rwa [doc, current, Document.path_addChild_of_lt linked.current_lt linked.current_lt] at mem
  | child node _ _ _ doc current =>
    refine keeps_addChild linked doc fun id lt mem ↦ ?_
    rw [doc, current, Document.path_addChild_count linked.current_lt] at mem
    exact (List.mem_cons.1 mem).resolve_left (Nat.ne_of_lt lt)

/-- Up to the last stage only open nodes change, if what is written into is open or not there. -/
private theorem Stages.keeps {moved written grown : Builder}
    (stages : Stages kind place change isAdded b moved written grown b')
    (frame : ∀ kind, (change kind).frame = kind.frame) (linked : b.Linked)
    (isPlace : place ∈ b.doc.path b.current ∨ b.doc.count ≤ place) : Keeps b grown where
  count_le := Nat.le_of_eq (stages.returned frame linked).doc.count_eq.symm
  start_eq id _ := (stages.returned frame linked).doc.start_eq id
  node_eq id lt notOpen := by
    have moves := stages.moves.returned linked
    have writes := stages.writes frame
    have notWritten : id ≠ place := by
      rintro rfl
      exact isPlace.elim notOpen (Nat.not_le_of_lt lt)
    have notLeft : id ∉ written.doc.path written.current := by
      rw [writes.doc.path_eq, writes.current_eq]
      exact fun mem ↦ notOpen (moves.mem_path linked mem)
    rw [stages.leaves.node_eq (stages.written_linked frame linked) notLeft,
      stages.node_written (moves.doc.count_eq ▸ lt), if_neg notWritten,
      stages.moves.node_eq linked notOpen]
  mem_path _ _ := (stages.returned frame linked).mem_path linked

/-- A token writes into an open node, or would write into one that is not there before it. -/
private theorem subject_cases (linked : b.Linked)
    (value : token.kind = .attributeValue → ∃ index, b.pending = some (b.current, index)) :
    b.subject token ∈ b.doc.path b.current ∨ b.doc.count ≤ b.subject token := by
  have current : (b.apply token).current ∈ b.doc.path b.current ∨
      b.doc.count ≤ (b.apply token).current := by
    obtain ⟨moved, written, grown, stages⟩ := hasStages_apply linked token
    have returned := stages.returned (frame_rewrite b token) linked
    cases stages.grows with
    | nothing _ current | text _ _ _ _ _ current => exact .inl (current ▸ returned.current_mem)
    | child _ _ _ _ _ current =>
      exact .inr (Nat.le_of_eq (current ▸ returned.doc.count_eq.symm))
  unfold subject
  split
  · exact current
  · exact current
  · next isValue =>
    obtain ⟨index, pending⟩ := value isValue
    rw [pending]
    exact .inl Document.Linked.mem_path_self
  · exact .inl Document.Linked.mem_path_self

/-- Any token leaves the nodes alone that are not open. -/
theorem keeps_apply (linked : b.Linked)
    (value : token.kind = .attributeValue → ∃ index, b.pending = some (b.current, index)) :
    Keeps b (b.apply token) := by
  obtain ⟨moved, written, grown, stages⟩ := hasStages_apply linked token
  exact (stages.keeps (frame_rewrite b token) linked (subject_cases linked value)).trans
    (stages.grows.keeps (stages.grown_linked (frame_rewrite b token) linked))

/-! ### Tokens that close no tag -/

/-- What happened while no tag was closed: the tags of old nodes are as they were; new nodes have no
end yet, and a start tag only if one was opened. -/
structure Spares (opens : Prop) (b b' : Builder) : Prop extends Keeps b b' where
  marks_eq : ∀ id < b.doc.count, (b'.doc.node id).kind.marks = (b.doc.node id).kind.marks
  unended : ∀ id, b.doc.count ≤ id → id < b'.doc.count → (b'.doc.node id).kind.marks.2 = false
  unopened : ∀ id, b.doc.count ≤ id → id < b'.doc.count →
    (b'.doc.node id).kind.marks.1 = true → opens

namespace Spares

theorem refl (b : Builder) : Spares opens b b where
  toKeeps := .refl b
  marks_eq _ _ := rfl
  unended _ le lt := absurd lt (Nat.not_lt_of_le le)
  unopened _ le lt := absurd lt (Nat.not_lt_of_le le)

theorem trans (first : Spares opens b b') (second : Spares opens b' b'') :
    Spares opens b b'' where
  toKeeps := first.toKeeps.trans second.toKeeps
  marks_eq id lt :=
    (second.marks_eq id (Nat.lt_of_lt_of_le lt first.count_le)).trans (first.marks_eq id lt)
  unended id le lt := by
    rcases Nat.lt_or_ge id b'.doc.count with old | new
    · rw [second.marks_eq id old]
      exact first.unended id le old
    · exact second.unended id new lt
  unopened id le lt isOpened := by
    rcases Nat.lt_or_ge id b'.doc.count with old | new
    · rw [second.marks_eq id old] at isOpened
      exact first.unopened id le old isOpened
    · exact second.unopened id new lt isOpened

theorem mono (h : Spares opens b b') (le : opens → opens') : Spares opens' b b' :=
  { h with unopened := fun id le' lt isOpened ↦ le (h.unopened id le' lt isOpened) }

end Spares

/-- What is written leaves the tags as they were seen, except where one is closed. -/
private theorem marks_rewrite_eq (notClose : ¬ token.kind.Closes) (kind : NodeKind) :
    (b.rewrite token kind).marks = kind.marks := by
  unfold rewrite
  cases isKind : token.kind with
  | emptyTagClose => exact absurd (isKind ▸ .emptyTag) notClose
  | endTagClose => exact absurd (isKind ▸ .endTag) notClose
  | startTag | endTag => cases kind <;> rfl
  | startTagClose => cases kind <;> rfl
  | attributeName | attributeValue => exact NodeKind.marks_modifyAttributes _ kind
  | comment | cdata => cases kind <;> rfl
  | prologTarget | instructionTarget | instructionData =>
    exact NodeKind.marks_modifyInstruction _ kind
  | doctypeName | doctypePublic | doctypeSystem | doctypePublicId | doctypeSystemId | subsetOpen
  | subsetClose => exact NodeKind.marks_modifyDoctype _ kind
  | elementDeclName | elementDeclCategory | elementDeclContent | attlistElement | attlistName
  | attlistType | attlistDefault | entityPercent | entityName | entityValue | entityPublic
  | entitySystem | entityPublicId | entitySystemId | unrecognized =>
    exact NodeKind.marks_takeParameter token kind
  | _ => rfl

/-- What is added has no end yet, and a start only where a start tag is opened. -/
theorem marks_added (b : Builder) (token : Token) :
    (b.added token).marks = (decide (token.kind = .startTagOpen), false) := by
  unfold added
  cases token.kind <;> rfl

/-- A token that closes no tag leaves the nodes alone that are not open, and all tags as they were
seen. -/
theorem spares_apply (linked : b.Linked)
    (value : token.kind = .attributeValue → ∃ index, b.pending = some (b.current, index))
    (notClose : ¬ token.kind.Closes) :
    Spares (token.kind = .startTagOpen) b (b.apply token) where
  toKeeps := keeps_apply linked value
  marks_eq id lt := by
    rw [(records_apply linked token).old id lt]
    split
    · exact marks_rewrite_eq notClose _
    · rfl
  unended id ge lt := by rw [(records_apply linked token).new id ge lt, marks_added]
  unopened id ge lt isOpened := by
    rw [(records_apply linked token).new id ge lt, marks_added] at isOpened
    exact of_decide_eq_true isOpened

/-! ### The end of the text -/

theorem node_finish (linked : b.Linked) (notOpen : id ∉ b.doc.path b.current) :
    b.finish.node id = b.doc.node id := by
  rw [finish_eq, node_endAll b (fun _ ↦ linked.lt_of_mem_path), if_neg fun h ↦ notOpen h.1]

/-! ### Tokens that close tags -/

/-- What happened to a builder whose current node is closed by the end of a tag. -/
structure ClosesTag (stop : Nat) (b b' : Builder) : Prop where
  returned : b.Returned b'
  node_eq : ∀ id ≠ b.current, b'.doc.node id = b.doc.node id
  opened_eq : ∀ id < b.doc.count,
    (b'.doc.node id).kind.marks.1 = (b.doc.node id).kind.marks.1
  path_eq : b.current ≠ Document.root →
    b.doc.path b.current = b.current :: b'.doc.path b'.current
  stop_eq : b.current ≠ Document.root → (b'.doc.node b.current).stop = stop

/-- What was around the node that was closed stays open. -/
theorem ClosesTag.keeps {stop : Nat} (closes : ClosesTag stop b b') (linked : b.Linked) :
    Keeps b b' where
  count_le := Nat.le_of_eq closes.returned.doc.count_eq.symm
  start_eq id _ := closes.returned.doc.start_eq id
  node_eq id _ notOpen := by
    apply closes.node_eq
    rintro rfl
    exact notOpen Document.Linked.mem_path_self
  mem_path _ _ := closes.returned.mem_path linked

theorem node_close (linked : b.Linked) (stop : Nat) {other : Nat} (isOther : other ≠ b.current) :
    (b.close stop).doc.node other = b.doc.node other := by
  unfold close
  split
  · rfl
  · exact (Document.node_modify _ linked.current_lt other).trans (if_neg isOther)

theorem doc_closeTag (b : Builder) (stop : Nat) : (b.closeTag stop).doc = (b.close stop).doc := by
  rw [closeTag]
  split
  · rfl
  · rfl

/-- The end of a tag marks the current node and closes it. -/
theorem exists_markAndClose (b : Builder) (closes : token.kind.Closes) :
    ∃ change : Element → Element, (∀ e, (change e).startTagOpen = e.startTagOpen) ∧
      b.apply token = (b.modifyKind (.modifyElement change)).closeTag token.stop := by
  cases kind : token.kind with
  | emptyTagClose =>
    refine ⟨fun e ↦ { e with selfClosed := true }, fun _ ↦ rfl, ?_⟩
    simp only [apply, kind]
    rfl
  | endTagClose =>
    refine ⟨fun e ↦ { e with endTagClose := some token.start }, fun _ ↦ rfl, ?_⟩
    simp only [apply, kind]
    rfl
  | _ =>
    rw [kind] at closes
    cases closes

theorem closesTag_apply (linked : b.Linked) (closes : token.kind.Closes) :
    ClosesTag token.stop b (b.apply token) := by
  obtain ⟨change, opened, eq⟩ := exists_markAndClose b closes
  have marked := retouched_modifyKind (NodeKind.frame_modifyElement change) b
  have markedLinked := marked.linked linked
  have shifts : Shifts token.kind b.current (b.modifyKind (.modifyElement change))
      ((b.modifyKind (.modifyElement change)).closeTag token.stop) :=
    shifts_closeTag closes token.stop
  have node (id : Nat) : (b.modifyKind (.modifyElement change)).doc.node id =
      if id = b.current then (b.doc.node b.current).modifyKind (.modifyElement change)
      else b.doc.node id :=
    Document.node_modify _ linked.current_lt id
  have left (notRoot : b.current ≠ Document.root) :=
    (closeTag_cases markedLinked token.stop).resolve_left fun isRoot ↦ notRoot isRoot.1
  rw [eq]
  constructor
  · exact marked.returned.trans linked (shifts.returned markedLinked)
  · intro id isOther
    rw [doc_closeTag, node_close markedLinked token.stop isOther, node, if_neg isOther]
  · intro id _
    rw [(shifts.endsAs markedLinked id).kind_eq, node]
    split
    · next same =>
      rw [same, Node.modifyKind]
      cases kind : (b.doc.node b.current).kind with
      | element e => simp only [NodeKind.modifyElement, NodeKind.marks, opened]
      | _ => rfl
    · rfl
  · intro notRoot
    have path := (left notRoot).path_eq markedLinked
    rwa [marked.doc.path_eq] at path
  · exact fun notRoot ↦ (left notRoot).stop_eq

end Builder

end TolerantXml
