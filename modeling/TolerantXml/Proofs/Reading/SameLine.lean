import Mathlib.Data.List.Induction
import TolerantXml.Proofs.Reading.Boundaries
import TolerantXml.Proofs.Text.Lines
import TolerantXml.Proofs.Tree.Enclosed
import TolerantXml.Proofs.Tree.EndTag

/-!
# Comments behind the end of a tag

A builder remembers the node that was ended last by `/>` or by the `>` of an end tag
(`Builder.lastClosed_applyAll`). It does not ask what that node is: an element, but also the prolog
or a document type whose end was not seen. Such a node is settled, so a comment that starts later
is on its last line if there is no line break between its end and the comment (`sameLine_parse`).
-/

namespace TolerantXml

/-! ### The nodes that tags end -/

namespace Builder

variable {b : Builder} {token : Token} {tokens : List Token} {id : Nat}

/-- The node that a token ends as the end of a tag. -/
def ending? (b : Builder) (token : Token) : Option Nat :=
  match token.kind with
  | .emptyTagClose | .endTagClose => if b.current = Document.root then none else some b.current
  | _ => none

/-- The nodes that tokens end as the ends of tags, one after the other. -/
def endings (b : Builder) (tokens : List Token) : List Nat := b.collect ending? tokens

private theorem ending?_eq (closes : token.kind.Closes) :
    b.ending? token = if b.current = Document.root then none else some b.current := by
  rw [ending?]
  generalize token.kind = kind at closes ⊢
  cases closes with
  | emptyTag => rfl
  | endTag => rfl

theorem ending?_eq_some_iff :
    b.ending? token = some id ↔ token.kind.Closes ∧ id = b.current ∧ id ≠ Document.root := by
  constructor
  · intro ends
    have closes : token.kind.Closes := by
      rw [ending?] at ends
      split at ends
      · next kind => rw [kind]; exact .emptyTag
      · next kind => rw [kind]; exact .endTag
      · cases ends
    rw [ending?_eq closes] at ends
    split at ends
    · cases ends
    · next notRoot =>
      cases ends
      exact ⟨closes, rfl, notRoot⟩
  · rintro ⟨closes, rfl, notRoot⟩
    rw [ending?_eq closes, if_neg notRoot]

private theorem ending?_eq_none (notEnd : ¬ token.kind.Closes) : b.ending? token = none := by
  rw [Option.eq_none_iff_forall_ne_some]
  exact fun id ends ↦ notEnd (ending?_eq_some_iff.1 ends).1

private theorem lastClosed_closeTag (linked : b.Linked) (stop : Nat) :
    (b.closeTag stop).lastClosed =
      if b.current = Document.root then b.lastClosed else some b.current := by
  rcases closeTag_cases linked stop with ⟨isRoot, eq⟩ | left
  · rw [eq, if_pos isRoot]
  · have less := (linked.doc.parent_lt left.parent_eq).1
    have notRoot : b.current ≠ Document.root := Nat.ne_zero_of_lt less
    have current : (b.closeTag stop).current = (b.close stop).current := by
      rw [closeTag]
      split <;> rfl
    rw [current] at less
    rw [if_neg notRoot, closeTag, if_neg (Nat.ne_of_lt less)]

/-- What a tag closed last is the node that it ended last. -/
theorem lastClosed_apply (linked : b.Linked) (token : Token) :
    (b.apply token).lastClosed = (b.ending? token).or b.lastClosed := by
  have marked (change : Element → Element) : (b.modifyKind (.modifyElement change)).Linked :=
    (retouched_modifyKind (NodeKind.frame_modifyElement change) b).linked linked
  by_cases closes : token.kind.Closes
  · cases kind : token.kind with
    | emptyTagClose =>
      simp only [apply, kind, endEmptyTag, ending?, lastClosed_closeTag (marked _)]
      change (if b.current = Document.root then _ else _) = _
      split <;> rfl
    | endTagClose =>
      simp only [apply, kind, endEndTag, ending?, lastClosed_closeTag (marked _)]
      change (if b.current = Document.root then _ else _) = _
      split <;> rfl
    | _ =>
      rw [kind] at closes
      cases closes
  · have same : (b.apply token).memory.lastClosed = b.memory.lastClosed := by
      have takes := takes_apply_memory b token
      generalize (b.apply token).memory = after at takes ⊢
      generalize b.memory = before at takes ⊢
      cases takes with
      | closing isClosing =>
        rcases isClosing with kind | kind <;> rw [kind] at closes
        · exact absurd .emptyTag closes
        · exact absurd .endTag closes
      | _ => rfl
    rw [ending?_eq_none closes, Option.none_or]
    exact same

theorem lastClosed_applyAll (linked : b.Linked) (tokens : List Token) :
    (b.applyAll tokens).lastClosed = (b.endings tokens).getLast?.or b.lastClosed := by
  induction tokens using List.reverseRecOn with
  | nil => rfl
  | append_singleton tokens token ih =>
    rw [applyAll_concat, lastClosed_apply (linked_applyAll linked tokens), endings, collect_concat,
      ← endings, ih,
      List.getLast?_append, Option.or_assoc]
    cases (b.applyAll tokens).ending? token <;> rfl

/-- What holds of a node that the end of a tag ended: it is settled, `>` stands right before its
end, and if it is an element, it has a mark of that. -/
structure IsEnded (b : Builder) (text : Text) (id : Nat) : Prop where
  lt : id < b.doc.count
  left : id ∉ b.doc.path b.current
  behind : ∃ first last, text = first ++ last ∧ first.byteSize = (b.doc.node id).stop ∧
    first.getLast? = some '>'
  marked : (b.doc.node id).kind.isElement = true → (b.doc.node id).kind.marks.2 = true

private theorem IsEnded.of_keeps (h : b.IsEnded text id) (keeps : Keeps b b') :
    b'.IsEnded text id := by
  have same := keeps.node_eq id h.lt h.left
  constructor
  · exact Nat.lt_of_lt_of_le h.lt keeps.count_le
  · exact fun isOpen ↦ h.left (keeps.mem_path id h.lt isOpen)
  · rw [same]
    exact h.behind
  · rw [same]
    exact h.marked

/-- The end of a tag leaves a mark in an element. -/
theorem marks_rewrite (closes : token.kind.Closes) {kind : NodeKind}
    (isElement : (b.rewrite token kind).isElement = true) :
    (b.rewrite token kind).marks.2 = true := by
  cases isEnd : token.kind with
  | emptyTagClose | endTagClose =>
    simp only [rewrite, isEnd] at isElement ⊢
    cases kind with
    | element e => simp [NodeKind.modifyElement, NodeKind.marks]
    | _ => cases isElement
  | _ =>
    rw [isEnd] at closes
    cases closes

/-- The end of a tag leaves a mark in the current element. -/
theorem marks_apply_of_closes (linked : b.Linked) (closes : token.kind.Closes)
    (isElement : ((b.apply token).doc.node b.current).kind.isElement = true) :
    ((b.apply token).doc.node b.current).kind.marks.2 = true := by
  have kind := (records_apply linked token).old b.current linked.current_lt
  have isSubject : b.subject token = b.current := by
    rw [subject]
    generalize token.kind = tokenKind at closes ⊢
    cases closes with
    | emptyTag => rfl
    | endTag => rfl
  rw [isSubject, if_pos rfl] at kind
  rw [kind] at isElement ⊢
  exact marks_rewrite closes isElement

/-- The node that the end of a tag ends has its end there. -/
theorem isEnded_apply (linked : b.Linked) (isEnding : b.ending? token = some id)
    {first last : Text} (split : text = first ++ last) (size : first.byteSize = token.stop)
    (isEnd : first.getLast? = some '>') :
    (b.apply token).IsEnded text id ∧ ((b.apply token).doc.node id).stop = token.stop := by
  obtain ⟨closes, rfl, notRoot⟩ := ending?_eq_some_iff.1 isEnding
  have ended := closesTag_apply linked closes
  have stop := ended.stop_eq notRoot
  refine ⟨⟨?_, fun isOpen ↦ ?_, ⟨first, last, split, size.trans stop.symm, isEnd⟩, ?_⟩, stop⟩
  · rw [ended.returned.doc.count_eq]
    exact linked.current_lt
  · have pairwise := linked.doc.pairwise_path linked.current_lt
    rw [ended.path_eq notRoot] at pairwise
    exact Nat.lt_irrefl _ ((List.pairwise_cons.1 pairwise).1 _ isOpen)
  · exact marks_apply_of_closes linked closes

end Builder

/-! ### Lines between the end of a node and a comment -/

/-- Whether a node starts on the line on which another one ends, and behind it. -/
def Document.FollowsInLine (doc : Document) (ended id : Nat) : Prop :=
  ∃ gap, doc.text.slice? (doc.node ended).stop (doc.node id).start = some gap ∧ gap.IsUnbroken

/-- Whether a node is an element that the end of a tag ended: `/>`, or the `>` of its end tag. -/
def Document.IsTagEnded (doc : Document) (id : Nat) : Prop := (doc.node id).kind.marks.2 = true

/-- Whether an element is the last one before a node that the end of a tag ended. -/
structure Document.LastTagEnded (doc : Document) (ended id : Nat) : Prop where
  isEnded : doc.IsTagEnded ended
  stop_le : (doc.node ended).stop ≤ (doc.node id).start
  latest : ∀ other, doc.IsTagEnded other → (doc.node other).stop ≤ (doc.node id).start →
    (doc.node other).stop ≤ (doc.node ended).stop

/-- Behind `>` and before `<`, two places stand in one line if there is no line break between. -/
private theorem Text.sameLine_between {text first last before rest : Text}
    (split : text = first ++ last) (isEnd : first.getLast? = some '>')
    (split' : text = before ++ '<' :: rest) (le : first.byteSize ≤ before.byteSize) :
    text.sameLine first.byteSize before.byteSize = true ↔
      ∃ gap, text.slice? first.byteSize before.byteSize = some gap ∧ gap.IsUnbroken := by
  obtain ⟨gap, isGap⟩ := Text.exists_slice? le ⟨first, last, split, rfl⟩ ⟨before, _, split', rfl⟩
  obtain ⟨first', last', eq, size, size'⟩ := Text.slice?_eq_some_iff.1 isGap
  obtain ⟨rfl, -⟩ := Text.append_inj_of_byteSize
    ((List.append_assoc _ _ _).symm.trans (eq.symm.trans split)) size
  rw [← Text.byteSize_append] at size'
  obtain ⟨rfl, rfl⟩ := Text.append_inj_of_byteSize (eq.symm.trans split') size'
  have apart : (first' ++ gap ++ '<' :: rest).sameLine first'.byteSize (first' ++ gap).byteSize =
      true ↔ gap.IsUnbroken := by
    apply Text.sameLine_iff
    · rw [isEnd]
      decide
    · exact fun isFeed ↦ absurd (Option.some.inj isFeed) (by decide)
  rw [isGap, split', apart]
  simp

/-! ### Comments -/

namespace Builder

variable {b : Builder} {token : Token} {id ended : Nat} {data : CharacterData}
  {doc doc' : Document} {tokens before : List Token}

/-- Whatever a token is, a comment keeps its mark. -/
private theorem exists_of_rewrite_comment {kind : NodeKind}
    (isComment : b.rewrite token kind = .comment data) :
    ∃ before, kind = .comment before ∧ before.sameLine = data.sameLine := by
  have frame := congrArg NodeKind.frame isComment
  rw [frame_rewrite] at frame
  cases kind with
  | comment before =>
    rw [rewrite_comment] at isComment
    injection isComment with same
    refine ⟨before, rfl, ?_⟩
    rw [← same]
    split
    · rfl
    · rfl
  | _ => cases frame

private theorem opening_of_added_comment (isComment : b.added token = .comment data) :
    token.kind = .commentOpen ∧
      data.sameLine = (b.leaveDeclaration token.start).followsOnSameLine token.start := by
  unfold added at isComment
  split at isComment
  case h_4 isOpening =>
    injection isComment with same
    exact ⟨isOpening, same ▸ rfl⟩
  all_goals cases isComment

/-- A comment is on the line of the node that a tag closed last, whatever declaration it ends. -/
private theorem followsOnSameLine_leaveDeclaration (linked : b.Linked)
    (left : ended ∉ b.doc.path b.current) (last : b.lastClosed = some ended) (offset : Nat) :
    (b.leaveDeclaration offset).followsOnSameLine offset =
      b.doc.text.sameLine (b.doc.node ended).stop offset := by
  have shifts : Shifts .commentOpen b.current b (b.leaveDeclaration offset) :=
    shifts_leaveDeclaration linked offset
  have same : (b.leaveDeclaration offset).lastClosed = b.lastClosed :=
    congrArg Memory.lastClosed (memory_leaveDeclaration b offset)
  rw [followsOnSameLine_eq, same, last,
    (returned_leaveDeclaration linked offset).doc.text_eq]
  simp only [shifts.node_eq linked left]

/-- A comment starts where it is opened. -/
private theorem start_openComment (linked : b.Linked) (isOpening : token.kind = .commentOpen)
    (new : b.doc.count ≤ id) (lt : id < (b.apply token).doc.count) :
    ((b.apply token).doc.node id).start = token.start := by
  have encloses : token.kind.encloses? = some .comment := by rw [isOpening]; rfl
  have opens := opensNode_apply linked encloses
  have isCurrent : id = (b.apply token).current := by
    have count := opens.count_eq
    rw [opens.current_eq]
    omega
  rw [isCurrent]
  exact opens.start_eq

/-- Whether a comment was opened behind some of the tokens: the nodes that these end are those that
end before it, and the last of them tells whether the comment is on its line. -/
structure PlacesComment (b : Builder) (tokens before : List Token) (doc : Document) (id : Nat)
    (sameLine : Bool) : Prop where
  earlier : ∀ ended ∈ b.endings tokens,
    (doc.node ended).stop ≤ (doc.node id).start ↔ ended ∈ b.endings before
  sameLine_iff : sameLine = true ↔
    ∃ ended, (b.endings before).getLast? = some ended ∧ doc.FollowsInLine ended id

theorem PlacesComment.congr (h : b.PlacesComment tokens before doc id sameLine)
    (inside : b.endings before ⊆ b.endings tokens) (text : doc'.text = doc.text)
    (start : (doc'.node id).start = (doc.node id).start)
    (same : ∀ ended ∈ b.endings tokens, doc'.node ended = doc.node ended) :
    b.PlacesComment tokens before doc' id sameLine where
  earlier ended mem := by
    rw [start, same ended mem]
    exact h.earlier ended mem
  sameLine_iff := by
    rw [h.sameLine_iff]
    apply exists_congr
    intro ended
    apply and_congr_right
    intro isLast
    have mem := inside (List.mem_of_getLast? isLast)
    rw [Document.FollowsInLine, Document.FollowsInLine, text, start, same ended mem]

/-- Where all that tags ended is in order and the last of it is an element, that element tells. -/
private theorem PlacesComment.sameLine_iff_lastTagEnded
    (h : b.PlacesComment tokens before doc id sameLine)
    (inside : b.endings before ⊆ b.endings tokens)
    (ordered : (b.endings before).Pairwise fun first second ↦
      (doc.node first).stop < (doc.node second).stop)
    (marked : ∀ ended, doc.IsTagEnded ended → ended ∈ b.endings tokens)
    (element : ∀ ended, (b.endings before).getLast? = some ended → doc.IsTagEnded ended) :
    sameLine = true ↔ ∃ ended, doc.LastTagEnded ended id ∧ doc.FollowsInLine ended id := by
  have isLast : ∀ ended, (b.endings before).getLast? = some ended →
      doc.LastTagEnded ended id := by
    intro ended last
    refine ⟨element ended last, ?_, fun other isEnded le ↦ ?_⟩
    · have mem := List.mem_of_getLast? last
      exact (h.earlier ended (inside mem)).2 mem
    · have mem := (h.earlier other (marked other isEnded)).1 le
      obtain ⟨first, eq⟩ := List.getLast?_eq_some_iff.1 last
      rw [eq] at mem ordered
      rcases List.mem_append.1 mem with mem | mem
      · exact Nat.le_of_lt
          ((List.pairwise_append.1 ordered).2.2 other mem ended (List.mem_singleton_self ended))
      · rw [List.mem_singleton.1 mem]
  rw [h.sameLine_iff]
  constructor
  · rintro ⟨ended, last, follows⟩
    exact ⟨ended, isLast ended last, follows⟩
  · rintro ⟨ended, last, follows⟩
    have mem := (h.earlier ended (marked ended last.isEnded)).1 last.stop_le
    obtain ⟨final, isFinal⟩ := Option.ne_none_iff_exists'.1
      (mt List.getLast?_eq_none_iff.1 (List.ne_nil_of_mem mem))
    -- Two elements that both ended last ended at one place.
    have final' := isLast final isFinal
    have same : (doc.node final).stop = (doc.node ended).stop :=
      Nat.le_antisymm (last.latest final final'.isEnded final'.stop_le)
        (final'.latest ended last.isEnded last.stop_le)
    refine ⟨final, isFinal, ?_⟩
    rw [Document.FollowsInLine, same]
    exact follows

end Builder

namespace Scanner.Config

variable {config next : Config} {kind : TokenKind} {taken : Text}

private theorem Emits.text_eq_of_commentOpen (emits : config.Emits kind taken next)
    (isOpening : kind = .commentOpen) : taken = Delimiter.commentOpen := by
  cases emits with
  | commentOpen => rfl
  | doctypePart _ fills | elementPart _ fills | attlistPart _ fills | entityPart _ fills =>
    rw [isOpening] at fills
    cases fills
  | _ => cases isOpening

end Scanner.Config

namespace Reading

variable {text uri : Text} {mode : Mode} {passed : List Token} {r : Reading} {token : Token}
  {next : Scanner.Config} {id : Nat}

/-- What holds of the nodes that tags ended, and of comments, behind some tokens of a text. -/
structure Tagged (text uri : Text) (mode : Mode) (passed : List Token) (r : Reading) : Prop where
  nested : r.Nested text mode
  aimed : r.Aimed
  builder_eq : r.builder = (Builder.start text uri mode).applyAll passed
  ended : ∀ id ∈ (Builder.start text uri mode).endings passed, r.builder.IsEnded text id
  ordered : ((Builder.start text uri mode).endings passed).Pairwise fun first second ↦
    (r.builder.doc.node first).stop < (r.builder.doc.node second).stop
  marked : ∀ id < r.builder.doc.count, (r.builder.doc.node id).kind.marks.2 = true →
    id ∈ (Builder.start text uri mode).endings passed
  comments : ∀ id < r.builder.doc.count, ∀ data, (r.builder.doc.node id).kind = .comment data →
    ∃ before opening ahead, passed = before ++ opening :: ahead ∧ opening.kind = .commentOpen ∧
      opening.start = (r.builder.doc.node id).start ∧
      (Builder.start text uri mode).PlacesComment passed before r.builder.doc id data.sameLine

/-- In front of the text there is no comment and no element. -/
private theorem start_tagged (text uri : Text) (mode : Mode) :
    Tagged text uri mode [] (start text uri mode) where
  nested := start_nested text uri mode
  aimed := start_aimed text uri mode
  builder_eq := rfl
  ended := List.forall_mem_nil _
  ordered := .nil
  marked id _ isMarked := by
    rw [start] at isMarked
    rcases Builder.kind_start text uri mode id with isRoot | ⟨-, -, isDoctype⟩
    · rw [isRoot] at isMarked
      cases isMarked
    · rw [isDoctype] at isMarked
      cases isMarked
  comments id _ data isComment := by
    rw [start] at isComment
    rcases Builder.kind_start text uri mode id with isRoot | ⟨-, -, isDoctype⟩
    · rw [isRoot] at isComment
      cases isComment
    · rw [isDoctype] at isComment
      cases isComment

namespace Tagged

private theorem rescans (h : Tagged text uri mode passed r)
    (rescans : r.scanner.config.Rescans next) :
    Tagged text uri mode passed ⟨⟨next, r.scanner.cursor⟩, r.builder⟩ :=
  { h with
    nested := h.nested.rescans rescans
    aimed := h.aimed.rescans rescans }

/-- A comment that is opened now is on the line of the node that was ended last, if there is no
line break between. -/
private theorem followsOnSameLine_iff (h : Tagged text uri mode passed r) {opening : Text}
    (starts : '<' :: opening <+: r.scanner.cursor.rest) :
    (r.builder.leaveDeclaration r.scanner.cursor.offset).followsOnSameLine
        r.scanner.cursor.offset = true ↔
      ∃ ended, ((Builder.start text uri mode).endings passed).getLast? = some ended ∧
        ∃ gap, text.slice? (r.builder.doc.node ended).stop r.scanner.cursor.offset = some gap ∧
          gap.IsUnbroken := by
  have linked := h.aimed.inStep.linked
  have last : r.builder.lastClosed =
      ((Builder.start text uri mode).endings passed).getLast? := by
    rw [h.builder_eq, Builder.lastClosed_applyAll (Builder.start_linked text uri mode)]
    cases mode <;> exact Option.or_none
  cases isLast : ((Builder.start text uri mode).endings passed).getLast? with
  | none =>
    have same : (r.builder.leaveDeclaration r.scanner.cursor.offset).lastClosed = none := by
      rw [← isLast, ← last]
      exact congrArg Builder.Memory.lastClosed (Builder.memory_leaveDeclaration r.builder _)
    rw [Builder.followsOnSameLine_eq, same]
    simp
  | some ended =>
    have isEnded := h.ended ended (List.mem_of_getLast? isLast)
    obtain ⟨first, last', split, size, isEnd⟩ := isEnded.behind
    obtain ⟨rest, ahead⟩ := starts
    have le := (h.nested.spans.ended ended isEnded.lt isEnded.left).2
    have split' : text = r.scanner.cursor.before.reverse ++ '<' :: (opening ++ rest) := by
      rw [← h.nested.standsIn.text_eq, Cursor.text, ← ahead, List.cons_append]
    have offset : r.scanner.cursor.offset = Text.byteSize r.scanner.cursor.before.reverse := by
      rw [Text.byteSize_reverse, h.nested.standsIn.offset_eq]
    rw [Builder.followsOnSameLine_leaveDeclaration linked isEnded.left
      (last.trans isLast), h.nested.spans.text_eq, ← size, offset]
    rw [← size, offset] at le
    simp only [Option.some.injEq, exists_eq_left', ← size]
    exact Text.sameLine_between split isEnd split' le

/-- A node that the token ends has its end behind the `>` of that token. -/
private theorem isEnded_apply (h : Tagged text uri mode passed r) (emits : r.Emits token next)
    (isEnding : r.builder.ending? token = some id) :
    (r.builder.apply token).IsEnded text id ∧
      ((r.builder.apply token).doc.node id).stop = token.stop := by
  have closes := (Builder.ending?_eq_some_iff.1 isEnding).1
  have standsIn := h.nested.standsIn.advance emits.starts
  refine Builder.isEnded_apply h.aimed.inStep.linked isEnding standsIn.text_eq.symm ?_ ?_
  · rw [Text.byteSize_reverse, ← standsIn.offset_eq, emits.stop_eq]
    rfl
  · change (List.reverse (List.reverseAux token.text r.scanner.cursor.before)).getLast? = _
    rw [List.reverseAux_eq, List.reverse_append, List.reverse_reverse, List.getLast?_append,
      emits.transition.getLast?_of_closes closes, Option.some_or]

theorem endings_concat (h : Tagged text uri mode passed r) (token : Token) :
    (Builder.start text uri mode).endings (passed ++ [token]) =
      (Builder.start text uri mode).endings passed ++ (r.builder.ending? token).toList := by
  rw [Builder.endings, Builder.collect_concat, h.builder_eq]
  rfl

/-- A token leaves the nodes as they are that were ended before. -/
private theorem node_apply (h : Tagged text uri mode passed r)
    (emits : r.scanner.config.Emits token.kind token.text next)
    (mem : id ∈ (Builder.start text uri mode).endings passed) :
    (r.builder.apply token).doc.node id = r.builder.doc.node id :=
  (h.aimed.keeps_apply emits).node_eq id (h.ended id mem).lt (h.ended id mem).left

/-- A node has a mark only if it was ended, now or before. -/
private theorem marked_apply (h : Tagged text uri mode passed r)
    (emits : r.scanner.config.Emits token.kind token.text next)
    (isNode : id < (r.builder.apply token).doc.count)
    (isMarked : ((r.builder.apply token).doc.node id).kind.marks.2 = true) :
    id ∈ (Builder.start text uri mode).endings passed ∨ r.builder.ending? token = some id := by
  have linked := h.aimed.inStep.linked
  rcases h.aimed.closes_or_spares_apply emits with ⟨closes, closesTag⟩ | spares
  · rw [closesTag.returned.doc.count_eq] at isNode
    by_cases isCurrent : id = r.builder.current
    · right
      refine Builder.ending?_eq_some_iff.2 ⟨closes, isCurrent, ?_⟩
      rintro rfl
      have isRoot := (linked.apply token).doc.root_frame
      rw [Document.frame] at isRoot
      cases kind : ((r.builder.apply token).doc.node Document.root).kind with
      | document => rw [kind] at isMarked; cases isMarked
      | _ => rw [kind] at isRoot; cases isRoot
    · rw [closesTag.node_eq id isCurrent] at isMarked
      exact .inl (h.marked id isNode isMarked)
  · rcases Nat.lt_or_ge id r.builder.doc.count with old | new
    · rw [spares.marks_eq id old] at isMarked
      exact .inl (h.marked id old isMarked)
    · rw [spares.unended id new isNode] at isMarked
      cases isMarked

/-- A comment that was opened before stays on the line that it was on. -/
private theorem placesComment_old (h : Tagged text uri mode passed r) (emits : r.Emits token next)
    (old : id < r.builder.doc.count) {before : List Token} {sameLine : Bool}
    (inside : before <+: passed)
    (places : (Builder.start text uri mode).PlacesComment passed before r.builder.doc id
      sameLine) :
    (Builder.start text uri mode).PlacesComment (passed ++ [token]) before
      (r.builder.apply token).doc id sameLine := by
  have atStart := (h.aimed.keeps_apply emits.transition).start_eq id old
  have nested := h.nested.emits emits
  have kept := places.congr (Builder.collect_subset _ _ inside)
    (nested.spans.text_eq.trans h.nested.spans.text_eq.symm) atStart
    fun _ mem ↦ h.node_apply emits.transition mem
  refine ⟨fun ended mem ↦ ?_, kept.sameLine_iff⟩
  rw [h.endings_concat, List.mem_append, Option.mem_toList] at mem
  by_cases mem' : ended ∈ (Builder.start text uri mode).endings passed
  · exact kept.earlier ended mem'
  · -- What the token ends does not end before a comment that starts before the token.
    have isBefore := h.nested.spans.start_le old
    have behind := emits.stop_eq
    have size := emits.byteSize_pos
    rw [(h.isEnded_apply emits (mem.resolve_left mem')).2, atStart]
    exact iff_of_false (by omega) fun mem ↦ mem' (Builder.collect_subset _ _ inside mem)

/-- A comment that the token opens is told which node was ended last before. -/
private theorem placesComment_new (h : Tagged text uri mode passed r) (emits : r.Emits token next)
    (isOpening : token.kind = .commentOpen)
    (atStart : ((r.builder.apply token).doc.node id).start = token.start) :
    (Builder.start text uri mode).PlacesComment (passed ++ [token]) passed
      (r.builder.apply token).doc id
      ((r.builder.leaveDeclaration token.start).followsOnSameLine token.start) := by
  have nested := h.nested.emits emits
  have start := emits.start_eq
  obtain ⟨transition, -, starts, -⟩ := emits
  constructor
  · intro ended mem
    have notEnd : ¬ token.kind.Closes := by
      rw [isOpening]
      intro closes
      cases closes
    rw [h.endings_concat, Builder.ending?_eq_none notEnd, Option.toList_none,
      List.append_nil] at mem
    have isEnded := h.ended ended mem
    rw [atStart, h.node_apply transition mem, start]
    exact iff_of_true (h.nested.spans.ended ended isEnded.lt isEnded.left).2 mem
  · rw [transition.text_eq_of_commentOpen isOpening] at starts
    rw [start, h.followsOnSameLine_iff starts]
    apply exists_congr
    intro ended
    apply and_congr_right
    intro isLast
    rw [Document.FollowsInLine, atStart, h.node_apply transition (List.mem_of_getLast? isLast),
      nested.spans.text_eq, start]

private theorem node_finish (h : Tagged text uri mode passed r)
    (mem : id ∈ (Builder.start text uri mode).endings passed) :
    r.builder.finish.node id = r.builder.doc.node id :=
  Builder.node_finish h.aimed.inStep.linked (h.ended id mem).left

private theorem emits (h : Tagged text uri mode passed r) (emits : r.Emits token next) :
    Tagged text uri mode (passed ++ [token])
      ⟨⟨next, r.scanner.cursor.advance token.text⟩, r.builder.apply token⟩ := by
  have linked := h.aimed.inStep.linked
  have keeps := h.aimed.keeps_apply emits.transition
  have records := Builder.records_apply linked token
  constructor
  case nested => exact h.nested.emits emits
  case aimed => exact h.aimed.emits emits
  case builder_eq => rw [Builder.applyAll_concat, ← h.builder_eq]
  case ended =>
    intro id mem
    rw [h.endings_concat, List.mem_append, Option.mem_toList] at mem
    rcases mem with old | isEnding
    · exact (h.ended id old).of_keeps keeps
    · exact (h.isEnded_apply emits isEnding).1
  case ordered =>
    rw [h.endings_concat, List.pairwise_append]
    refine ⟨h.ordered.imp_of_mem fun first second less ↦ ?_, ?_, fun old mem new isEnding ↦ ?_⟩
    · rwa [h.node_apply emits.transition first, h.node_apply emits.transition second]
    · cases r.builder.ending? token <;> simp
    · rw [Option.mem_toList] at isEnding
      have le := (h.nested.spans.ended old (h.ended old mem).lt (h.ended old mem).left).2
      have size := emits.byteSize_pos
      rw [(h.isEnded_apply emits isEnding).2, h.node_apply emits.transition mem, emits.stop_eq]
      omega
  case marked =>
    intro id isNode isMarked
    rw [h.endings_concat, List.mem_append, Option.mem_toList]
    exact h.marked_apply emits.transition isNode isMarked
  case comments =>
    intro id isNode data isComment
    rcases Nat.lt_or_ge id r.builder.doc.count with old | new
    · have earlier : ∃ data', (r.builder.doc.node id).kind = .comment data' ∧
          data'.sameLine = data.sameLine := by
        rw [records.old id old] at isComment
        split at isComment
        · exact Builder.exists_of_rewrite_comment isComment
        · exact ⟨data, isComment, rfl⟩
      obtain ⟨data', wasComment, same⟩ := earlier
      obtain ⟨before, opening, ahead, split, isOpening, atStart, places⟩ :=
        h.comments id old data' wasComment
      refine ⟨before, opening, ahead ++ [token], ?_, isOpening, ?_, ?_⟩
      · rw [split, List.append_assoc, List.cons_append]
      · rw [atStart, keeps.start_eq id old]
      · rw [← same]
        exact h.placesComment_old emits old ⟨_, split.symm⟩ places
    · rw [records.new id new isNode] at isComment
      obtain ⟨isOpening, same⟩ := Builder.opening_of_added_comment isComment
      have atStart := Builder.start_openComment linked isOpening new isNode
      refine ⟨passed, token, [], rfl, isOpening, atStart.symm, ?_⟩
      rw [same]
      exact h.placesComment_new emits isOpening atStart

/-- In the finished document, comments are on the lines that they were on. -/
private theorem finish (h : Tagged text uri mode passed r) {data : CharacterData}
    (isComment : (r.builder.finish.node id).kind = .comment data) :
    ∃ before opening ahead, passed = before ++ opening :: ahead ∧ opening.kind = .commentOpen ∧
      opening.start = (r.builder.finish.node id).start ∧
      (Builder.start text uri mode).PlacesComment passed before r.builder.finish id
        data.sameLine := by
  have retouched := Builder.retouched_finish r.builder
  rw [(Builder.kind_finish r.builder id).1] at isComment
  have isNode : id < r.builder.doc.count := by
    by_contra outside
    rw [Document.node_of_count_le (Nat.not_lt.1 outside)] at isComment
    cases isComment
  obtain ⟨before, opening, ahead, split, isOpening, atStart, places⟩ :=
    h.comments id isNode data isComment
  refine ⟨before, opening, ahead, split, isOpening, ?_, ?_⟩
  · rw [atStart, retouched.start_eq]
  · exact places.congr (Builder.collect_subset _ _ ⟨_, split.symm⟩) retouched.text_eq
      (retouched.start_eq id) fun ended mem ↦ h.node_finish mem

end Tagged

end Reading

/-- Every comment was opened behind some tokens. It is on the line of an end if there is no line
break between it and the node that these tokens ended last as the end of a tag, whatever that node
is. If it is an element, or if there is none, then the comment is on the line of an end just if no
line break is between it and the last element that the end of a tag ended before it. -/
theorem sameLine_parse (text uri : Text) (mode : Mode) {id : Nat} {data : CharacterData}
    (isComment : ((Document.parse text uri mode).node id).kind = .comment data) :
    let doc := Document.parse text uri mode
    ∃ before opening ahead, Scanner.tokenize text mode = before ++ opening :: ahead ∧
      opening.kind = .commentOpen ∧ opening.start = (doc.node id).start ∧
      let endings := (Builder.start text uri mode).endings before
      (data.sameLine = true ↔
        ∃ ended, endings.getLast? = some ended ∧ doc.FollowsInLine ended id) ∧
      ((∀ ended, endings.getLast? = some ended → (doc.node ended).kind.isElement = true) →
        (data.sameLine = true ↔
          ∃ ended, doc.LastTagEnded ended id ∧ doc.FollowsInLine ended id)) := by
  intro doc
  obtain ⟨n, passed, last, atEnd, tokens, tagged⟩ :=
    Reading.exists_atEnd_of_history (fun _ _ _ h ↦ h.rescans) (fun _ _ _ _ h ↦ h.emits)
      (Reading.start_tagged text uri mode)
  have isDoc : doc = ((Reading.start text uri mode).after n).builder.finish :=
    Reading.parse_eq_finish atEnd
  have tokenize : Scanner.tokenize text mode = passed ++ [last] := tokens
  rw [List.nil_append] at tagged
  rw [Reading.parse_eq_finish atEnd] at isComment
  obtain ⟨before, opening, ahead, rfl, isOpening, atStart, places⟩ := tagged.finish isComment
  rw [← isDoc] at atStart places
  refine ⟨before, opening, ahead ++ [last], ?_, isOpening, atStart, places.sameLine_iff, ?_⟩
  · rw [tokenize, List.append_assoc, List.cons_append]
  · intro isElement
    have inside : (Builder.start text uri mode).endings before ⊆
        (Builder.start text uri mode).endings (before ++ opening :: ahead) :=
      Builder.collect_subset _ _ (List.prefix_append _ _)
    have settled : ∀ ended ∈ (Builder.start text uri mode).endings (before ++ opening :: ahead),
        doc.node ended = ((Reading.start text uri mode).after n).builder.doc.node ended := by
      rw [isDoc]
      exact fun ended mem ↦ tagged.node_finish mem
    apply places.sameLine_iff_lastTagEnded inside
    · rw [Builder.endings, Builder.collect_append] at settled
      have ordered := tagged.ordered
      rw [Builder.endings, Builder.collect_append] at ordered
      refine (List.pairwise_append.1 ordered).1.imp_of_mem fun first second less ↦ ?_
      rwa [settled _ (List.mem_append_left _ first), settled _ (List.mem_append_left _ second)]
    · intro ended isEnded
      rw [Document.IsTagEnded, isDoc, (Builder.kind_finish _ ended).1] at isEnded
      refine tagged.marked ended ?_ isEnded
      by_contra outside
      rw [Document.node_of_count_le (Nat.not_lt.1 outside)] at isEnded
      cases isEnded
    · intro ended isLast
      have mem := inside (List.mem_of_getLast? isLast)
      rw [Document.IsTagEnded, settled ended mem]
      refine (tagged.ended ended mem).marked ?_
      rw [← settled ended mem]
      exact isElement ended isLast

/-- A comment right behind an empty element is on its line. -/
theorem sameLine_parse_emptyTag :
    let text : Text := ['<', 'a', '/', '>', '<', '!', '-', '-', '-', '-', '>']
    let doc := Document.parse text [] .xml
    ∃ before opening ahead, Scanner.tokenize text .xml = before ++ opening :: ahead ∧
      opening.kind = .commentOpen ∧
      ∃ ended, ((Builder.start text [] .xml).endings before).getLast? = some ended ∧
        doc.FollowsInLine ended 2 := by
  intro text doc
  have isComment : ((Document.parse text [] .xml).node 2).kind =
      .comment { sameLine := true } := by decide +kernel
  obtain ⟨before, opening, ahead, tokenize, isOpening, -, onLine, -⟩ :=
    sameLine_parse text [] .xml isComment
  exact ⟨before, opening, ahead, tokenize, isOpening, onLine.1 rfl⟩

/-- A comment behind a prolog that ends as an empty element does is on its line, though there is no
element at all. -/
theorem sameLine_parse_prolog :
    let text : Text := ['<', '?', 'x', 'm', 'l', ' ', '/', '>', '<', '!', '-', '-', '-', '-', '>']
    let doc := Document.parse text [] .xml
    (doc.node 2).kind = .comment { sameLine := true } ∧ ∀ id, ¬ doc.IsTagEnded id := by
  intro text doc
  have isComment : ((Document.parse text [] .xml).node 2).kind =
      .comment { sameLine := true } := by decide +kernel
  have marks : ((Document.parse text [] .xml).nodes.toList.map fun node ↦ node.kind.marks.2) =
      [false, false, false] := by decide +kernel
  refine ⟨isComment, fun id isEnded ↦ ?_⟩
  rw [Document.IsTagEnded] at isEnded
  rcases Nat.lt_or_ge id doc.count with lt | ge
  · have mem : true ∈ doc.nodes.toList.map fun node ↦ node.kind.marks.2 := by
      refine List.mem_map.2 ⟨doc.node id, ?_, isEnded⟩
      rw [Document.node, Array.getD_eq_getD_getElem?, Array.getElem?_eq_getElem lt,
        Option.getD_some]
      exact Array.getElem_mem_toList lt
    rw [marks] at mem
    simp at mem
  · rw [Document.node_of_count_le ge] at isEnded
    cases isEnded

end TolerantXml
