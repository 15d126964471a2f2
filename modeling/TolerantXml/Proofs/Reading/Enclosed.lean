import TolerantXml.Proofs.Reading.Nesting
import TolerantXml.Proofs.Reading.Settled
import TolerantXml.Proofs.Tree.Enclosed

/-!
# Comments, character data sections and instructions have exact bounds

While the scanner is in such a construct, its node is the current one and holds what was read of the
construct so far, in which the end does not occur (`Reading.Within`). So a construct that is closed
stops right behind the first occurrence of its end, and one that is not has no end in the text
(`enclosed_parse`).
-/

namespace TolerantXml

open Lexeme

theorem Node.StandsBetween.congr {node node' : Node} {enclosed : Enclosed}
    {text before lead body rest : Text}
    (h : node.StandsBetween enclosed text before lead body rest) (start : node'.start = node.start)
    (kind : node'.kind = node.kind) :
    node'.StandsBetween enclosed text before lead body rest where
  text_eq := h.text_eq
  start_eq := start.trans h.start_eq
  leads := kind ▸ h.leads
  content := kind ▸ h.content

/-- Whether a construct was closed at the first occurrence of its end. -/
def Node.EndsFirst (node : Node) (enclosed : Enclosed) (text : Text) : Prop :=
  node.closed = true ∧ ∃ before lead body last,
    node.StandsBetween enclosed text before lead body (enclosed.closing ++ last) ∧
      node.stop = (before ++ enclosed.opening ++ lead ++ body ++ enclosed.closing).byteSize ∧
      upTo enclosed.closing (lead ++ body ++ (enclosed.closing ++ last)) = lead ++ body

namespace Reading

/-- What was read so far of the construct that the scanner is in. The end does not start in it, and
its text was read up to the end, if it was read. -/
structure Within (r : Reading) (enclosed : Enclosed) (text before lead body : Text) : Prop where
  isEnclosed : r.builder.currentNode.kind.enclosed? = some enclosed
  unclosed : r.builder.currentNode.closed = false
  stands : r.builder.currentNode.StandsBetween enclosed text before lead body r.scanner.cursor.rest
  free : upTo enclosed.closing (lead ++ body ++ r.scanner.cursor.rest) =
    lead ++ body ++ upTo enclosed.closing r.scanner.cursor.rest
  readOnce : body ≠ [] → upTo enclosed.closing r.scanner.cursor.rest = []
  atTarget : r.scanner.config.state = .instructionTarget → lead = [] ∧ body = []

/-- What holds of the constructs of a reading: all but the one that the scanner is in are closed. -/
structure Delimited (text : Text) (mode : Mode) (r : Reading) : Prop where
  nested : r.Nested text mode
  aimed : r.Aimed
  within : ∀ enclosed, r.scanner.config.state.enclosed? = some enclosed →
    ∃ before lead body, r.Within enclosed text before lead body
  ended : ∀ id < r.builder.doc.count, ∀ enclosed,
    (r.builder.doc.node id).kind.enclosed? = some enclosed →
      r.scanner.config.state.enclosed? = some enclosed ∧ id = r.builder.current ∨
        id ∉ r.builder.doc.path r.builder.current ∧
          (r.builder.doc.node id).EndsFirst enclosed text

variable {text uri before lead body : Text} {mode : Mode} {r : Reading} {token : Token}
  {next : Scanner.Config} {enclosed : Enclosed} {id : Nat}

private theorem start_delimited (text uri : Text) (mode : Mode) :
    Delimited text mode (start text uri mode) where
  nested := start_nested text uri mode
  aimed := start_aimed text uri mode
  within enclosed inside := by cases mode <;> cases inside
  ended id _ enclosed isEnclosed := by
    rw [start] at isEnclosed
    rcases Builder.kind_start text uri mode id with isRoot | ⟨-, -, isDoctype⟩
    · rw [isRoot] at isEnclosed
      cases isEnclosed
    · rw [isDoctype] at isEnclosed
      cases isEnclosed

/-- What was read of a text ends at the cursor. -/
private theorem Nested.offset_eq {front : Text} (h : r.Nested text mode)
    (split : text = front ++ r.scanner.cursor.rest) :
    r.scanner.cursor.offset = front.byteSize := by
  have size := h.standsIn.offset_add_rest
  have size' := congrArg Text.byteSize split
  rw [Text.byteSize_append] at size'
  omega

/-! ### In a construct -/

namespace Within

variable {cursor : Cursor} {lead' body' : Text} (within : r.Within enclosed text before lead body)
include within

/-- A token in a construct, other than its end, is written into the node of the construct. -/
private theorem write (linked : r.builder.Linked)
    (keeps : Builder.Keeps r.builder (r.builder.apply token))
    (isInside : token.kind = enclosed.textKind ∨ token.kind = .instructionTarget ∨
      token.kind = .whitespace)
    (text_eq : text = before ++ enclosed.opening ++ lead' ++ body' ++ cursor.rest)
    (leads : (r.builder.rewrite token r.builder.currentNode.kind).LeadsTo lead' body')
    (content : (r.builder.rewrite token r.builder.currentNode.kind).content =
      if body' = [] then none
      else some ⟨(before ++ enclosed.opening ++ lead').byteSize,
        (before ++ enclosed.opening ++ lead' ++ body').byteSize⟩)
    (free : upTo enclosed.closing (lead' ++ body' ++ cursor.rest) =
      lead' ++ body' ++ upTo enclosed.closing cursor.rest)
    (readOnce : body' ≠ [] → upTo enclosed.closing cursor.rest = [])
    (notTarget : next.state ≠ .instructionTarget) :
    Within ⟨⟨next, cursor⟩, r.builder.apply token⟩ enclosed text before lead' body' := by
  have current := r.builder.current_apply_of_enclosed isInside
  have kind : (r.builder.apply token).currentNode.kind =
      r.builder.rewrite token r.builder.currentNode.kind := by
    have old := (Builder.records_apply linked token).old _ linked.current_lt
    rw [if_pos (r.builder.subject_of_enclosed isInside).symm] at old
    rw [Builder.currentNode, current]
    exact old
  constructor
  case isEnclosed =>
    rw [kind]
    exact r.builder.enclosed?_rewrite isInside within.isEnclosed
  case unclosed =>
    rw [Builder.currentNode, current, ← Bool.not_eq_true]
    intro closed
    have isOpen : r.builder.current ∈ (r.builder.apply token).doc.path
        (r.builder.apply token).current := by
      rw [current]
      exact Document.Linked.mem_path_self
    rcases (Builder.takes_apply linked token).closed_cases linked isOpen closed with
      ⟨-, before⟩ | ⟨isEndTag, -⟩
    · rw [← Builder.currentNode, within.unclosed] at before
      cases before
    · rw [isEndTag] at isInside
      cases enclosed <;> simp [Enclosed.textKind] at isInside
  case stands =>
    refine ⟨text_eq, ?_, kind ▸ leads, kind ▸ content⟩
    rw [Builder.currentNode, current, keeps.start_eq _ linked.current_lt]
    exact within.stands.start_eq
  case free => exact free
  case readOnce => exact readOnce
  case atTarget => exact fun atTarget ↦ absurd atTarget notTarget

variable (h : r.Delimited text mode) (keeps : Builder.Keeps r.builder (r.builder.apply token))
  (emits : r.Emits token next)
include h keeps emits

/-- The text of a construct is read behind what leads to it, up to the end. -/
private theorem emits_text (isText : token.kind = enclosed.textKind)
    (isTaken : token.text = upTo enclosed.closing r.scanner.cursor.rest)
    (notTarget : next.state ≠ .instructionTarget)
    (notSpace : enclosed = .instruction →
      ∀ c ∈ r.scanner.cursor.rest.head?, isSpace c = false) :
    Within ⟨⟨next, r.scanner.cursor.advance token.text⟩, r.builder.apply token⟩ enclosed text
      before lead token.text := by
  have linked := h.nested.inStep.linked
  obtain rfl : body = [] := by
    by_contra wasRead
    exact emits.nonempty (isTaken.trans (within.readOnce wasRead))
  have ahead := Cursor.rest_advance emits.starts
  have ended : upTo enclosed.closing (r.scanner.cursor.advance token.text).rest = [] := by
    have drop := Scanner.upTo_drop_upTo enclosed.closing r.scanner.cursor.rest
    rw [← isTaken] at drop
    exact drop
  have text_eq := within.stands.text_eq
  have free := within.free
  rw [List.append_nil] at text_eq free
  have offset := h.nested.offset_eq text_eq
  have head : ∀ c ∈ token.text.head?, c ∈ r.scanner.cursor.rest.head? := by
    intro c isHead
    obtain ⟨tail, isTail⟩ := List.head?_eq_some_iff.1 isHead
    rw [← ahead, isTail]
    rfl
  obtain ⟨content, leads⟩ := r.builder.rewrite_text isText within.isEnclosed within.stands.leads
    fun isInstruction c isHead ↦ notSpace isInstruction c (head c isHead)
  refine within.write linked keeps (.inl isText) ?_ leads ?_ ?_ (fun _ ↦ ended) notTarget
  · rw [List.append_assoc, ahead]
    exact text_eq
  · rw [content, if_neg emits.nonempty, emits.span, offset, Text.byteSize_append _ token.text]
  · rw [ended, List.append_assoc, ahead, free, ← isTaken, List.append_nil]

/-- The target of an instruction and white space are read in front of its text. -/
private theorem emits_lead (isInstruction : enclosed = .instruction) (noText : body = [])
    (isLead : token.kind = .instructionTarget ∧ lead = [] ∨ token.kind = .whitespace ∧
      ∀ c ∈ token.text, isSpace c = true)
    (noMark : '?' ∉ token.text) (notTarget : next.state ≠ .instructionTarget) :
    Within ⟨⟨next, r.scanner.cursor.advance token.text⟩, r.builder.apply token⟩ enclosed text
      before (lead ++ token.text) [] := by
  subst isInstruction noText
  obtain ⟨i, isKind, -⟩ := NodeKind.exists_of_enclosed?_instruction within.isEnclosed
  have ahead := Cursor.rest_advance emits.starts
  have text_eq := within.stands.text_eq
  have free := within.free
  have unset := within.stands.content
  have leads := within.stands.leads
  rw [if_pos rfl, isKind] at unset
  rw [isKind] at leads
  rw [List.append_nil, ← ahead, ← List.append_assoc] at text_eq free
  obtain ⟨content, leads⟩ := Builder.rewrite_lead isLead leads
  refine within.write h.nested.inStep.linked keeps (.inr (isLead.imp And.left And.left)) ?_ ?_ ?_ ?_
    (fun wasRead ↦ absurd rfl wasRead) notTarget
  · rw [List.append_nil, ← List.append_assoc]
    exact text_eq
  · rw [isKind]
    exact leads
  · rw [isKind, if_pos rfl, content]
    exact unset
  · rw [List.append_nil, free, upTo_append_of_head rfl noMark, List.append_assoc]

omit keeps in
/-- The end of a construct closes it where it first occurs. -/
private theorem endsFirst (isClosing : token.kind = enclosed.closingKind)
    (isTaken : token.text = enclosed.closing) :
    r.builder.current ∉ (r.builder.apply token).doc.path (r.builder.apply token).current ∧
      ((r.builder.apply token).doc.node r.builder.current).EndsFirst enclosed text := by
  have ahead := Cursor.rest_advance emits.starts
  obtain ⟨left, node⟩ :=
    Builder.closes_apply h.nested.inStep.linked isClosing within.isEnclosed
  have stands := within.stands
  have free := within.free
  have offset := h.nested.offset_eq stands.text_eq
  rw [← ahead, isTaken] at stands free
  have nothing : upTo enclosed.closing
      (enclosed.closing ++ (r.scanner.cursor.advance enclosed.closing).rest) = [] :=
    List.prefix_nil.1 (upTo_isPrefix_of_append enclosed.closing [] _)
  rw [nothing, List.append_nil] at free
  refine ⟨left, ?_⟩
  rw [node]
  refine ⟨rfl, before, lead, body, _, stands.congr rfl rfl, ?_, free⟩
  rw [emits.stop_eq, offset, isTaken, Text.byteSize_append _ enclosed.closing]

end Within

/-! ### Any token -/

namespace Delimited

private theorem rescans (h : r.Delimited text mode) (rescans : r.scanner.config.Rescans next) :
    Delimited text mode ⟨⟨next, r.scanner.cursor⟩, r.builder⟩ where
  nested := h.nested.rescans rescans
  aimed := h.aimed.rescans rescans
  within enclosed inside := by
    rw [rescans.enclosed?_eq h.nested.inStep.sound] at inside
    obtain ⟨before, lead, body, within⟩ := h.within enclosed inside
    have notTarget := rescans.ne_instructionTarget h.nested.inStep.sound
    exact ⟨before, lead, body, { within with atTarget := fun same ↦ absurd same notTarget }⟩
  ended := by
    rw [rescans.enclosed?_eq h.nested.inStep.sound]
    exact h.ended

section Reads

variable (h : r.Delimited text mode) (emits : r.Emits token next)
  (reads : Scanner.step r.scanner.config r.scanner.cursor.before r.scanner.cursor.rest =
    .emit token.kind token.text next)
include h emits

/-- Behind an opening nothing was read yet of what it opens. -/
private theorem within_of_encloses (encloses : token.kind.encloses? = some enclosed) :
    Within ⟨⟨next, r.scanner.cursor.advance token.text⟩, r.builder.apply token⟩ enclosed text
      r.scanner.cursor.before.reverse [] [] := by
  have linked := h.nested.inStep.linked
  have standsIn := h.nested.standsIn
  obtain ⟨-, -, isTaken⟩ := emits.transition.enclosed_of_encloses encloses
  have ahead := Cursor.rest_advance emits.starts
  have opens := Builder.opensNode_apply linked encloses
  obtain ⟨unset, leads⟩ := r.builder.content_added encloses
  have kind : (r.builder.apply token).currentNode.kind = r.builder.added token := by
    rw [Builder.currentNode, opens.current_eq]
    refine (Builder.records_apply linked token).new _ (Nat.le_refl _) ?_
    rw [opens.count_eq]
    exact Nat.lt_succ_self _
  constructor
  case isEnclosed =>
    rw [kind, Builder.enclosed?_added]
    exact encloses
  case unclosed => exact opens.unclosed
  case stands =>
    refine ⟨?_, ?_, kind ▸ leads, kind ▸ unset⟩
    · rw [List.append_nil, List.append_nil, ← isTaken, List.append_assoc, ahead]
      exact standsIn.text_eq.symm
    · rw [opens.start_eq, emits.start_eq, Text.byteSize_reverse]
      exact standsIn.offset_eq
  case free => rfl
  case readOnce => exact fun wasRead ↦ absurd rfl wasRead
  case atTarget => exact fun _ ↦ ⟨rfl, rfl⟩

include reads

/-- A construct is read from its opening on. -/
private theorem within_apply (inside : next.state.enclosed? = some enclosed) :
    ∃ before lead body, Within ⟨⟨next, r.scanner.cursor.advance token.text⟩,
      r.builder.apply token⟩ enclosed text before lead body := by
  have sound := h.nested.inStep.sound
  have keeps := h.aimed.keeps_apply emits.transition
  rcases emits.transition.cases_of_enclosed_next sound inside with encloses | wasInside
  · exact ⟨_, [], [], h.within_of_encloses emits encloses⟩
  · obtain ⟨before, lead, body, within⟩ := h.within enclosed wasInside
    have isRead := Scanner.readsEnclosed_of_step sound reads wasInside
    cases isRead with
    | text isText isTaken stays notTarget notSpace =>
      subst stays
      exact ⟨before, lead, _,
        within.emits_text h keeps emits isText isTaken notTarget notSpace⟩
    | space isInstruction isWhitespace isTaken stays notTarget =>
      subst stays
      -- Behind the text of an instruction only its end is ahead.
      have noText : body = [] := by
        have nonempty := emits.nonempty
        by_contra wasRead
        have more : r.scanner.cursor.rest ≠ [] := by
          intro atEnd
          rw [isTaken, atEnd] at nonempty
          exact nonempty rfl
        obtain ⟨tail, split⟩ := Scanner.exists_append_of_upTo_eq_nil more (within.readOnce wasRead)
        rw [isTaken, split, isInstruction] at nonempty
        exact nonempty rfl
      refine ⟨before, _, [], within.emits_lead h keeps emits isInstruction noText
        (.inr ⟨isWhitespace, ?_⟩) (isTaken ▸ not_mem_space) notTarget⟩
      rw [isTaken]
      exact fun c ↦ List.mem_takeWhile_imp
    | target isInstruction isTarget isTaken atTarget behind =>
      obtain ⟨noLead, noText⟩ := within.atTarget atTarget
      refine ⟨before, _, [], within.emits_lead h keeps emits isInstruction noText
        (.inl ⟨isTarget, noLead⟩) (isTaken ▸ not_mem_name) ?_⟩
      rw [behind]
      exact fun same ↦ by cases same
    | closing _ _ left | prolog _ _ left =>
      rw [left] at inside
      cases inside

/-- The construct that the scanner is in is closed by its end, and by nothing else. -/
private theorem ended_apply_current {inside : Enclosed}
    (wasInside : r.scanner.config.state.enclosed? = some inside)
    (isEnclosed : ((r.builder.apply token).doc.node r.builder.current).kind.enclosed? =
      some enclosed) :
    next.state.enclosed? = some enclosed ∧ r.builder.current = (r.builder.apply token).current ∨
      r.builder.current ∉ (r.builder.apply token).doc.path (r.builder.apply token).current ∧
        ((r.builder.apply token).doc.node r.builder.current).EndsFirst enclosed text := by
  have linked := h.nested.inStep.linked
  obtain ⟨before, lead, body, within⟩ := h.within inside wasInside
  have stays (isInside : token.kind = inside.textKind ∨ token.kind = .instructionTarget ∨
      token.kind = .whitespace) (still : next.state.enclosed? = some inside) :
      next.state.enclosed? = some enclosed ∧
        r.builder.current = (r.builder.apply token).current := by
    have current := r.builder.current_apply_of_enclosed isInside
    obtain ⟨_, _, _, within'⟩ := h.within_apply emits reads still
    have same := within'.isEnclosed
    rw [Builder.currentNode, current, isEnclosed] at same
    exact ⟨same ▸ still, current.symm⟩
  have isRead := Scanner.readsEnclosed_of_step h.nested.inStep.sound reads wasInside
  cases isRead with
  | text isText _ same => exact .inl (stays (.inl isText) (same ▸ wasInside))
  | space _ isWhitespace _ same => exact .inl (stays (.inr (.inr isWhitespace)) (same ▸ wasInside))
  | target isInstruction isTarget _ _ behind =>
    refine .inl (stays (.inr (.inl isTarget)) ?_)
    rw [behind, isInstruction]
    rfl
  | closing isClosing isTaken =>
    obtain ⟨-, node⟩ := Builder.closes_apply linked isClosing within.isEnclosed
    rw [node] at isEnclosed
    cases within.isEnclosed.symm.trans isEnclosed
    exact .inr (within.endsFirst h emits isClosing isTaken)
  | prolog isInstruction isProlog =>
    subst isInstruction
    rw [Builder.enclosed?_prologTarget linked isProlog within.isEnclosed] at isEnclosed
    cases isEnclosed

/-- A construct is closed, or the scanner is in it. -/
private theorem ended_apply (lt : id < (r.builder.apply token).doc.count)
    (isEnclosed : ((r.builder.apply token).doc.node id).kind.enclosed? = some enclosed) :
    next.state.enclosed? = some enclosed ∧ id = (r.builder.apply token).current ∨
      id ∉ (r.builder.apply token).doc.path (r.builder.apply token).current ∧
        ((r.builder.apply token).doc.node id).EndsFirst enclosed text := by
  have linked := h.nested.inStep.linked
  have keeps := h.aimed.keeps_apply emits.transition
  rcases Nat.lt_or_ge id r.builder.doc.count with old | new
  · by_cases isInside : r.scanner.config.state.enclosed?.isSome = true ∧ id = r.builder.current
    · obtain ⟨isSome, rfl⟩ := isInside
      obtain ⟨inside, wasInside⟩ := Option.isSome_iff_exists.1 isSome
      exact h.ended_apply_current emits reads wasInside isEnclosed
    · -- A target is written into the node that the scanner is in.
      have unnamed : token.kind ≠ .prologTarget ∧ token.kind ≠ .instructionTarget ∨
          id ≠ (r.builder.apply token).current := by
        by_contra named
        rw [not_or, not_and_or, not_not, not_not, not_not] at named
        obtain ⟨isTarget, isCurrent⟩ := named
        rw [r.builder.current_apply_of_instruction (isTarget.imp_right .inl)] at isCurrent
        have state : r.scanner.config.state = .instructionTarget := by
          rcases isTarget with isKind | isKind <;> exact emits.transition.state_of_kind isKind rfl
        refine isInside ⟨?_, isCurrent⟩
        rw [state]
        rfl
      rw [Builder.enclosed?_apply linked old unnamed] at isEnclosed
      rcases h.ended id old enclosed isEnclosed with ⟨wasInside, isCurrent⟩ | ⟨left, ended⟩
      · refine absurd ⟨?_, isCurrent⟩ isInside
        rw [wasInside]
        rfl
      · right
        rw [keeps.node_eq id old left]
        exact ⟨fun isOpen ↦ left (keeps.mem_path id old isOpen), ended⟩
  · rw [(Builder.records_apply linked token).new id new lt, Builder.enclosed?_added] at isEnclosed
    have opens := Builder.opensNode_apply linked isEnclosed
    have count := opens.count_eq
    left
    refine ⟨(emits.transition.enclosed_of_encloses isEnclosed).2.1, ?_⟩
    rw [opens.current_eq]
    omega

end Reads

private theorem reads (h : r.Delimited text mode) (emits : r.Emits token next)
    (reads : Scanner.step r.scanner.config r.scanner.cursor.before r.scanner.cursor.rest =
      .emit token.kind token.text next) :
    Delimited text mode ⟨⟨next, r.scanner.cursor.advance token.text⟩, r.builder.apply token⟩ where
  nested := h.nested.emits emits
  aimed := h.aimed.emits emits
  within _ inside := h.within_apply emits reads inside
  ended _ lt _ isEnclosed := h.ended_apply emits reads lt isEnclosed

/-- At the end of the text the construct that the scanner is in has no end. -/
private theorem finish_current (h : r.Delimited text mode) (atEnd : r.scanner.cursor.rest = [])
    (within : r.Within enclosed text before lead body) :
    (r.builder.finish.node r.builder.current).StandsBetween enclosed text before lead body [] ∧
      (r.builder.finish.node r.builder.current).closed = false ∧
      (r.builder.finish.node r.builder.current).stop = text.byteSize ∧
      ¬ enclosed.closing <:+: lead ++ body := by
  have kind := Builder.kind_finish r.builder r.builder.current
  have stands := within.stands
  have free := within.free
  rw [atEnd] at stands free
  rw [List.append_nil, upTo, List.append_nil] at free
  refine ⟨stands.congr ((Builder.retouched_finish r.builder).start_eq _) kind.1,
    kind.2.trans within.unclosed, ?_, fun occurs ↦ ?_⟩
  · rw [h.nested.spans.stop_finish h.nested.inStep.linked, if_pos Document.Linked.mem_path_self]
  · have nonempty : enclosed.closing ≠ [] := by cases enclosed <;> exact List.cons_ne_nil _ _
    exact upTo_ne_of_infix nonempty occurs free

end Delimited

end Reading

/-- A comment, a character data section or an instruction stands where its opening does, and its
content is what comes behind that, or behind the target of an instruction and white space. If it is
closed, the content reaches up to the first occurrence of the end, with which the node stops. If it
is not, there is no end behind the opening, and the node and its content reach to the end of the
text. -/
theorem enclosed_parse (text uri : Text) (mode : Mode) {id : Nat} {enclosed : Enclosed}
    (isEnclosed : ((Document.parse text uri mode).node id).kind.enclosed? = some enclosed) :
    let node := (Document.parse text uri mode).node id
    ∃ before lead body rest, node.StandsBetween enclosed text before lead body rest ∧
      (node.closed = true →
        (∃ last, rest = enclosed.closing ++ last) ∧
          node.stop = (before ++ enclosed.opening ++ lead ++ body ++ enclosed.closing).byteSize ∧
          ∀ earlier later, lead ++ body ++ rest = earlier ++ enclosed.closing ++ later →
            lead ++ body <+: earlier) ∧
      (node.closed = false →
        rest = [] ∧ node.stop = text.byteSize ∧ ¬ enclosed.closing <:+: lead ++ body ∧
          ∀ span ∈ node.kind.content, span.stop = text.byteSize) := by
  obtain ⟨n, -, -, atEnd, -, delimited⟩ :=
    @Reading.exists_atEnd_of_steps _ (fun _ r ↦ r.Delimited text mode) []
      (fun _ _ _ h reads ↦ h.rescans (Scanner.rescans_of_step reads))
      (fun _ _ _ _ h ↦ h.reads)
      (Reading.start_delimited text uri mode)
  have linked := delimited.nested.inStep.linked
  rw [Reading.parse_eq_finish atEnd] at isEnclosed ⊢
  rw [(Builder.kind_finish _ id).1] at isEnclosed
  have lt : id < ((Reading.start text uri mode).after n).builder.doc.count := by
    by_contra outside
    rw [Document.node_of_count_le (Nat.not_lt.1 outside)] at isEnclosed
    cases isEnclosed
  intro node
  rcases delimited.ended id lt enclosed isEnclosed with
    ⟨inside, rfl⟩ | ⟨left, closed, before, lead, body, last, stands, stop, free⟩
  · obtain ⟨before, lead, body, within⟩ := delimited.within enclosed inside
    obtain ⟨stands, unclosed, stop, noEnd⟩ := delimited.finish_current atEnd within
    refine ⟨before, lead, body, [], stands, fun isClosed ↦ ?_, fun _ ↦
      ⟨rfl, stop, noEnd, fun span isContent ↦ ?_⟩⟩
    · rw [unclosed] at isClosed
      cases isClosed
    · have size := congrArg Text.byteSize stands.text_eq
      rw [List.append_nil] at size
      rw [stands.content] at isContent
      split at isContent
      · cases isContent
      · cases isContent
        exact size.symm
  · have same : node = ((Reading.start text uri mode).after n).builder.doc.node id :=
      Builder.node_finish linked left
    rw [same]
    refine ⟨before, lead, body, _, stands, fun _ ↦ ⟨⟨last, rfl⟩, stop, ?_⟩, fun unclosed ↦ ?_⟩
    · intro earlier later split
      rw [← free, split]
      exact upTo_isPrefix_of_append enclosed.closing earlier later
    · rw [closed] at unclosed
      cases unclosed

/-- The end of a comment is looked for behind its opening, so that the two do not overlap. -/
theorem enclosed_parse_overlapping :
    let text : Text := ['<', '!', '-', '-', '>', '-', '-', '>']
    let node := (Document.parse text [] .xml).node 1
    node.closed = true ∧ ∃ before lead body last,
      node.StandsBetween .comment text before lead body (Delimiter.commentClose ++ last) ∧
        ∀ earlier later, lead ++ body ++ (Delimiter.commentClose ++ last) =
          earlier ++ Delimiter.commentClose ++ later → lead ++ body <+: earlier := by
  intro text node
  have isComment : ((Document.parse ['<', '!', '-', '-', '>', '-', '-', '>'] [] .xml).node
      1).kind.enclosed? = some .comment := by decide +kernel
  have isClosed : ((Document.parse ['<', '!', '-', '-', '>', '-', '-', '>'] [] .xml).node
      1).closed = true := by decide +kernel
  obtain ⟨before, lead, body, rest, stands, closed, -⟩ := enclosed_parse text [] .xml isComment
  obtain ⟨⟨last, rfl⟩, -, first⟩ := closed isClosed
  exact ⟨isClosed, before, lead, body, last, stands, first⟩

/-- An instruction without an end, behind a target and white space. -/
example :
    let node := (Document.parse ['<', '?', 'a', ' ', ' ', 'b', '?'] [] .dtd).node 2
    node.closed = false ∧ node.kind.content = some ⟨5, 7⟩ ∧ node.stop = 7 := by decide +kernel

end TolerantXml
