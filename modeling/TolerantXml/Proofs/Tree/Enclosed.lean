import TolerantXml.Proofs.Scanner.Enclosed
import TolerantXml.Proofs.Tree.Kinds
import TolerantXml.Proofs.Tree.Receding

/-!
# Nodes of constructs that a fixed text ends

What the tokens of a comment, of a character data section and of an instruction do to its node: the
opening adds it, the text sets its content, and the end closes it. No other token makes a node one
of these or changes which one it is, except for the target that tells an instruction from the
prolog.
-/

namespace TolerantXml

/-- The construct that nodes of a frame are of. -/
def Frame.enclosed? : Frame → Option Enclosed
  | .comment => some .comment
  | .cdata => some .cdata
  | .instruction => some .instruction
  | _ => none

namespace NodeKind

/-- The construct that a node is of, if a fixed text ends it. The prolog is read as a tag is. -/
def enclosed? (kind : NodeKind) : Option Enclosed :=
  if kind.isProlog then none else kind.frame.enclosed?

/-- Whether a text stands between the opening of a construct and its content: nothing, or the target
of an instruction and all of the white space behind it. -/
def LeadsTo (kind : NodeKind) (lead content : Text) : Prop :=
  match kind with
  | .instruction i => ∃ blank : Text, lead = i.target.getD [] ++ blank ∧
    (∀ c ∈ blank, isSpace c = true) ∧ ∀ c ∈ content.head?, isSpace c = false
  | _ => lead = []

variable {kind : NodeKind} {enclosed : Enclosed}

private theorem exists_of_enclosed?_comment (isEnclosed : kind.enclosed? = some .comment) :
    ∃ data, kind = .comment data := by
  rw [enclosed?] at isEnclosed
  split at isEnclosed
  · cases isEnclosed
  · cases kind with
    | comment data => exact ⟨data, rfl⟩
    | _ => cases isEnclosed

private theorem exists_of_enclosed?_cdata (isEnclosed : kind.enclosed? = some .cdata) :
    ∃ data, kind = .cdata data := by
  rw [enclosed?] at isEnclosed
  split at isEnclosed
  · cases isEnclosed
  · cases kind with
    | cdata data => exact ⟨data, rfl⟩
    | _ => cases isEnclosed

theorem exists_of_enclosed?_instruction (isEnclosed : kind.enclosed? = some .instruction) :
    ∃ i, kind = .instruction i ∧ i.isProlog = false := by
  rw [enclosed?] at isEnclosed
  split at isEnclosed
  · cases isEnclosed
  · next notProlog =>
    cases kind with
    | instruction i =>
      refine ⟨i, rfl, ?_⟩
      simpa [isProlog, instruction?] using notProlog
    | _ => cases isEnclosed

end NodeKind

/-- Where a construct stands in a text that was read up to `rest`: behind its opening there is what
leads to the content, and the content, if there is any. -/
structure Node.StandsBetween (node : Node) (enclosed : Enclosed)
    (text before lead body rest : Text) : Prop where
  text_eq : text = before ++ enclosed.opening ++ lead ++ body ++ rest
  start_eq : node.start = before.byteSize
  leads : node.kind.LeadsTo lead body
  content : node.kind.content =
    if body = [] then none
    else some ⟨(before ++ enclosed.opening ++ lead).byteSize,
      (before ++ enclosed.opening ++ lead ++ body).byteSize⟩

namespace Builder

variable {b : Builder} {token : Token} {enclosed : Enclosed} {kind : NodeKind} {id : Nat}

/-! ### Openings -/

theorem enclosed?_added (b : Builder) (token : Token) :
    (b.added token).enclosed? = token.kind.encloses? := by
  unfold added
  cases token.kind <;> rfl

/-- Nothing is known of a construct behind its opening. -/
theorem content_added (encloses : token.kind.encloses? = some enclosed) :
    (b.added token).content = none ∧ (b.added token).LeadsTo [] [] := by
  cases kind : token.kind with
  | commentOpen | cdataOpen =>
    rw [added, kind]
    exact ⟨rfl, rfl⟩
  | instructionOpen =>
    rw [added, kind]
    exact ⟨rfl, [], rfl, List.forall_mem_nil _, fun _ isHead ↦ by cases isHead⟩
  | _ =>
    rw [kind] at encloses
    cases encloses

/-- What happened where a token opened a node. -/
structure OpensNode (start : Nat) (b b' : Builder) : Prop where
  current_eq : b'.current = b.doc.count
  count_eq : b'.doc.count = b.doc.count + 1
  start_eq : b'.currentNode.start = start
  unclosed : b'.currentNode.closed = false

private theorem opensNode_openToEnd {c : Builder} (lt : c.current < c.doc.count)
    (count : c.doc.count = b.doc.count) (kind : NodeKind) (start : Nat) :
    OpensNode start b (c.openToEnd kind start) := by
  have node : (c.openToEnd kind start).currentNode =
      { kind := kind, start := start, stop := c.doc.length, parent := some c.current } := by
    rw [currentNode, openToEnd, openNode, Document.node_addChild _ lt, if_pos rfl]
  constructor
  · exact count
  · rw [openToEnd, openNode, Document.count_addChild, count]
  · rw [node]
  · rw [node]

theorem opensNode_apply (linked : b.Linked) (encloses : token.kind.encloses? = some enclosed) :
    OpensNode token.start b (b.apply token) := by
  have left := linked.leaveDeclaration token.start
  have count := (returned_leaveDeclaration linked token.start).doc.count_eq
  cases kind : token.kind with
  | commentOpen | instructionOpen =>
    simp only [apply, kind]
    exact opensNode_openToEnd left.current_lt count _ _
  | cdataOpen =>
    simp only [apply, kind]
    exact opensNode_openToEnd linked.current_lt rfl _ _
  | _ =>
    rw [kind] at encloses
    cases encloses

/-! ### What is in a construct -/

/-- Which construct a node is of is settled, except by the target of an instruction. -/
theorem enclosed?_apply (linked : b.Linked) (lt : id < b.doc.count)
    (unnamed : token.kind ≠ .prologTarget ∧ token.kind ≠ .instructionTarget ∨
      id ≠ (b.apply token).current) :
    ((b.apply token).doc.node id).kind.enclosed? = (b.doc.node id).kind.enclosed? := by
  have takes := takes_apply linked token
  have frame : ((b.apply token).doc.node id).kind.frame = (b.doc.node id).kind.frame :=
    takes.frame_eq linked lt
  have isProlog : ((b.apply token).doc.node id).kind.isProlog = (b.doc.node id).kind.isProlog :=
    takes.isProlog_eq linked lt unnamed
  rw [NodeKind.enclosed?, NodeKind.enclosed?, frame, isProlog]

/-- The text of a construct is its content. -/
theorem rewrite_text (isText : token.kind = enclosed.textKind)
    (isEnclosed : kind.enclosed? = some enclosed) {lead body : Text} (leads : kind.LeadsTo lead [])
    (notSpace : enclosed = .instruction → ∀ c ∈ body.head?, isSpace c = false) :
    (b.rewrite token kind).content = some token.span ∧
      (b.rewrite token kind).LeadsTo lead body := by
  cases enclosed with
  | comment =>
    obtain ⟨data, rfl⟩ := NodeKind.exists_of_enclosed?_comment isEnclosed
    rw [rewrite, isText]
    exact ⟨rfl, leads⟩
  | cdata =>
    obtain ⟨data, rfl⟩ := NodeKind.exists_of_enclosed?_cdata isEnclosed
    rw [rewrite, isText]
    exact ⟨rfl, leads⟩
  | instruction =>
    obtain ⟨i, rfl, -⟩ := NodeKind.exists_of_enclosed?_instruction isEnclosed
    obtain ⟨blank, lead_eq, isBlank, -⟩ := leads
    rw [rewrite, isText]
    exact ⟨rfl, blank, lead_eq, isBlank, notSpace rfl⟩

/-- What leads to the text of an instruction says nothing of it. -/
theorem rewrite_lead {i : Instruction} {lead : Text}
    (isLead : token.kind = .instructionTarget ∧ lead = [] ∨ token.kind = .whitespace ∧
      ∀ c ∈ token.text, isSpace c = true)
    (leads : (NodeKind.instruction i).LeadsTo lead []) :
    (b.rewrite token (.instruction i)).content = i.content ∧
      (b.rewrite token (.instruction i)).LeadsTo (lead ++ token.text) [] := by
  obtain ⟨blank, lead_eq, isBlank, notSpace⟩ := leads
  rcases isLead with ⟨isTarget, rfl⟩ | ⟨isWhitespace, isSpace⟩
  · rw [rewrite, isTarget]
    exact ⟨rfl, [], (List.append_nil _).symm, List.forall_mem_nil _, notSpace⟩
  · rw [rewrite, isWhitespace]
    refine ⟨rfl, blank ++ token.text, ?_, ?_, notSpace⟩
    · rw [lead_eq, List.append_assoc]
    · rw [List.forall_mem_append]
      exact ⟨isBlank, isSpace⟩

section Inside

variable (isInside : token.kind = enclosed.textKind ∨ token.kind = .instructionTarget ∨
  token.kind = .whitespace)
include isInside

/-- The text and the target of a construct, and white space in it, leave the builder where it
is. -/
theorem current_apply_of_enclosed (b : Builder) : (b.apply token).current = b.current := by
  have stays : token.kind.stays = true := by
    rcases isInside with kind | kind | kind
    · rw [kind]
      cases enclosed <;> rfl
    · rw [kind]
      rfl
    · rw [kind]
      rfl
  exact (retouched_apply b stays).current_eq

theorem subject_of_enclosed (b : Builder) : b.subject token = b.current := by
  rcases isInside with kind | kind | kind
  · cases enclosed <;> simp only [subject, kind, Enclosed.textKind]
  · simp only [subject, kind]
  · simp only [subject, kind]

/-- The target that is read here is not that of the prolog. -/
theorem enclosed?_rewrite (b : Builder) (isEnclosed : kind.enclosed? = some enclosed) :
    (b.rewrite token kind).enclosed? = some enclosed := by
  have frame := frame_rewrite b token kind
  have isProlog : (b.rewrite token kind).isProlog = true → kind.isProlog = true := by
    rcases isInside with isKind | isKind | isKind
    · cases enclosed <;> cases kind <;> rw [rewrite, isKind] <;> exact id
    · cases kind with
      | instruction i =>
        rw [rewrite, isKind]
        intro isProlog
        cases isProlog
      | _ =>
        rw [rewrite, isKind]
        exact id
    · rw [rewrite, isKind]
      exact id
  rw [NodeKind.enclosed?] at isEnclosed ⊢
  split at isEnclosed
  · cases isEnclosed
  · next notProlog =>
    rw [if_neg fun isRewritten ↦ notProlog (isProlog isRewritten), frame, isEnclosed]

end Inside

/-- The target of the prolog takes its node from the constructs. -/
theorem enclosed?_prologTarget (linked : b.Linked) (isProlog : token.kind = .prologTarget)
    (isEnclosed : b.currentNode.kind.enclosed? = some .instruction) :
    ((b.apply token).doc.node b.current).kind.enclosed? = none := by
  obtain ⟨i, isInstruction, -⟩ := NodeKind.exists_of_enclosed?_instruction isEnclosed
  have subject : b.subject token = b.current := by simp only [subject, isProlog]
  rw [(records_apply linked token).old _ linked.current_lt, if_pos subject.symm, ← currentNode,
    isInstruction, rewrite, isProlog]
  rfl

/-! ### The end -/

/-- The end of a construct closes it, and changes nothing else of it. -/
theorem closes_apply (linked : b.Linked) (isClosing : token.kind = enclosed.closingKind)
    (isEnclosed : b.currentNode.kind.enclosed? = some enclosed) :
    b.current ∉ (b.apply token).doc.path (b.apply token).current ∧
      (b.apply token).doc.node b.current =
        { b.currentNode with closed := true, stop := token.stop } := by
  have notRoot : b.current ≠ Document.root := by
    apply linked.doc.ne_root_of_frame
    intro isDocument
    rw [NodeKind.enclosed?, show b.currentNode.kind.frame = .document from isDocument] at isEnclosed
    split at isEnclosed <;> cases isEnclosed
  have closed {p : NodeKind → Bool} (holds : p b.currentNode.kind = true) :
      b.current ∉ (b.closeIf p token.stop).doc.path (b.closeIf p token.stop).current ∧
        (b.closeIf p token.stop).doc.node b.current =
          { b.currentNode with closed := true, stop := token.stop } := by
    refine ⟨not_mem_path_closeIf linked holds notRoot token.stop, ?_⟩
    obtain ⟨parent, -, eq⟩ := exists_close_eq linked notRoot token.stop
    rw [closeIf, if_pos holds, eq, Document.node_modify _ linked.current_lt, if_pos rfl]
    rfl
  cases enclosed with
  | comment =>
    obtain ⟨data, isComment⟩ := NodeKind.exists_of_enclosed?_comment isEnclosed
    simp only [apply, isClosing, Enclosed.closingKind]
    exact closed (by rw [isComment]; rfl)
  | cdata =>
    obtain ⟨data, isCdata⟩ := NodeKind.exists_of_enclosed?_cdata isEnclosed
    simp only [apply, isClosing, Enclosed.closingKind]
    exact closed (by rw [isCdata]; rfl)
  | instruction =>
    obtain ⟨i, isInstruction, -⟩ := NodeKind.exists_of_enclosed?_instruction isEnclosed
    simp only [apply, isClosing, Enclosed.closingKind]
    exact closed (by rw [isInstruction]; rfl)

end Builder

end TolerantXml
