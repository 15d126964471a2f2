import Mathlib.Data.List.Induction
import TolerantXml.Proofs.Tree.Receding

/-!
# Constructs that are broken off

Where the end of a construct is awaited, something else may start instead. The end tag of an
element, the prolog and a document type outside its subset are then broken off, and the builder
goes on inside the node where it stands (`Builder.breaksOff`). An element is closed from the name of
its end tag on, but left only at `>`. So a closed node gets no children any more, unless its end tag
is broken off (`children_parse_of_closed`).
-/

namespace TolerantXml

/-- The constructs that something else may break off. -/
inductive Unfinished where
  | endTag
  | prolog
  /-- A document type, outside its internal subset. -/
  | doctype
  deriving DecidableEq, Repr

namespace Unfinished

variable {part : Unfinished} {passed : List Token} {token : Token}

/-- Whether the end of a construct is awaited from a token on. -/
def starts : Unfinished → TokenKind → Bool
  | .endTag, .endTag => true
  | .prolog, .prologTarget => true
  | .doctype, .doctypeOpen | .doctype, .subsetClose => true
  | _, _ => false

/-- Whether a token may come before the end. -/
def holds : Unfinished → TokenKind → Bool
  | .endTag, .whitespace | .endTag, .unknown => true
  | .prolog, .whitespace | .prolog, .unknown | .prolog, .attributeName | .prolog, .assign
  | .prolog, .attributeValue => true
  | .doctype, .whitespace | .doctype, .unrecognized | .doctype, .doctypeName
  | .doctype, .doctypePublic | .doctype, .doctypeSystem | .doctype, .doctypePublicId
  | .doctype, .doctypeSystemId => true
  | _, .eos => true
  | _, _ => false

/-- Whether a token is an end. The header of a document type also ends where its subset starts. -/
def ends : Unfinished → TokenKind → Bool
  | .endTag, .endTagClose => true
  | .prolog, .prologClose | .prolog, .emptyTagClose => true
  | .doctype, .subsetOpen | .doctype, .doctypeClose => true
  | _, _ => false

/-- Whether the end of a construct is awaited behind some tokens. -/
def isAwaited (part : Unfinished) (passed : List Token) : Bool :=
  (passed.reverse.find? fun token ↦ !part.holds token.kind).any fun token ↦ part.starts token.kind

/-- Whether a token comes where the end of a construct is awaited, and does not belong to it. -/
def isBrokenOff (part : Unfinished) (passed : List Token) (token : Token) : Bool :=
  part.isAwaited passed && !part.holds token.kind && !part.ends token.kind

theorem isAwaited_concat (part : Unfinished) (passed : List Token) (token : Token) :
    part.isAwaited (passed ++ [token]) =
      if part.holds token.kind then part.isAwaited passed else part.starts token.kind := by
  rw [isAwaited, List.reverse_concat, List.find?_cons]
  cases part.holds token.kind <;> rfl

/-- Where an end is awaited, a token that opens a node breaks the construct off. -/
private theorem isBrokenOff_of_opens (awaited : part.isAwaited passed = true)
    (opens : token.kind.opens ≠ none) : part.isBrokenOff passed token = true := by
  have foreign : part.holds token.kind = false ∧ part.ends token.kind = false := by
    revert opens
    cases part <;> cases token.kind <;> simp [TokenKind.opens, holds, ends]
  rw [isBrokenOff, awaited, foreign.1, foreign.2]
  rfl

end Unfinished

namespace Builder

variable {b : Builder} {part : Unfinished} {passed ahead : List Token} {token : Token} {id : Nat}

/-- Whether one of the tokens that a builder takes breaks off a construct while the builder stands
in some node. -/
def breaksOff (b : Builder) (part : Unfinished) (tokens : List Token) (id : Nat) : Bool :=
  (List.range tokens.length).any fun n ↦
    tokens[n]?.any (part.isBrokenOff (tokens.take n)) && (b.applyAll (tokens.take n)).current == id

theorem breaksOff_concat (b : Builder) (part : Unfinished) (passed : List Token) (token : Token)
    (id : Nat) :
    b.breaksOff part (passed ++ [token]) id =
      (b.breaksOff part passed id ||
        (part.isBrokenOff passed token && (b.applyAll passed).current == id)) := by
  have before : (List.range passed.length).any (fun n ↦
      (passed ++ [token])[n]?.any (part.isBrokenOff ((passed ++ [token]).take n)) &&
        (b.applyAll ((passed ++ [token]).take n)).current == id) = b.breaksOff part passed id := by
    rw [breaksOff, Bool.eq_iff_iff, List.any_eq_true, List.any_eq_true]
    refine exists_congr fun n ↦ and_congr_right fun mem ↦ ?_
    have lt := List.mem_range.1 mem
    rw [List.getElem?_append_left lt, List.take_append_of_le_length (Nat.le_of_lt lt)]
  rw [breaksOff, List.length_append, List.length_singleton, List.range_succ, List.any_append,
    before, List.any_cons, List.any_nil, Bool.or_false, List.getElem?_concat_length,
    List.take_left' rfl, Option.any_some]

theorem breaksOff_append (broken : b.breaksOff part passed id = true) (ahead : List Token) :
    b.breaksOff part (passed ++ ahead) id = true := by
  induction ahead using List.reverseRecOn with
  | nil => rwa [List.append_nil]
  | append_singleton ahead token ih => rw [← List.append_assoc, breaksOff_concat, ih, Bool.true_or]

/-- A token that comes before an end leaves the builder where it stands. -/
theorem current_apply_of_holds (b : Builder) (holds : part.holds token.kind = true) :
    (b.apply token).current = b.current := by
  have stays : token.kind.stays = true := by
    revert holds
    cases part <;> cases token.kind <;> decide
  exact (retouched_apply b stays).current_eq

/-- Whether a construct lingers in a node: its end is awaited there, or it was broken off there. -/
def Lingers (b : Builder) (part : Unfinished) (passed : List Token) (id : Nat) : Prop :=
  id = (b.applyAll passed).current ∧ part.isAwaited passed = true ∨
    b.breaksOff part passed id = true

/-- A construct that is awaited may end with a token, and lingers otherwise. -/
theorem Lingers.apply (lingers : b.Lingers part passed id) (token : Token) :
    part.ends token.kind = true ∧ id = (b.applyAll passed).current ∨
      b.Lingers part (passed ++ [token]) id := by
  rcases lingers with ⟨isCurrent, awaited⟩ | broken
  · cases holds : part.holds token.kind with
    | true =>
      refine .inr (.inl ⟨?_, ?_⟩)
      · rw [applyAll_concat, current_apply_of_holds _ holds, isCurrent]
      · rw [Unfinished.isAwaited_concat, if_pos holds, awaited]
    | false =>
      cases ends : part.ends token.kind with
      | true => exact .inl ⟨rfl, isCurrent⟩
      | false =>
        refine .inr (.inr ?_)
        rw [breaksOff_concat, Unfinished.isBrokenOff, awaited, holds, ends, isCurrent,
          beq_self_eq_true]
        exact Bool.or_true _
  · exact .inr (.inr (breaksOff_append broken [token]))

/-- What lingers is broken off where something is opened. -/
theorem Lingers.breaksOff_of_opens (lingers : b.Lingers part passed id)
    (opens : token.kind.opens ≠ none) : b.breaksOff part (passed ++ [token]) id = true := by
  rcases lingers with ⟨isCurrent, awaited⟩ | broken
  · rw [breaksOff_concat, Unfinished.isBrokenOff_of_opens awaited opens, isCurrent,
      beq_self_eq_true]
    exact Bool.or_true _
  · exact breaksOff_append broken [token]

/-! ### Closed nodes -/

/-- A closed node is open only as an element whose end tag lingers in it. -/
private theorem lingers_of_closed (linked : b.Linked)
    (fresh : ∀ id ∈ b.doc.path b.current, (b.doc.node id).closed = false) (tokens : List Token) :
    (b.applyAll tokens).Linked ∧
      ∀ id ∈ (b.applyAll tokens).doc.path (b.applyAll tokens).current,
        ((b.applyAll tokens).doc.node id).closed = true →
        (b.applyAll tokens).doc.frame id = .element ∧ b.Lingers .endTag tokens id := by
  induction tokens using List.reverseRecOn with
  | nil =>
    refine ⟨linked, fun id mem closed ↦ ?_⟩
    exact absurd closed (Bool.eq_false_iff.1 (fresh id mem))
  | append_singleton tokens token ih =>
    obtain ⟨linked, before⟩ := ih
    have takes := takes_apply linked token
    rw [applyAll_concat]
    refine ⟨linked.apply token, fun id mem closed ↦ ?_⟩
    rcases takes.closed_cases linked mem closed with ⟨isOpen, wasClosed⟩ | ⟨kind, current, frame⟩
    · have lt := linked.lt_of_mem_path isOpen
      obtain ⟨frame, lingers⟩ := before id isOpen wasClosed
      refine ⟨(takes.frame_eq linked lt).trans frame, (lingers.apply token).resolve_left ?_⟩
      -- The end of an end tag leaves the element, which is then not open any more.
      rintro ⟨ends, isCurrent⟩
      have closes : token.kind.Closes := by
        have kind : token.kind = .endTagClose := by
          revert ends
          cases token.kind <;> simp [Unfinished.ends]
        rw [kind]
        exact .endTag
      have notRoot : (b.applyAll tokens).current ≠ Document.root :=
        linked.doc.ne_root_of_frame (by rw [← isCurrent, frame]; decide)
      have path := (closesTag_apply linked closes).path_eq notRoot
      exact not_mem_path_of_left linked path (isCurrent ▸ mem)
    · refine ⟨frame, .inl ⟨?_, ?_⟩⟩
      · rw [applyAll_concat]
        exact current
      · rw [Unfinished.isAwaited_concat, kind]
        rfl

/-- A node that is closed keeps its children, if its end tag is not broken off. -/
private theorem children_applyAll_of_closed (linked : b.Linked)
    (fresh : ∀ id ∈ b.doc.path b.current, (b.doc.node id).closed = false)
    (closed : ((b.applyAll passed).doc.node id).closed = true)
    (whole : b.breaksOff .endTag (passed ++ ahead) id = false) :
    ((b.applyAll (passed ++ ahead)).doc.node id).closed = true ∧
      (b.applyAll (passed ++ ahead)).doc.children id = (b.applyAll passed).doc.children id := by
  induction ahead using List.reverseRecOn with
  | nil =>
    rw [List.append_nil]
    exact ⟨closed, rfl⟩
  | append_singleton ahead token ih =>
    rw [← List.append_assoc] at whole ⊢
    have wholeBefore : b.breaksOff .endTag (passed ++ ahead) id = false := by
      rw [Bool.eq_false_iff] at whole ⊢
      exact fun broken ↦ whole (breaksOff_append broken [token])
    obtain ⟨stillClosed, children⟩ := ih wholeBefore
    obtain ⟨linked, lingers⟩ := lingers_of_closed linked fresh (passed ++ ahead)
    have takes := takes_apply linked token
    have lt : id < (b.applyAll (passed ++ ahead)).doc.count := by
      by_contra ge
      rw [Document.node_of_count_le (Nat.le_of_not_lt ge)] at stillClosed
      cases stillClosed
    rw [applyAll_concat]
    refine ⟨takes.closed_mono linked lt stillClosed, (takes.children_eq linked ?_).trans children⟩
    by_contra grows
    rw [not_or, not_not] at grows
    have broken := (lingers id grows.1 stillClosed).2.breaksOff_of_opens grows.2
    rw [whole] at broken
    cases broken

theorem closed_start (text uri : Text) (mode : Mode) (id : Nat) :
    ((start text uri mode).doc.node id).closed = false := by
  rcases Nat.lt_or_ge id (start text uri mode).doc.count with lt | ge
  · cases mode with
    | xml =>
      obtain rfl : id = 0 := Nat.lt_one_iff.1 lt
      rfl
    | dtd =>
      have lt : id < 2 := lt
      obtain rfl | rfl : id = 0 ∨ id = 1 := by omega
      · rfl
      · rfl
  · rw [Document.node_of_count_le ge]
    rfl

end Builder

/-- A node that is closed behind some tokens of a text has then all the children that it has in the
document, unless its end tag is broken off. -/
theorem children_parse_of_closed (text uri : Text) (mode : Mode) {passed ahead : List Token}
    {id : Nat} (split : Scanner.tokenize text mode = passed ++ ahead)
    (closed : (((Builder.start text uri mode).applyAll passed).doc.node id).closed = true)
    (whole : (Builder.start text uri mode).breaksOff .endTag (Scanner.tokenize text mode) id =
      false) :
    (Document.parse text uri mode).children id =
      ((Builder.start text uri mode).applyAll passed).doc.children id := by
  rw [split] at whole
  have kept := Builder.children_applyAll_of_closed (Builder.start_linked text uri mode)
    (fun id _ ↦ Builder.closed_start text uri mode id) closed whole
  rw [Document.parse, (Builder.retouched_finish _).children_eq, split]
  exact kept.2

/-- An element whose end tag is not broken off, behind the name of that tag. -/
theorem children_parse_of_closed_beforeBracket :
    let text : Text := ['<', 'a', '>', '<', '/', 'a', ' ', '>', '<', 'b', '/', '>']
    let behindName := (Builder.start text [] .xml).applyAll ((Scanner.tokenize text .xml).take 5)
    (behindName.doc.node 1).closed = true ∧
      (Builder.start text [] .xml).breaksOff .endTag (Scanner.tokenize text .xml) 1 = false ∧
      (Document.parse text [] .xml).children 1 = behindName.doc.children 1 := by
  intro text behindName
  have closed : (((Builder.start text [] .xml).applyAll
      ((Scanner.tokenize text .xml).take 5)).doc.node 1).closed = true := by decide +kernel
  have whole : (Builder.start text [] .xml).breaksOff .endTag (Scanner.tokenize text .xml) 1 =
      false := by decide +kernel
  exact ⟨closed, whole, children_parse_of_closed text [] .xml
    (List.take_append_drop 5 _).symm closed whole⟩

/-- An end tag that is broken off leaves the builder in the element that it closed. -/
theorem children_parse_brokenOff :
    let text : Text := ['<', 'a', '>', '<', '/', 'a', '<', 'b', '/', '>']
    (((Builder.start text [] .xml).applyAll
        ((Scanner.tokenize text .xml).take 5)).doc.node 1).closed = true ∧
      ((Builder.start text [] .xml).applyAll
        ((Scanner.tokenize text .xml).take 5)).doc.children 1 = [] ∧
      (Document.parse text [] .xml).children 1 = [2] := by
  intro text
  refine ⟨?_, ?_, ?_⟩
  · decide +kernel
  · decide +kernel
  · decide +kernel

end TolerantXml
