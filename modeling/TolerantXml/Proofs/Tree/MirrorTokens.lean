import TolerantXml.Proofs.Tree.Mirror

/-!
# Tokens that are taken alike

A builder that mirrors another one takes each token as the other one does, further on in its text
(`Mirrors.apply`), if what it knows besides its nodes is alike too where the token asks for it
(`TakesAlike`): the attribute that waits for a value, the end tag that was opened, the line of a
comment, and the keyword of a declaration.
-/

namespace TolerantXml

/-- Whether an offset is not before another one and stands in the same line. -/
def Text.sameLine (text : Text) (stop offset : Nat) : Bool :=
  match text.positionAt stop, text.positionAt offset with
  | .ok endsAt, .ok startsAt => stop ≤ offset && endsAt.line == startsAt.line
  | _, _ => false

/-- The keyword in the opening of a declaration. -/
def TokenKind.keyword? : TokenKind → Option Text
  | .elementDeclOpen => some Keyword.element
  | .attlistOpen => some Keyword.attlist
  | .entityOpen => some Keyword.entity
  | _ => none

namespace Builder

theorem followsOnSameLine_eq (b : Builder) (offset : Nat) :
    b.followsOnSameLine offset =
      match b.lastClosed with
      | none => false
      | some closed => b.doc.text.sameLine (b.doc.node closed).stop offset := rfl

/-- What two builders have in common, besides their nodes, that a token asks for. -/
structure TakesAlike (m : Inset) (id : Nat) (rest : List Nat) (outer inner : Builder)
    (token : Token) : Prop where
  endTag : token.kind = .endTag → m.first ≤ 1 ∧
    outer.endTagOpen = inner.endTagOpen.map (· + m.distance) ∧
    ∃ place ∈ (outer.nameEndTag (token.moved m.distance)).doc.path
      (outer.nameEndTag (token.moved m.distance)).current, m.shift < place
  value : token.kind = .attributeValue → ∃ index,
    outer.pending = some (outer.current, index) ∧ inner.pending = some (inner.current, index)
  line : token.kind = .commentOpen → m.lines = true → ∀ stop,
    outer.doc.text.sameLine (stop + m.distance) (token.start + m.distance) =
      inner.doc.text.sameLine stop token.start
  around : token.kind = .commentOpen ∨ token.kind = .instructionOpen →
    inner.currentNode.kind.frame.isDeclaration = true → rest ≠ []
  inDoctype : token.kind = .subsetClose ∨ token.kind = .doctypeClose ∨
      token.kind.keyword?.isSome = true →
    ∃ doctype ∈ id :: rest, inner.doc.frame doctype = .doctype
  keyword : ∀ keyword : Text, token.kind.keyword? = some keyword →
    Parameter.keywordAt outer.doc.text (token.start + m.distance) keyword =
      (Parameter.keywordAt inner.doc.text token.start keyword).moved m.distance

namespace Mirrors

variable {m : Inset} {above ids rest : List Nat} {id : Nat} {outer inner : Builder}

/-! ### Elements -/

private theorem modifyElement (h : Mirrors m above (id :: rest) outer inner)
    {changed change : Element → Element}
    (follows : ∀ e : Element, changed (e.moved m.distance) = (change e).moved m.distance) :
    Mirrors m above (id :: rest) (outer.modifyKind (.modifyElement changed))
      (inner.modifyKind (.modifyElement change)) :=
  h.modifyKind (NodeKind.follows_modifyElement follows) (NodeKind.frame_modifyElement _)
    (NodeKind.frame_modifyElement _)

private theorem nameElement (h : Mirrors m above (id :: rest) outer inner) (token : Token) :
    Mirrors m above (id :: rest) (outer.nameElement (token.moved m.distance))
      (inner.nameElement token) := by
  rw [Builder.nameElement, Builder.nameElement, NodeKind.isElement_eq, NodeKind.isElement_eq,
    h.currentNode.frame]
  split
  · refine Mirrors.setCurrentStop ?_ _ _
    exact h.modifyElement fun _ ↦ rfl
  · exact h

private theorem endStartTag (h : Mirrors m above (id :: rest) outer inner) (span : Span) :
    Mirrors m above (id :: rest) (outer.endStartTag (span.moved m.distance))
      (inner.endStartTag span) := by
  have tag : NodeKind.Follows m.distance m.lines
      (.modifyElement fun e ↦ { e with startTagClose := some (span.moved m.distance).start })
      (.modifyElement fun e ↦ { e with startTagClose := some span.start }) :=
    NodeKind.follows_modifyElement fun _ ↦ rfl
  have prolog : NodeKind.Follows m.distance m.lines
      (.modifyInstruction fun i ↦ { i with closedAsTag := true })
      (.modifyInstruction fun i ↦ { i with closedAsTag := true }) :=
    NodeKind.follows_modifyInstruction fun _ ↦ rfl
  refine Mirrors.setCurrentStop (h.modifyKind (prolog.comp tag) ?_ ?_) _ _
  all_goals
    intro kind
    rw [Function.comp_apply, NodeKind.frame_modifyInstruction, NodeKind.frame_modifyElement]

private theorem openElement (h : Mirrors m above (id :: rest) outer inner) (span : Span) :
    ∃ ids, Mirrors m above ids (outer.openElement (span.moved m.distance))
      (inner.openElement span) := by
  refine ⟨_, (h.setCurrentStop _ _).openNode ?_ _ _ _⟩
  rfl

private theorem endEmptyTag (h : Mirrors m above (id :: rest) outer inner) (span : Span) :
    Mirrors m above rest (outer.endEmptyTag (span.moved m.distance)) (inner.endEmptyTag span) := by
  refine Mirrors.closeTag (h.modifyElement ?_) span.stop
  exact fun _ ↦ rfl

private theorem endEndTag (h : Mirrors m above (id :: rest) outer inner) (span : Span) :
    Mirrors m above rest (outer.endEndTag (span.moved m.distance)) (inner.endEndTag span) := by
  refine Mirrors.closeTag (h.modifyElement ?_) span.stop
  exact fun _ ↦ rfl

private theorem openEndTag (h : Mirrors m above (id :: rest) outer inner) (span : Span) :
    Mirrors m above (id :: rest) (outer.openEndTag (span.moved m.distance))
      (inner.openEndTag span) := by
  refine Mirrors.setCurrentStop ?_ _ _
  exact h.retouched ⟨.refl _, rfl⟩ ⟨.refl _, rfl⟩ h.doc rfl rfl

/-! ### Attributes -/

private theorem modifyAttributes (h : Mirrors m above (id :: rest) outer inner)
    {changed change : List Attribute → List Attribute}
    (follows : ∀ attributes : List Attribute, changed (attributes.map (·.moved m.distance)) =
      (change attributes).map (·.moved m.distance)) (pending pending' : Option (Nat × Nat)) :
    Mirrors m above (id :: rest)
      { outer.modifyKind (.modifyAttributes changed) with pending := pending' }
      { inner.modifyKind (.modifyAttributes change) with pending := pending } := by
  have changes := h.modifyKind (NodeKind.follows_modifyAttributes follows)
    (NodeKind.frame_modifyAttributes _) (NodeKind.frame_modifyAttributes _)
  exact changes.retouched ⟨.refl _, rfl⟩ ⟨.refl _, rfl⟩ changes.doc rfl rfl

private theorem attributes?_eq (h : Mirrors m above (id :: rest) outer inner) :
    outer.currentNode.kind.attributes? =
      inner.currentNode.kind.attributes?.map (List.map (·.moved m.distance)) := by
  have node := h.currentNode
  rcases Nat.lt_or_ge id m.first with lt | ge
  · have isDoctype := node.isDoctype lt
    have isDoctype' := node.frame.trans isDoctype
    revert isDoctype isDoctype'
    cases outer.currentNode.kind <;> cases inner.currentNode.kind <;>
      simp [NodeKind.frame, NodeKind.attributes?]
  · exact NodeKind.attributes?_of_seen (node.kind ge)

private theorem nameAttribute (h : Mirrors m above (id :: rest) outer inner) (token : Token) :
    Mirrors m above (id :: rest) (outer.nameAttribute (token.moved m.distance))
      (inner.nameAttribute token) := by
  refine Mirrors.setCurrentStop ?_ _ _
  rw [h.attributes?_eq]
  cases inner.currentNode.kind.attributes? with
  | none => exact h
  | some _ =>
    refine h.modifyAttributes (fun attributes ↦ ?_) _ _
    exact Attribute.put_moved m.distance attributes (.named token.text token.span)

/-- The same attribute waits for a value in both documents. -/
theorem pending_nameAttribute (h : Mirrors m above (id :: rest) outer inner) (token : Token)
    (hasAttributes : inner.currentNode.kind.attributes?.isSome = true) : ∃ index,
    (outer.nameAttribute (token.moved m.distance)).pending = some (outer.current, index) ∧
      (inner.nameAttribute token).pending = some (inner.current, index) := by
  have same := h.attributes?_eq
  obtain ⟨attributes, isSome⟩ := Option.isSome_iff_exists.1 hasAttributes
  rw [isSome, Option.map_some] at same
  refine ⟨Attribute.indexOf attributes token.text, ?_, ?_⟩
  · simp only [Builder.nameAttribute, same, pending_setCurrentStop]
    rw [← Attribute.indexOf_moved m.distance attributes token.text]
    rfl
  · simp only [Builder.nameAttribute, isSome, pending_setCurrentStop]

private theorem setAttributeValue (h : Mirrors m above (id :: rest) outer inner) (token : Token)
    (value : ∃ index, outer.pending = some (outer.current, index) ∧
      inner.pending = some (inner.current, index)) :
    Mirrors m above (id :: rest) (outer.setAttributeValue (token.moved m.distance))
      (inner.setAttributeValue token) := by
  obtain ⟨index, pending', pending⟩ := value
  refine Mirrors.setCurrentStop ?_ _ _
  simp only [pending', pending]
  refine h.modifyAttributes (fun attributes ↦ ?_) _ _
  exact Attribute.withValue_moved m.distance attributes index token.text token.span

/-! ### Comments, character data sections and instructions -/

private theorem modifyInstruction (h : Mirrors m above (id :: rest) outer inner)
    {changed change : Instruction → Instruction}
    (follows : ∀ i : Instruction, changed (i.moved m.distance) = (change i).moved m.distance) :
    Mirrors m above (id :: rest) (outer.modifyKind (.modifyInstruction changed))
      (inner.modifyKind (.modifyInstruction change)) :=
  h.modifyKind (NodeKind.follows_modifyInstruction follows) (NodeKind.frame_modifyInstruction _)
    (NodeKind.frame_modifyInstruction _)

private theorem openToEnd (h : Mirrors m above (id :: rest) outer inner) {kind kind' : NodeKind}
    (alike : kind'.seen m.lines = (kind.moved m.distance).seen m.lines) (start : Nat) :
    ∃ ids, Mirrors m above ids (outer.openToEnd kind' (start + m.distance))
      (inner.openToEnd kind start) :=
  ⟨_, h.openNode alike start _ _⟩

private theorem setComment (h : Mirrors m above (id :: rest) outer inner) (span : Span) :
    Mirrors m above (id :: rest) (outer.setComment (span.moved m.distance))
      (inner.setComment span) := by
  refine h.modifyKind ⟨fun kind ↦ ?_, fun kind ↦ ?_⟩ (fun kind ↦ ?_) (fun kind ↦ ?_)
  all_goals cases kind <;> rfl

private theorem setCdata (h : Mirrors m above (id :: rest) outer inner) (span : Span) :
    Mirrors m above (id :: rest) (outer.setCdata (span.moved m.distance))
      (inner.setCdata span) := by
  rw [Builder.setCdata, Builder.setCdata, NodeKind.isCdata_eq, NodeKind.isCdata_eq,
    h.currentNode.frame]
  split
  · refine Mirrors.setCurrentStop ?_ _ _
    refine h.modifyKind ⟨fun kind ↦ ?_, fun kind ↦ ?_⟩ (fun kind ↦ ?_) (fun kind ↦ ?_)
    all_goals cases kind <;> rfl
  · exact h

/-- A declaration is left, and the builders are in a node around. -/
private theorem exists_leaveDeclaration (h : Mirrors m above (id :: rest) outer inner)
    (around : inner.currentNode.kind.frame.isDeclaration = true → rest ≠ []) (offset : Nat) :
    ∃ id' rest', Mirrors m above (id' :: rest') (outer.leaveDeclaration (offset + m.distance))
      (inner.leaveDeclaration offset) := by
  rcases h.leaveDeclaration offset with ⟨-, stays⟩ | ⟨isDecl, left⟩
  · exact ⟨id, rest, stays⟩
  · obtain ⟨id', rest', rfl⟩ := List.exists_cons_of_ne_nil (around isDecl)
    exact ⟨id', rest', left⟩

private theorem openInstruction (h : Mirrors m above (id :: rest) outer inner)
    (around : inner.currentNode.kind.frame.isDeclaration = true → rest ≠ []) (start : Nat) :
    ∃ ids, Mirrors m above ids (outer.openInstruction (start + m.distance))
      (inner.openInstruction start) := by
  obtain ⟨id', rest', left⟩ := h.exists_leaveDeclaration around start
  refine left.openToEnd ?_ start
  rfl

private theorem text_leaveDeclaration (b : Builder) (offset : Nat) :
    (b.leaveDeclaration offset).doc.text = b.doc.text := by
  unfold Builder.leaveDeclaration
  split
  · split
    · exact (retouched_setCurrentStop b _).doc.text_eq
    · rfl
  · rfl

/-- Whether a comment follows on the line of an element is told alike where lines are. -/
private theorem openComment (h : Mirrors m above (id :: rest) outer inner)
    (around : inner.currentNode.kind.frame.isDeclaration = true → rest ≠ []) (start : Nat)
    (line : m.lines = true → ∀ stop, outer.doc.text.sameLine (stop + m.distance)
      (start + m.distance) = inner.doc.text.sameLine stop start) :
    ∃ ids, Mirrors m above ids (outer.openComment (start + m.distance))
      (inner.openComment start) := by
  obtain ⟨id', rest', left⟩ := h.exists_leaveDeclaration around start
  refine left.openToEnd ?_ start
  cases lines : m.lines with
  | false => simp [NodeKind.seen, NodeKind.moved, CharacterData.moved]
  | true =>
    have same : (outer.leaveDeclaration (start + m.distance)).followsOnSameLine
        (start + m.distance) = (inner.leaveDeclaration start).followsOnSameLine start := by
      obtain ⟨closed, places⟩ := left.lastClosed lines
      rw [followsOnSameLine_eq, followsOnSameLine_eq, closed, text_leaveDeclaration,
        text_leaveDeclaration]
      cases isLast : (inner.leaveDeclaration start).lastClosed with
      | none => rfl
      | some place =>
        obtain ⟨pos, lt, notOpen⟩ := places place isLast
        simp only [Option.map_some]
        rw [(left.doc.node place pos lt).stop notOpen, line lines]
    simp [same, NodeKind.seen, NodeKind.moved, CharacterData.moved]

/-! ### Document types and declarations -/

private theorem modifyDoctype (h : Mirrors m above (id :: rest) outer inner)
    {changed change : Doctype → Doctype}
    (follows : ∀ d : Doctype, changed (d.moved m.distance) = (change d).moved m.distance) :
    Mirrors m above (id :: rest) (outer.modifyKind (.modifyDoctype changed))
      (inner.modifyKind (.modifyDoctype change)) :=
  h.modifyKind (NodeKind.follows_modifyDoctype follows) (NodeKind.frame_modifyDoctype _)
    (NodeKind.frame_modifyDoctype _)

private theorem addDoctypeParameter (h : Mirrors m above (id :: rest) outer inner) (token : Token)
    {set : Parameter → Doctype → Doctype}
    (follows : ∀ (p : Parameter) (d : Doctype),
      set (p.moved m.distance) (d.moved m.distance) = (set p d).moved m.distance) :
    Mirrors m above (id :: rest) (outer.addDoctypeParameter (token.moved m.distance) set)
      (inner.addDoctypeParameter token set) := by
  refine h.modifyDoctype fun d ↦ ?_
  rw [← follows]
  simp only [Doctype.moved, List.map_append, List.map_singleton]
  rfl

/-- Both builders return to the innermost document type. -/
private theorem exists_returnToDoctype (h : Mirrors m above (id :: rest) outer inner)
    (inDoctype : ∃ doctype ∈ id :: rest, inner.doc.frame doctype = .doctype) (offset : Nat) :
    ∃ doctype after, inner.doc.frame doctype = .doctype ∧
      Mirrors m above (doctype :: after) (outer.returnToDoctype (offset + m.distance))
        (inner.returnToDoctype offset) := by
  have isFound : ((id :: rest).find? fun other ↦ inner.doc.frame other = .doctype).isSome := by
    obtain ⟨doctype, mem, isDoctype⟩ := inDoctype
    exact List.find?_isSome.2 ⟨doctype, mem, decide_eq_true isDoctype⟩
  obtain ⟨doctype, found⟩ := Option.isSome_iff_exists.1 isFound
  obtain ⟨isDoctype, before, after, split, others⟩ := List.find?_eq_some_iff_append.1 found
  rw [split] at h
  have isDoctype := of_decide_eq_true isDoctype
  refine ⟨doctype, after, isDoctype, h.returnToDoctype isDoctype (fun other mem ↦ ?_) offset⟩
  simpa using others other mem

private theorem closeSubset (h : Mirrors m above (id :: rest) outer inner)
    (inDoctype : ∃ doctype ∈ id :: rest, inner.doc.frame doctype = .doctype) (start : Nat) :
    ∃ ids, Mirrors m above ids (outer.closeSubset (start + m.distance))
      (inner.closeSubset start) := by
  obtain ⟨doctype, after, -, returned⟩ := h.exists_returnToDoctype inDoctype start
  exact ⟨_, returned.modifyDoctype fun _ ↦ rfl⟩

private theorem closeDoctype (h : Mirrors m above (id :: rest) outer inner)
    (inDoctype : ∃ doctype ∈ id :: rest, inner.doc.frame doctype = .doctype) (span : Span) :
    ∃ ids, Mirrors m above ids (outer.closeDoctype (span.moved m.distance))
      (inner.closeDoctype span) := by
  obtain ⟨doctype, after, -, returned⟩ := h.exists_returnToDoctype inDoctype span.start
  refine returned.closeIf (fun kind kind' same ↦ ?_) span.stop
  rw [NodeKind.isDoctype_eq, NodeKind.isDoctype_eq, same]

private theorem openDeclaration (h : Mirrors m above (id :: rest) outer inner)
    (inDoctype : ∃ doctype ∈ id :: rest, inner.doc.frame doctype = .doctype) (start : Nat)
    {keyword : Text} {kind : Parameter → NodeKind}
    (alike : Parameter.keywordAt outer.doc.text (start + m.distance) keyword =
      (Parameter.keywordAt inner.doc.text start keyword).moved m.distance)
    (follows : ∀ p : Parameter, kind (p.moved m.distance) = (kind p).moved m.distance) :
    ∃ ids, Mirrors m above ids (outer.openDeclaration (start + m.distance) keyword kind)
      (inner.openDeclaration start keyword kind) := by
  obtain ⟨doctype, after, isDoctype, returned⟩ := h.exists_returnToDoctype inDoctype start
  have text := (returned_returnToDoctype outer (start + m.distance)).doc.text_eq
  have text' := (returned_returnToDoctype inner start).doc.text_eq
  simp only [Builder.openDeclaration, NodeKind.isDoctype_eq, returned.currentNode.frame, text,
    text', alike, follows]
  split
  · refine returned.openToEnd ?_ start
    rfl
  · exact ⟨_, returned⟩

private theorem addParameter (h : Mirrors m above (id :: rest) outer inner) (token : Token) :
    Mirrors m above (id :: rest) (outer.addParameter (token.moved m.distance))
      (inner.addParameter token) := by
  have parameter : (⟨(token.moved m.distance).span, (token.moved m.distance).text⟩ : Parameter) =
      Parameter.moved m.distance ⟨token.span, token.text⟩ := rfl
  have tokenKind : (token.moved m.distance).kind = token.kind := rfl
  refine h.modifyKind ⟨fun kind ↦ ?_, fun kind ↦ ?_⟩ (fun kind ↦ ?_) (fun kind ↦ ?_)
  · rw [parameter, tokenKind]
    cases kind with
    | elementDecl decl =>
      simp only [NodeKind.moved]
      rw [ElementDecl.setPart_moved]
      simp [ElementDecl.moved]
    | attlistDecl decl =>
      simp only [NodeKind.moved]
      rw [AttlistDecl.setPart_moved]
      simp [AttlistDecl.moved]
    | entityDecl decl =>
      simp only [NodeKind.moved]
      rw [EntityDecl.setPart_moved]
      simp [EntityDecl.moved]
    | doctype d =>
      simp only [NodeKind.moved]
      split
      · simp [Doctype.moved]
      · rfl
    | _ => rfl
  all_goals
    cases kind with
    | doctype =>
      by_cases isUnrecognized : token.kind = .unrecognized
      · simp [isUnrecognized, tokenKind, NodeKind.seen, NodeKind.frame]
      · simp [isUnrecognized, tokenKind, NodeKind.seen, NodeKind.frame]
    | _ => rfl

/-! ### Any token -/

/-- A token that both builders take alike keeps that one mirrors the other. -/
theorem apply (h : Mirrors m above (id :: rest) outer inner) {token : Token}
    (alike : TakesAlike m id rest outer inner token) :
    ∃ ids, Mirrors m above ids (outer.apply (token.moved m.distance)) (inner.apply token) := by
  have tokenKind : (token.moved m.distance).kind = token.kind := rfl
  cases kind : token.kind with
  | startTagOpen =>
    simp only [Builder.apply, tokenKind, kind]
    exact h.openElement token.span
  | startTag =>
    simp only [Builder.apply, tokenKind, kind]
    exact ⟨_, h.nameElement token⟩
  | startTagClose =>
    simp only [Builder.apply, tokenKind, kind]
    exact ⟨_, h.endStartTag token.span⟩
  | emptyTagClose =>
    simp only [Builder.apply, tokenKind, kind]
    exact ⟨_, h.endEmptyTag token.span⟩
  | endTagOpen =>
    simp only [Builder.apply, tokenKind, kind]
    exact ⟨_, h.openEndTag token.span⟩
  | endTag =>
    obtain ⟨first, opened, stays⟩ := alike.endTag kind
    simp only [Builder.apply, tokenKind, kind]
    exact h.nameEndTag first token opened stays
  | endTagClose =>
    simp only [Builder.apply, tokenKind, kind]
    exact ⟨_, h.endEndTag token.span⟩
  | attributeName =>
    simp only [Builder.apply, tokenKind, kind]
    exact ⟨_, h.nameAttribute token⟩
  | attributeValue =>
    simp only [Builder.apply, tokenKind, kind]
    exact ⟨_, h.setAttributeValue token (alike.value kind)⟩
  | content =>
    simp only [Builder.apply, tokenKind, kind]
    exact ⟨_, h.addText token⟩
  | commentOpen =>
    simp only [Builder.apply, tokenKind, kind]
    exact h.openComment (alike.around (.inl kind)) token.start (alike.line kind)
  | comment =>
    simp only [Builder.apply, tokenKind, kind]
    exact ⟨_, h.setComment token.span⟩
  | cdata =>
    simp only [Builder.apply, tokenKind, kind]
    exact ⟨_, h.setCdata token.span⟩
  | commentClose =>
    simp only [Builder.apply, tokenKind, kind]
    refine h.closeIf (fun kind kind' same ↦ ?_) token.stop
    rw [NodeKind.isComment_eq, NodeKind.isComment_eq, same]
  | cdataClose =>
    simp only [Builder.apply, tokenKind, kind]
    refine h.closeIf (fun kind kind' same ↦ ?_) token.stop
    rw [NodeKind.isCdata_eq, NodeKind.isCdata_eq, same]
  | prologClose | instructionClose =>
    simp only [Builder.apply, tokenKind, kind]
    refine h.closeIf (fun kind kind' same ↦ ?_) token.stop
    rw [NodeKind.instruction?_isSome_eq, NodeKind.instruction?_isSome_eq, same]
  | declClose =>
    simp only [Builder.apply, tokenKind, kind]
    refine h.closeIf (fun kind kind' same ↦ ?_) token.stop
    rw [NodeKind.isDeclaration_eq, NodeKind.isDeclaration_eq, same]
  | instructionOpen =>
    simp only [Builder.apply, tokenKind, kind]
    exact h.openInstruction (alike.around (.inr kind)) token.start
  | prologTarget | instructionTarget =>
    simp only [Builder.apply, tokenKind, kind]
    exact ⟨_, h.modifyInstruction fun _ ↦ rfl⟩
  | instructionData =>
    simp only [Builder.apply, tokenKind, kind]
    exact ⟨_, h.modifyInstruction fun _ ↦ rfl⟩
  | cdataOpen | doctypeOpen =>
    simp only [Builder.apply, tokenKind, kind]
    refine h.openToEnd ?_ token.start
    rfl
  | doctypeName | doctypePublic | doctypeSystem | doctypePublicId | doctypeSystemId =>
    simp only [Builder.apply, tokenKind, kind]
    exact ⟨_, h.addDoctypeParameter token fun _ _ ↦ rfl⟩
  | subsetOpen =>
    simp only [Builder.apply, tokenKind, kind]
    exact ⟨_, h.modifyDoctype fun _ ↦ rfl⟩
  | subsetClose =>
    simp only [Builder.apply, tokenKind, kind]
    exact h.closeSubset (alike.inDoctype (.inl kind)) token.start
  | doctypeClose =>
    simp only [Builder.apply, tokenKind, kind]
    exact h.closeDoctype (alike.inDoctype (.inr (.inl kind))) token.span
  | elementDeclOpen =>
    simp only [Builder.apply, tokenKind, kind]
    exact h.openDeclaration (alike.inDoctype (.inr (.inr (by rw [kind]; rfl)))) token.start
      (alike.keyword _ (by rw [kind]; rfl)) fun _ ↦ rfl
  | attlistOpen =>
    simp only [Builder.apply, tokenKind, kind]
    exact h.openDeclaration (alike.inDoctype (.inr (.inr (by rw [kind]; rfl)))) token.start
      (alike.keyword _ (by rw [kind]; rfl)) fun _ ↦ rfl
  | entityOpen =>
    simp only [Builder.apply, tokenKind, kind]
    exact h.openDeclaration (alike.inDoctype (.inr (.inr (by rw [kind]; rfl)))) token.start
      (alike.keyword _ (by rw [kind]; rfl)) fun _ ↦ rfl
  | elementDeclName | elementDeclCategory | elementDeclContent | attlistElement | attlistName
  | attlistType | attlistDefault | entityPercent | entityName | entityValue | entityPublic
  | entitySystem | entityPublicId | entitySystemId | unrecognized =>
    simp only [Builder.apply, tokenKind, kind]
    exact ⟨_, h.addParameter token⟩
  | assign | whitespace | unknown | eos =>
    simp only [Builder.apply, tokenKind, kind]
    exact ⟨_, h⟩

end Mirrors

end Builder

end TolerantXml
