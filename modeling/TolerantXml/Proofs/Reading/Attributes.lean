import TolerantXml.Proofs.Reading.Settled
import TolerantXml.Proofs.Scanner.InsideTag
import TolerantXml.Proofs.Tree.Attributes
import TolerantXml.Proofs.Tree.Landmarks
import TolerantXml.Proofs.Tree.Receding

/-!
# The attributes that a tag writes

A node whose tag may have attributes is opened by a token, and its tag goes on behind that token
as long as the tokens may stand in a tag. Its attributes are those that the tokens of its tag write,
the last of each name (`attributes_parse`): while the tag is read, the list of the current node is
what was put there so far, and a value goes to the attribute that was named last
(`Reading.ReadsTag`). Tokens elsewhere neither change the list nor write an attribute.
-/

namespace TolerantXml

/-! ### Nodes with a tag -/

namespace Document

/-- Whether a node has a tag in which there may be attributes: it is an element whose start tag was
seen, an instruction or the prolog. -/
def IsTagged (doc : Document) (id : Nat) : Prop :=
  (doc.landmarks id).startTagOpen.isSome = true ∨ doc.frame id = .instruction

/-- Whether a token opens the tag of a node. -/
inductive TagOpening (doc : Document) (id : Nat) (opening : Token) : Prop where
  | element (kind : opening.kind = .startTagOpen)
      (place : (doc.landmarks id).startTagOpen = some opening.start)
  | instruction (kind : opening.kind = .instructionOpen) (frame : doc.frame id = .instruction)
      (place : (doc.node id).start = opening.start)

/-- Whether a token opens the tag of a node in front of some others. -/
def OpenedIn (doc : Document) (tokens behind : List Token) (id : Nat) : Prop :=
  ∃ before opening, tokens = before ++ opening :: behind ∧ doc.TagOpening id opening

variable {doc doc' : Document} {id : Nat} {opening token : Token} {tokens behind : List Token}

private theorem TagOpening.isTagged (h : doc.TagOpening id opening) : doc.IsTagged id := by
  cases h with
  | element _ place => exact .inl (by rw [place]; rfl)
  | instruction _ frame => exact .inr frame

theorem IsTagged.lt (h : doc.IsTagged id) : id < doc.count := by
  by_contra ge
  rw [IsTagged, landmarks, frame, node_of_count_le (Nat.not_lt.1 ge)] at h
  rcases h with h | h <;> cases h

theorem TagOpening.of_eq (h : doc.TagOpening id opening)
    (startTagOpen : (doc'.landmarks id).startTagOpen = (doc.landmarks id).startTagOpen)
    (frame : doc'.frame id = doc.frame id) (start : (doc'.node id).start = (doc.node id).start) :
    doc'.TagOpening id opening := by
  cases h with
  | element kind place => exact .element kind (startTagOpen.trans place)
  | instruction kind isInstruction place =>
    exact .instruction kind (frame.trans isInstruction) (start.trans place)

theorem OpenedIn.concat (h : doc.OpenedIn tokens behind id) (token : Token) :
    doc.OpenedIn (tokens ++ [token]) (behind ++ [token]) id := by
  obtain ⟨before, opening, rfl, opens⟩ := h
  exact ⟨before, opening, by simp, opens⟩

theorem OpenedIn.mono (h : doc.OpenedIn tokens behind id)
    (keeps : ∀ opening, doc.TagOpening id opening → doc'.TagOpening id opening) :
    doc'.OpenedIn tokens behind id := by
  obtain ⟨before, opening, split, opens⟩ := h
  exact ⟨before, opening, split, keeps opening opens⟩

end Document

/-! ### What a token does to the tags of nodes -/

namespace Builder

variable {b : Builder} {token opening : Token} {id : Nat}

theorem isTagged_apply (linked : b.Linked) (h : b.doc.IsTagged id) (token : Token) :
    (b.apply token).doc.IsTagged id := by
  rcases h with startTagOpen | isInstruction
  · have lt := Document.IsTagged.lt (.inl startTagOpen)
    left
    rwa [((marks_apply linked token).old id lt).startTagOpen_eq]
  · have lt := Document.IsTagged.lt (.inr isInstruction)
    right
    rwa [(takes_apply linked token).frame_eq linked lt]

theorem tagOpening_apply (linked : b.Linked) (h : b.doc.TagOpening id opening) (token : Token) :
    (b.apply token).doc.TagOpening id opening := by
  have lt := h.isTagged.lt
  have takes := takes_apply linked token
  exact h.of_eq ((marks_apply linked token).old id lt).startTagOpen_eq
    (takes.frame_eq linked lt) (takes.place_eq linked lt).2.1

/-- A token that opens a tag adds a node, which is the current one then. -/
theorem tagOpening_of_opensTag (linked : b.Linked) (opens : token.kind.opensTag = true) :
    (b.apply token).current = b.doc.count ∧
      (b.apply token).doc.TagOpening (b.apply token).current token := by
  cases kind : token.kind with
  | startTagOpen =>
    have ended := retouched_setCurrentStop b token.span.start
    have current : (b.apply token).current = b.doc.count := by
      simp only [apply, kind]
      exact ended.doc.count_eq
    refine ⟨current, .element kind ?_⟩
    have new := (marks_apply linked token).new _ (Nat.le_of_eq current.symm)
      (linked.apply token).current_lt
    rw [new, Token.landmarks, kind]
  | instructionOpen =>
    have left := returned_leaveDeclaration linked token.start
    have lt := (left.linked linked).current_lt
    have current : (b.apply token).current = b.doc.count := by
      simp only [apply, kind]
      exact left.doc.count_eq
    refine ⟨current, .instruction kind ?_ ?_⟩
    · rw [current, ← left.doc.count_eq]
      simp only [apply, kind]
      exact (Document.frame_addChild lt _).trans (if_pos rfl)
    · rw [current, ← left.doc.count_eq]
      simp only [apply, kind]
      exact (Document.start_addChild lt _).trans (if_pos rfl)
  | _ =>
    rw [kind] at opens
    cases opens

/-- Only what opens a tag adds a node that has one. -/
theorem isTagged_cases (linked : b.Linked) (h : (b.apply token).doc.IsTagged id) :
    b.doc.IsTagged id ∨ token.kind.opensTag = true ∧ id = (b.apply token).current := by
  have takes := takes_apply linked token
  rcases Nat.lt_or_ge id b.doc.count with lt | ge
  · left
    rcases h with startTagOpen | isInstruction
    · exact .inl (((marks_apply linked token).old id lt).startTagOpen_eq ▸ startTagOpen)
    · exact .inr ((takes.frame_eq linked lt).symm.trans isInstruction)
  · right
    obtain ⟨isCount, opens, -, isCurrent⟩ := takes.new_cases linked ge h.lt
    have opensTag : token.kind.opensTag = true := by
      rcases h with startTagOpen | isInstruction
      · obtain ⟨place, isOpened⟩ := Option.isSome_iff_exists.1 startTagOpen
        rcases (marks_apply linked token).startTagOpen_cases isOpened with ⟨lt, -⟩ | ⟨kind, -⟩
        · exact absurd lt (Nat.not_lt.2 ge)
        · rw [kind]
          rfl
      · rw [isInstruction] at opens
        revert opens
        cases token.kind <;> simp [TokenKind.opens, TokenKind.opensTag]
    exact ⟨opensTag, isCount.trans (tagOpening_of_opensTag linked opensTag).1.symm⟩

theorem current_apply_of_staysInTag (b : Builder) (stays : token.kind.staysInTag = true) :
    (b.apply token).current = b.current := by
  have stays : token.kind.stays = true := by
    revert stays
    cases token.kind <;> decide
  exact (retouched_apply b stays).current_eq

end Builder

/-- A token that is no part of an attribute adds nothing to what a tag writes. -/
theorem occurrences_tagTokens_concat {token : Token} (notName : token.kind ≠ .attributeName)
    (notValue : token.kind ≠ .attributeValue) (behind : List Token) :
    Attribute.occurrences (tagTokens (behind ++ [token])) =
      Attribute.occurrences (tagTokens behind) := by
  by_cases goesOn : ∀ other ∈ behind, other.kind.staysInTag = true
  · rw [tagTokens_concat goesOn, tagTokens_eq_self goesOn]
    split
    · exact Attribute.occurrences_concat notName notValue behind
    · rfl
  · rw [tagTokens_append]
    simpa using goesOn

namespace Reading

variable {text uri : Text} {mode : Mode} {r : Reading} {passed behind : List Token} {token : Token}
  {next : Scanner.Config} {cursor : Cursor} {id : Nat}

/-- What holds of a node with a tag behind some tokens, of which some come behind the opening of the
tag: its attributes are those that they write as far as the tag goes. It goes on if it is the tag
that is being read, and then a value that may come next is for the last name. -/
structure ReadsTag (r : Reading) (passed behind : List Token) (id : Nat) : Prop where
  opened : r.builder.doc.OpenedIn passed behind id
  attributes_eq : r.builder.doc.attributes id =
    Attribute.collect (Attribute.occurrences (tagTokens behind))
  inside : r.scanner.config.state.withinTag = true → id = r.builder.current →
    ∀ token ∈ behind, token.kind.staysInTag = true
  outside : r.scanner.config.state.withinTag = true → id ≠ r.builder.current →
    ∃ token ∈ behind, token.kind.staysInTag = false
  waiting : r.scanner.config.state.awaitsValue = true → id = r.builder.current →
    ∃ (front : List Token) (name : Token) (between : List Token),
      behind = front ++ name :: between ∧ name.kind = .attributeName ∧
      (∀ token ∈ between, token.kind = .whitespace ∨ token.kind = .assign) ∧
      r.builder.pending = some (id,
        Attribute.indexOf (Attribute.collect (Attribute.occurrences front)) name.text)

/-- What holds of the attributes of a reading, behind some tokens. -/
structure AttributesRead (passed : List Token) (r : Reading) : Prop where
  aimed : r.Aimed
  current : r.scanner.config.state.withinTag = true →
    r.builder.doc.IsTagged r.builder.current
  tagged : ∀ id, r.builder.doc.IsTagged id → ∃ behind, r.ReadsTag passed behind id
  tagless : ∀ id, ¬ r.builder.doc.IsTagged id → r.builder.doc.attributes id = []

namespace ReadsTag

theorem rescans (h : r.ReadsTag passed behind id) (sound : r.scanner.config.Sound)
    (rescans : r.scanner.config.Rescans next) :
    ReadsTag ⟨⟨next, r.scanner.cursor⟩, r.builder⟩ passed behind id where
  opened := h.opened
  attributes_eq := h.attributes_eq
  inside within := h.inside (rescans.withinTag sound within)
  outside within := h.outside (rescans.withinTag sound within)
  waiting awaitsValue := by
    rw [rescans.awaitsValue_eq_false sound] at awaitsValue
    cases awaitsValue

/-- In the tag that is being read all tokens count. -/
private theorem attributes_eq_inside (h : r.ReadsTag passed behind id)
    (within : r.scanner.config.state.withinTag = true) (isCurrent : id = r.builder.current) :
    r.builder.doc.attributes id = Attribute.collect (Attribute.occurrences behind) := by
  rw [h.attributes_eq, tagTokens_eq_self (h.inside within isCurrent)]

section Emits

variable (h : r.ReadsTag passed behind id) (aimed : r.Aimed)
  (reads : r.scanner.config.Emits token.kind token.text next)
include h aimed reads

omit aimed in
/-- The attribute that a value is for, in the tag that is being read. -/
private theorem exists_awaiting (isValue : token.kind = .attributeValue)
    (isCurrent : id = r.builder.current) :
    ∃ (front : List Token) (name : Token) (between : List Token) (index : Nat),
      behind = front ++ name :: between ∧ name.kind = .attributeName ∧
      (∀ token ∈ between, token.kind = .whitespace ∨ token.kind = .assign) ∧
      r.builder.pending = some (r.builder.current, index) ∧
      (r.builder.doc.attributes id)[index]? = some (.named name.text name.span) ∧
      (r.builder.doc.attributes id).modify index (·.withValue token.text token.span) =
        Attribute.collect (Attribute.occurrences (behind ++ [token])) := by
  have state : r.scanner.config.state = .attributeValue :=
    reads.state_of_kind isValue rfl
  obtain ⟨front, name, between, rfl, isName, gap, pending⟩ :=
    h.waiting (by rw [state]; rfl) isCurrent
  have noName : ∀ token ∈ between, token.kind ≠ .attributeName := by
    intro token mem isName
    rcases gap token mem with kind | kind <;> rw [kind] at isName <;> cases isName
  have noValue : ∀ token ∈ between, token.kind ≠ .attributeValue := by
    intro token mem isValue
    rcases gap token mem with kind | kind <;> rw [kind] at isValue <;> cases isValue
  obtain ⟨unvalued, valued⟩ := Attribute.written_concat name noValue isValue
  have list : r.builder.doc.attributes id =
      Attribute.put (Attribute.collect (Attribute.occurrences front))
        (.named name.text name.span) := by
    rw [h.attributes_eq_inside (by rw [state]; rfl) isCurrent,
      Attribute.occurrences_append_name isName noName, unvalued, Attribute.collect_concat]
  have entry := Attribute.getElem?_put (Attribute.collect (Attribute.occurrences front))
    (.named name.text name.span)
  refine ⟨front, name, between, _, rfl, isName, gap, isCurrent ▸ pending, list ▸ entry, ?_⟩
  have noName' : ∀ other ∈ between ++ [token], other.kind ≠ .attributeName := by
    intro other mem
    rcases List.mem_append.1 mem with mem | mem
    · exact noName other mem
    · rw [List.mem_singleton.1 mem, isValue]
      decide
  rw [List.append_assoc, List.cons_append, Attribute.occurrences_append_name isName noName', valued,
    Attribute.collect_concat, list]
  apply Attribute.modify_put
  rfl

private theorem attributes_apply :
    (r.builder.apply token).doc.attributes id =
      Attribute.collect (Attribute.occurrences (tagTokens (behind ++ [token]))) := by
  have linked := aimed.inStep.linked
  have awaits := aimed.inStep.fits.awaits aimed.inStep.pending reads
  by_cases isPart : token.kind = .attributeName ∨ token.kind = .attributeValue
  · have within := reads.withinTag_of_attribute isPart
    by_cases isCurrent : id = r.builder.current
    · have stays : ∀ other ∈ behind ++ [token], other.kind.staysInTag = true := by
        intro other mem
        rcases List.mem_append.1 mem with mem | mem
        · exact h.inside within isCurrent other mem
        · rw [List.mem_singleton.1 mem]
          rcases isPart with kind | kind <;> rw [kind] <;> rfl
      rw [tagTokens_eq_self stays]
      rcases isPart with kind | kind
      · rw [kind] at awaits
        simp only [Builder.apply, kind]
        rw [Builder.attributes_nameAttribute awaits linked, if_pos isCurrent,
          h.attributes_eq_inside within isCurrent,
          Attribute.occurrences_append_name kind (List.forall_mem_nil _),
          Attribute.written_nil, Attribute.collect_concat]
      · obtain ⟨_, _, _, index, -, -, -, pending, -, valued⟩ :=
          h.exists_awaiting reads kind isCurrent
        rw [kind] at awaits
        simp only [Builder.apply, kind]
        rw [Builder.attributes_setAttributeValue pending awaits.1 linked, if_pos isCurrent, valued]
    · rw [tagTokens_append (h.outside within isCurrent), ← h.attributes_eq]
      rcases isPart with kind | kind
      · rw [kind] at awaits
        simp only [Builder.apply, kind]
        rw [Builder.attributes_nameAttribute awaits linked, if_neg isCurrent]
      · obtain ⟨index, pending⟩ := aimed.value (by rw [reads.state_of_kind kind rfl]; rfl)
        rw [kind] at awaits
        simp only [Builder.apply, kind]
        rw [Builder.attributes_setAttributeValue pending awaits.1 linked, if_neg isCurrent]
  · rw [not_or] at isPart
    rw [occurrences_tagTokens_concat isPart.1 isPart.2, ← h.attributes_eq,
      Builder.attributes_apply linked isPart.1 isPart.2]

/-- A token keeps what holds of a node that was there before. -/
theorem emits (isTagged : r.builder.doc.IsTagged id) :
    ReadsTag ⟨⟨next, cursor⟩, r.builder.apply token⟩ (passed ++ [token]) (behind ++ [token])
      id where
  opened := (h.opened.mono fun _ opening ↦
    Builder.tagOpening_apply aimed.inStep.linked opening token).concat token
  attributes_eq := h.attributes_apply aimed reads
  inside within isCurrent other mem := by
    cases before : r.scanner.config.state.withinTag with
    | true =>
      have stays := (reads.withinTag_eq aimed.inStep.sound before).symm.trans within
      rw [r.builder.current_apply_of_staysInTag stays] at isCurrent
      rcases List.mem_append.1 mem with mem | mem
      · exact h.inside before isCurrent other mem
      · rwa [List.mem_singleton.1 mem]
    | false =>
      have opens := reads.opensTag_of_withinTag aimed.inStep.sound before within
      have isNew := (Builder.tagOpening_of_opensTag aimed.inStep.linked opens).1
      exact absurd isTagged.lt (Nat.not_lt.2 (Nat.le_of_eq (isNew.symm.trans isCurrent.symm)))
  outside within notCurrent := by
    cases before : r.scanner.config.state.withinTag with
    | true =>
      have stays := (reads.withinTag_eq aimed.inStep.sound before).symm.trans within
      rw [r.builder.current_apply_of_staysInTag stays] at notCurrent
      obtain ⟨last, mem, ended⟩ := h.outside before notCurrent
      exact ⟨last, List.mem_append_left _ mem, ended⟩
    | false =>
      have opens := reads.opensTag_of_withinTag aimed.inStep.sound before within
      refine ⟨token, List.mem_append_right _ (List.mem_singleton_self token), ?_⟩
      revert opens
      cases token.kind <;> simp [TokenKind.opensTag, TokenKind.staysInTag]
  waiting awaitsValue isCurrent := by
    rcases reads.cases_of_awaitsValue aimed.inStep.sound awaitsValue with kind | ⟨before, kind⟩
    · have awaits := aimed.inStep.fits.awaits aimed.inStep.pending reads
      have within := reads.withinTag_of_attribute (.inl kind)
      rw [r.builder.current_apply_of_staysInTag (by rw [kind]; rfl)] at isCurrent
      refine ⟨behind, token, [], rfl, kind, List.forall_mem_nil _, ?_⟩
      rw [kind] at awaits
      simp only [Builder.apply, kind]
      rw [Builder.pending_nameAttribute awaits, ← isCurrent,
        h.attributes_eq_inside within isCurrent]
    · have same : r.builder.apply token = r.builder := by
        rcases kind with kind | kind <;> simp only [Builder.apply, kind]
      rw [same] at isCurrent
      obtain ⟨front, name, between, rfl, isName, gap, pending⟩ := h.waiting before isCurrent
      refine ⟨front, name, between ++ [token], by simp, isName, fun other mem ↦ ?_, ?_⟩
      · rcases List.mem_append.1 mem with mem | mem
        · exact gap other mem
        · rwa [List.mem_singleton.1 mem]
      · exact (congrArg Builder.pending same).trans pending

end Emits

end ReadsTag

namespace AttributesRead

theorem rescans (h : AttributesRead passed r) (rescans : r.scanner.config.Rescans next) :
    AttributesRead passed ⟨⟨next, r.scanner.cursor⟩, r.builder⟩ where
  aimed := h.aimed.rescans rescans
  current within := h.current (rescans.withinTag h.aimed.inStep.sound within)
  tagged id isTagged := by
    obtain ⟨behind, reads⟩ := h.tagged id isTagged
    exact ⟨behind, reads.rescans h.aimed.inStep.sound rescans⟩
  tagless := h.tagless

theorem emits (h : AttributesRead passed r) (emits : r.Emits token next) :
    AttributesRead (passed ++ [token])
      ⟨⟨next, r.scanner.cursor.advance token.text⟩, r.builder.apply token⟩ := by
  have linked := h.aimed.inStep.linked
  have sound := h.aimed.inStep.sound
  have transition := emits.transition
  constructor
  case aimed => exact h.aimed.emits emits
  case current =>
    intro within
    cases before : r.scanner.config.state.withinTag with
    | true =>
      have stays := (transition.withinTag_eq sound before).symm.trans within
      rw [r.builder.current_apply_of_staysInTag stays]
      exact Builder.isTagged_apply linked (h.current before) token
    | false =>
      have opens := transition.opensTag_of_withinTag sound before within
      exact (Builder.tagOpening_of_opensTag linked opens).2.isTagged
  case tagged =>
    intro id isTagged
    rcases Builder.isTagged_cases linked isTagged with old | ⟨opens, rfl⟩
    · obtain ⟨behind, reads⟩ := h.tagged id old
      exact ⟨behind ++ [token], reads.emits h.aimed transition old⟩
    · obtain ⟨isNew, opening⟩ := Builder.tagOpening_of_opensTag linked opens
      have notPart : token.kind ≠ .attributeName ∧ token.kind ≠ .attributeValue ∧
          token.kind ≠ .whitespace ∧ token.kind ≠ .assign := by
        revert opens
        cases token.kind <;> simp [TokenKind.opensTag]
      refine ⟨[], ⟨passed, token, rfl, opening⟩, ?_, fun _ _ ↦ List.forall_mem_nil _,
        fun _ notCurrent ↦ absurd rfl notCurrent, fun awaitsValue ↦ ?_⟩
      · rw [Builder.attributes_apply linked notPart.1 notPart.2.1, isNew, Document.attributes,
          Document.node_of_count_le (Nat.le_refl _)]
        rfl
      · rcases transition.cases_of_awaitsValue sound awaitsValue with kind | ⟨-, kind | kind⟩
        · exact absurd kind notPart.1
        · exact absurd kind notPart.2.2.1
        · exact absurd kind notPart.2.2.2
  case tagless =>
    intro id notTagged
    have wasTagless : ¬ r.builder.doc.IsTagged id :=
      fun was ↦ notTagged (Builder.isTagged_apply linked was token)
    have none := h.tagless id wasTagless
    have awaits := h.aimed.inStep.fits.awaits h.aimed.inStep.pending transition
    have notCurrent : r.scanner.config.state.withinTag = true → id ≠ r.builder.current := by
      rintro within rfl
      exact wasTagless (h.current within)
    cases kind : token.kind with
    | attributeName =>
      rw [kind] at awaits
      simp only [Builder.apply, kind]
      rw [Builder.attributes_nameAttribute awaits linked,
        if_neg (notCurrent (transition.withinTag_of_attribute (.inl kind))), none]
    | attributeValue =>
      obtain ⟨index, pending⟩ := h.aimed.value (by rw [transition.state_of_kind kind rfl]; rfl)
      rw [kind] at awaits
      simp only [Builder.apply, kind]
      rw [Builder.attributes_setAttributeValue pending awaits.1 linked,
        if_neg (notCurrent (transition.withinTag_of_attribute (.inr kind))), none]
    | _ => rw [Builder.attributes_apply linked (by simp [kind]) (by simp [kind]), none]

end AttributesRead

theorem attributes_start (text uri : Text) (mode : Mode) (id : Nat) :
    (start text uri mode).builder.doc.attributes id = [] := by
  rw [start, Document.attributes]
  rcases Builder.kind_start text uri mode id with kind | ⟨-, -, kind⟩ <;> rw [kind] <;> rfl

theorem start_attributesRead (text uri : Text) (mode : Mode) :
    AttributesRead [] (start text uri mode) := by
  have tagless : ∀ id, ¬ (start text uri mode).builder.doc.IsTagged id := by
    intro id isTagged
    rw [Document.IsTagged, start, Builder.landmarks_start, Document.frame] at isTagged
    rcases isTagged with startTagOpen | isInstruction
    · cases startTagOpen
    · rcases Builder.kind_start text uri mode id with kind | ⟨-, -, kind⟩ <;>
        rw [kind] at isInstruction <;> cases isInstruction
  constructor
  · exact start_aimed text uri mode
  · intro within
    cases mode <;> cases within
  · exact fun id isTagged ↦ absurd isTagged (tagless id)
  · exact fun id _ ↦ attributes_start text uri mode id

end Reading

/-- Behind the last token, which is the end of the text, the attributes of nodes are those that
their tags write. -/
theorem exists_tag_parse (text uri : Text) (mode : Mode) (id : Nat) :
    ((Document.parse text uri mode).IsTagged id → ∃ behind,
      (Document.parse text uri mode).OpenedIn (Scanner.tokenize text mode) behind id ∧
        (Document.parse text uri mode).attributes id =
          Attribute.lastOfEach (Attribute.occurrences (tagTokens behind))) ∧
      (¬ (Document.parse text uri mode).IsTagged id →
        (Document.parse text uri mode).attributes id = []) := by
  obtain ⟨n, passed, last, atEnd, tokens, read⟩ :=
    Reading.exists_atEnd_of_history (fun _ _ _ h ↦ h.rescans)
      (fun _ _ _ _ h ↦ h.emits) (Reading.start_attributesRead text uri mode)
  rw [List.nil_append] at read
  have tokenize : Scanner.tokenize text mode = passed ++ [last] := tokens
  have isEnd : last.kind = .eos := Scanner.kind_of_tokenize_eq_concat tokenize
  let b := ((Reading.start text uri mode).after n).builder
  have retouched := Builder.retouched_finish b
  have kinds := fun id ↦ (Builder.kind_finish b id).1
  have landmarks : ∀ id, b.finish.landmarks id = b.doc.landmarks id :=
    fun id ↦ congrArg NodeKind.landmarks (kinds id)
  have attributes : ∀ id, b.finish.attributes id = b.doc.attributes id :=
    fun id ↦ congrArg NodeKind.attributes (kinds id)
  have isTagged : b.finish.IsTagged id ↔ b.doc.IsTagged id := by
    rw [Document.IsTagged, Document.IsTagged, landmarks, retouched.frame_eq]
  rw [Reading.parse_eq_finish atEnd, tokenize, isTagged, attributes]
  refine ⟨fun tagged ↦ ?_, read.tagless id⟩
  obtain ⟨behind, reads⟩ := read.tagged id tagged
  refine ⟨behind ++ [last], (reads.opened.concat last).mono fun opening opens ↦ ?_, ?_⟩
  · exact opens.of_eq (congrArg _ (landmarks id)) (retouched.frame_eq id) (retouched.start_eq id)
  · rw [reads.attributes_eq, Attribute.collect_eq,
      occurrences_tagTokens_concat (by rw [isEnd]; decide) (by rw [isEnd]; decide)]

/-- The attributes of an element with a start tag, of an instruction or of the prolog are the last
of each name that the tokens of its tag write, in the order in which the names come first, and no
other node has any. All names and values of attributes are read in the tag of the current node, and
a value is stored there, in the attribute that the last name behind its opening put without a value,
and nowhere else. -/
theorem attributes_parse (text uri : Text) (mode : Mode) :
    let doc := Document.parse text uri mode
    let tokens := Scanner.tokenize text mode
    (∀ id, doc.IsTagged id → ∃ behind, doc.OpenedIn tokens behind id ∧
      doc.attributes id = Attribute.lastOfEach (Attribute.occurrences (tagTokens behind))) ∧
    (∀ id, ¬ doc.IsTagged id → doc.attributes id = []) ∧
    ∀ before part ahead, tokens = before ++ part :: ahead →
      part.kind = .attributeName ∨ part.kind = .attributeValue →
      let b := (Builder.start text uri mode).applyAll before
      ∃ tag, b.doc.OpenedIn before tag b.current ∧
        (∀ token ∈ tag, token.kind.staysInTag = true) ∧
        (part.kind = .attributeValue →
          ∃ (front : List Token) (name : Token) (between : List Token) (index : Nat),
            tag = front ++ name :: between ∧ name.kind = .attributeName ∧
            (∀ token ∈ between, token.kind = .whitespace ∨ token.kind = .assign) ∧
            (b.doc.attributes b.current)[index]? = some (.named name.text name.span) ∧
            ∀ id, (b.apply part).doc.attributes id =
              if id = b.current then
                (b.doc.attributes id).modify index (·.withValue part.text part.span)
              else b.doc.attributes id) := by
  intro doc tokens
  refine ⟨fun id ↦ (exists_tag_parse text uri mode id).1,
    fun id ↦ (exists_tag_parse text uri mode id).2, ?_⟩
  intro before part ahead split isPart b
  have split : (Reading.start text uri mode).scanner.tokens = before ++ part :: ahead := split
  have notEnd : part.kind ≠ .eos := by
    rcases isPart with kind | kind <;> rw [kind] <;> decide
  obtain ⟨config, next, cursor, read, emits⟩ := Reading.exists_emits_of_history
    (fun passed r _ (h : Reading.AttributesRead passed r) ↦ h.rescans)
    (fun _ _ _ _ h ↦ h.emits)
    (Reading.start_attributesRead text uri mode) split notEnd
  rw [List.nil_append] at read
  have within := emits.withinTag_of_attribute isPart
  obtain ⟨tag, reads⟩ := read.tagged b.current (read.current within)
  refine ⟨tag, reads.opened, reads.inside within rfl, fun isValue ↦ ?_⟩
  obtain ⟨front, name, between, index, rfl, isName, gap, pending, entry, -⟩ :=
    reads.exists_awaiting emits isValue rfl
  have awaits := read.aimed.inStep.fits.awaits read.aimed.inStep.pending emits
  rw [isValue] at awaits
  refine ⟨front, name, between, index, rfl, isName, gap, entry, fun id ↦ ?_⟩
  simp only [Builder.apply, isValue]
  exact Builder.attributes_setAttributeValue pending awaits.1 read.aimed.inStep.linked part id

/-- A second value for a name takes the place of the first, and a name without a value has none. -/
example :
    ((Document.parse ['<', 'a', ' ', 'b', '=', '"', '1', '"', ' ', 'c', ' ', 'b', '=', '2', '>'] []
      .xml).attributes 1).map (fun attr ↦ (attr.name, attr.value)) =
        [(['b'], some ['2']), (['c'], none)] := by decide +kernel

end TolerantXml
