import TolerantXml.Proofs.Reading.InStep
import TolerantXml.Proofs.Scanner.TagNames
import TolerantXml.Proofs.Tree.Nested

/-!
# The spans of a document nest

Every token keeps the spans of the nodes nested up to the place behind it (`Builder.Nested.apply`).
The name of an end tag ends nodes where the tag was opened, which is before other text that was
read, so the relation is kept for that place too (`Reading.Nested`). At the end of the text all
spans of the document nest (`wellNested_parse`).
-/

namespace TolerantXml

namespace Builder

variable {text taken : Text} {mode : Mode} {b : Builder} {pos pos' : Nat} {kind : TokenKind}
  {config next : Scanner.Config}

/-- Around element content there is no declaration. -/
private theorem isDeclaration_of_inContent (h : InContent b.spine) :
    (b.doc.frame b.current).isDeclaration = false := by
  obtain ⟨frame, outer, spine⟩ := List.exists_cons_of_ne_nil b.spine_ne_nil
  have holds := h frame (by simp [spine])
  rw [Document.frame, ← currentNode, head_spine spine]
  revert holds
  cases frame <;> simp [Frame.holdsContent, Frame.isDeclaration]

namespace Nested

private theorem openToEnd (nested : b.Nested text mode pos) (linked : b.Linked) (kind : NodeKind)
    (holds : (b.doc.frame b.current).isDeclaration = false) (le : pos + 2 ≤ pos') :
    (b.openToEnd kind pos).Nested text mode pos' :=
  nested.openNode linked rfl holds (Nat.le_refl pos)
    (Nat.lt_of_lt_of_le (Nat.lt_add_of_pos_right Nat.two_pos) le) fun _ ↦ le

private theorem addText (nested : b.Nested text mode pos) (linked : b.Linked)
    (holds : (b.doc.frame b.current).isDeclaration = false) (lt : pos < pos') :
    (b.addText ⟨kind, ⟨pos, pos'⟩, taken⟩).Nested text mode pos' := by
  unfold Builder.addText
  split
  · exact nested.mono (Nat.le_of_lt lt)
  · exact nested.addChild linked rfl holds (Nat.le_refl pos) lt (Nat.le_refl pos')
      fun stands ↦ absurd stands Bool.false_ne_true

private theorem openDeclaration (nested : b.Nested text mode pos) (linked : b.Linked)
    {inner outer : List Frame} (spine : b.spine = inner ++ .doctype :: outer)
    (stands : ∀ frame ∈ inner, frame.standsInSubset = true) (keyword : Text)
    (kind : Parameter → NodeKind) (le : pos + 2 ≤ pos') :
    (b.openDeclaration pos keyword kind).Nested text mode pos' := by
  have returned := nested.returnToDoctype linked spine stands
  rw [Builder.openDeclaration]
  split
  · next isDoctype =>
    refine returned.openToEnd (linked.returnToDoctype pos) _ ?_ le
    rw [NodeKind.isDoctype_eq, decide_eq_true_eq] at isDoctype
    rw [Document.frame, ← currentNode, isDoctype]
    rfl
  · exact returned.mono (by omega)

/-- A token keeps the spans nested, up to the place behind it. -/
theorem apply (nested : b.Nested text mode pos) (linked : b.Linked) (sound : config.Sound)
    (fits : config.Fits b.spine) (mode_eq : config.mode = mode)
    (endTag : config.state = .endTagName →
      ∃ opening ≤ pos, b.endTagOpen = some opening ∧ b.Nested text mode opening)
    (emits : config.Emits kind taken next) (lt : pos < pos') (size : pos' = pos + taken.byteSize) :
    (b.apply ⟨kind, ⟨pos, pos'⟩, taken⟩).Nested text mode pos' := by
  have le := Nat.le_of_lt lt
  cases emits with
  | content h =>
    simp only [Scanner.Config.Fits, h] at fits
    exact nested.addText linked (isDeclaration_of_inContent fits) lt
  | commentOpen h =>
    have left := linked.leaveDeclaration pos
    refine (nested.leaveDeclaration linked).openToEnd left _
      (nested.isDeclaration_leaveDeclaration linked) ?_
    rw [size]
    exact Nat.add_le_add_left (by decide) pos
  | instructionOpen h =>
    have left := linked.leaveDeclaration pos
    refine (nested.leaveDeclaration linked).openToEnd left _
      (nested.isDeclaration_leaveDeclaration linked) ?_
    rw [size]
    exact Nat.add_le_add_left (by decide) pos
  | cdataOpen h =>
    simp only [Scanner.Config.Fits, h] at fits
    exact nested.openNode linked rfl (isDeclaration_of_inContent fits) (Nat.le_refl pos) lt
      fun stands ↦ absurd stands Bool.false_ne_true
  | doctypeOpen h =>
    simp only [Scanner.Config.Fits, h] at fits
    exact nested.openNode linked rfl (isDeclaration_of_inContent fits) (Nat.le_refl pos) lt
      fun stands ↦ absurd stands Bool.false_ne_true
  | startTagOpen h =>
    simp only [Scanner.Config.Fits, h] at fits
    have ended := retouched_setCurrentStop b pos
    refine (nested.retouched linked ended).openNode (ended.linked linked) rfl ?_
      (Nat.le_refl pos) lt fun stands ↦ absurd stands Bool.false_ne_true
    apply isDeclaration_of_inContent
    rw [ended.spine_eq]
    exact fits
  | prologClose h =>
    simp only [Builder.apply]
    exact nested.closeIf linked _ lt
  | emptyTagClose h =>
    have marked := retouched_modifyKind
      (NodeKind.frame_modifyElement fun e ↦ { e with selfClosed := true }) b
    exact (nested.retouched linked marked).closeTag (marked.linked linked) lt
  | endTag h =>
    have xml := sound.mode_eq_xml (by simp [h, Scanner.State.ofDeclarations])
    rw [← mode_eq, xml] at endTag ⊢
    obtain ⟨opening, before, atOpening, nested⟩ := endTag h
    simp only [Scanner.Config.Fits, h] at fits
    exact nested.nameEndTag linked atOpening (Nat.lt_of_le_of_lt before lt)
      (isDeclaration_of_inContent fits)
  | endTagClose h =>
    have marked := retouched_modifyKind
      (NodeKind.frame_modifyElement fun e ↦ { e with endTagClose := some pos }) b
    exact (nested.retouched linked marked).closeTag (marked.linked linked) lt
  | commentClose h => exact nested.closeIf linked _ lt
  | cdataClose h => exact nested.closeIf linked _ lt
  | instructionClose h =>
    simp only [Builder.apply]
    exact nested.closeIf linked _ lt
  | doctypeClose h =>
    obtain ⟨outer, spine, -⟩ := fits.inside_doctype h
    have split : b.spine = [] ++ .doctype :: outer := spine
    have returned := nested.returnToDoctype linked split (List.forall_mem_nil _)
    exact returned.closeIf (linked.returnToDoctype pos) _ lt
  | subsetClose h =>
    obtain ⟨inner, outer, spine, stand, -⟩ := fits.exists_doctype h
    have returned := nested.returnToDoctype linked spine stand
    exact (returned.retouched (linked.returnToDoctype pos)
      (retouched_modifyKind (NodeKind.frame_modifyDoctype _) _)).mono le
  | elementDeclOpen h | attlistOpen h | entityOpen h =>
    obtain ⟨inner, outer, spine, stand, -⟩ := fits.exists_doctype h
    simp only [Builder.apply]
    refine nested.openDeclaration linked spine stand _ _ ?_
    rw [size]
    exact Nat.add_le_add_left (by decide) pos
  | declClose h => exact nested.closeIf linked _ lt
  | doctypePart h fills | elementPart h fills | attlistPart h fills | entityPart h fills =>
    cases fills <;> exact (nested.retouched linked (retouched_apply b rfl)).mono le
  | _ => exact (nested.retouched linked (retouched_apply b rfl)).mono le

/-- Before the first token only the root is there. -/
private theorem empty (text uri : Text) (mode : Mode) :
    (empty text uri mode).Nested text mode 0 := by
  have linked := empty_linked text uri mode
  have path : (Builder.empty text uri mode).doc.path (Builder.empty text uri mode).current =
      [Document.root] := linked.doc.path_root
  have isRoot : ∀ id < (Builder.empty text uri mode).doc.count, id = Document.root :=
    fun id lt ↦ Nat.lt_one_iff.1 lt
  have childless : ∀ id, (Builder.empty text uri mode).doc.children id = [] := by
    intro id
    rw [List.eq_nil_iff_forall_not_mem]
    intro child mem
    obtain ⟨less, lt⟩ := linked.doc.lt_of_mem_children mem
    rw [isRoot child lt] at less
    exact Nat.not_lt_zero id less
  constructor
  · rfl
  · rfl
  · rfl
  · rfl
  · intro id lt notRoot
    exact absurd (isRoot id lt) notRoot
  · intro id lt notOpen
    rw [isRoot id lt] at notOpen
    exact absurd (linked.doc.root_mem_path linked.current_lt) notOpen
  · intro id child mem
    rw [childless] at mem
    cases mem
  · intro id _ child mem
    rw [childless] at mem
    cases mem
  · intro id
    rw [childless]
    exact .nil
  · intro id isOpen stands
    rw [path, List.mem_singleton] at isOpen
    rw [isOpen] at stands
    cases stands
  · exact fun id _ ↦ childless id

theorem start (text uri : Text) (mode : Mode) : (start text uri mode).Nested text mode 0 := by
  cases mode with
  | xml => exact empty text uri .xml
  | dtd =>
    have linked := empty_linked text uri .dtd
    rw [start_dtd]
    have path := path_openNode linked { kind := .doctype {}, start := 0, stop := text.byteSize }
    refine (empty text uri .dtd).of_addChild linked rfl rfl (Nat.le_refl 0) (Nat.le_refl 0)
      (.inr ⟨rfl, rfl, rfl, rfl⟩) ?_ rfl ?_ (.inl ?_)
    · intro stands
      cases stands
    · intro id isOld
      rw [path, List.mem_cons]
      exact ⟨fun mem ↦ mem.resolve_left isOld, .inr⟩
    · rw [path]
      exact List.mem_cons_self

end Nested

end Builder

/-! ### Readings -/

namespace Reading

variable {text uri : Text} {mode : Mode} {r : Reading}

/-- What holds of a reading of a text in which the spans nest so far. -/
structure Nested (text : Text) (mode : Mode) (r : Reading) : Prop where
  inStep : r.InStep
  standsIn : r.scanner.cursor.StandsIn text
  mode_eq : r.scanner.config.mode = mode
  spans : r.builder.Nested text mode r.scanner.cursor.offset
  endTag : r.scanner.config.state = .endTagName → ∃ opening ≤ r.scanner.cursor.offset,
    r.builder.endTagOpen = some opening ∧ r.builder.Nested text mode opening

theorem start_nested (text uri : Text) (mode : Mode) :
    (start text uri mode).Nested text mode where
  inStep := start_inStep text uri mode
  standsIn := Cursor.atStart_standsIn text
  mode_eq := rfl
  spans := Builder.Nested.start text uri mode
  endTag h := by
    cases mode <;> cases h

theorem Nested.rescans (h : r.Nested text mode) {next : Scanner.Config}
    (rescans : r.scanner.config.Rescans next) :
    Nested text mode ⟨⟨next, r.scanner.cursor⟩, r.builder⟩ where
  inStep := h.inStep.rescans rescans
  standsIn := h.standsIn
  mode_eq := rescans.mode_eq.trans h.mode_eq
  spans := h.spans
  endTag atName := absurd atName (rescans.ne_nameState h.inStep.sound .closing)

theorem Nested.emits (h : r.Nested text mode) {token : Token} {next : Scanner.Config}
    (emits : r.Emits token next) :
    Nested text mode ⟨⟨next, r.scanner.cursor.advance token.text⟩, r.builder.apply token⟩ := by
  have linked := h.inStep.linked
  have sound := h.inStep.sound
  have start := emits.start_eq
  have size := emits.byteSize_pos
  have lt : r.scanner.cursor.offset < r.scanner.cursor.offset + token.text.byteSize := by omega
  constructor
  · exact h.inStep.emits emits
  · exact h.standsIn.advance emits.starts
  · exact emits.transition.mode_eq.trans h.mode_eq
  · have spans :=
      h.spans.apply linked sound h.inStep.fits h.mode_eq h.endTag emits.transition lt rfl
    rwa [← emits.span] at spans
  · intro atName
    rcases emits.transition.cases_of_nameState sound .closing atName with
      ⟨kind, -⟩ | ⟨before, kind⟩
    · have kind : token.kind = .endTagOpen := kind
      simp only [Builder.apply, kind]
      refine ⟨r.scanner.cursor.offset, Nat.le_of_lt lt, ?_, ?_⟩
      · rw [← start]
        exact Builder.endTagOpen_openEndTag _ _
      · exact h.spans.retouched linked (Builder.retouched_openEndTag _ _)
    · obtain ⟨opening, le, atOpening, nested⟩ := h.endTag before
      simp only [Builder.apply, kind]
      exact ⟨opening, Nat.le_trans le (Nat.le_of_lt lt), atOpening, nested⟩

theorem after_nested (text uri : Text) (mode : Mode) (n : Nat) :
    ((start text uri mode).after n).Nested text mode :=
  after_invariant (fun _ _ nested rescans ↦ nested.rescans rescans)
    (fun _ _ _ nested ↦ nested.emits) (start_nested text uri mode) n

/-- At the end of the text the builder has a document whose nodes form a tree with nested spans. -/
theorem Nested.finish (h : r.Nested text mode) (atEnd : r.scanner.cursor.rest = []) :
    r.builder.finish.text = text ∧ r.builder.finish.mode = mode ∧ r.builder.finish.Linked ∧
      r.builder.finish.WellNested := by
  have linked := h.inStep.linked
  have retouched := Builder.retouched_finish r.builder
  have offset := h.standsIn.offset_add_rest
  rw [atEnd, Text.byteSize_nil, Nat.add_zero] at offset
  have spans := h.spans
  rw [offset] at spans
  refine ⟨?_, ?_, retouched.linked linked.doc, spans.wellNested_finish linked⟩
  · rw [retouched.text_eq, spans.text_eq]
  · rw [retouched.mode_eq, spans.mode_eq]

/-- The document of a text is that of a reading at the end, in which all spans nest. -/
theorem exists_nested (text uri : Text) (mode : Mode) :
    ∃ r : Reading, r.Nested text mode ∧ r.scanner.cursor.rest = [] ∧
      Document.parse text uri mode = r.builder.finish := by
  obtain ⟨n, atEnd⟩ := (start text uri mode).exists_atEnd
  exact ⟨_, after_nested text uri mode n, atEnd, parse_eq_finish atEnd⟩

end Reading

/-- The nodes of a document form a tree, and their spans nest. -/
theorem wellNested_parse (text uri : Text) (mode : Mode) :
    (Document.parse text uri mode).text = text ∧ (Document.parse text uri mode).mode = mode ∧
      (Document.parse text uri mode).Linked ∧ (Document.parse text uri mode).WellNested := by
  obtain ⟨n, atEnd⟩ := (Reading.start text uri mode).exists_atEnd
  rw [Reading.parse_eq_finish atEnd]
  exact (Reading.after_nested text uri mode n).finish atEnd

end TolerantXml
