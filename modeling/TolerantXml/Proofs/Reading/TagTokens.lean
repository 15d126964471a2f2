import TolerantXml.Proofs.Reading.Nesting
import TolerantXml.Proofs.Tree.Landmarks

/-!
# The tokens of a tag

The delimiters and the names that an element records are those of tags in the text: of its own start
tag, and of the last end tag that it matches (`tags_parse`).
-/

namespace TolerantXml

namespace Reading

variable {passed : List Token} {r : Reading} {token : Token} {next : Scanner.Config} {id : Nat}

/-- What holds of the tags of a reading, behind some tokens. -/
structure TagsRead (passed : List Token) (r : Reading) : Prop where
  inStep : r.InStep
  beforeName : r.scanner.config.state = .startTagName → ∃ opening,
    TagSide.opening.Awaits passed opening ∧
      r.builder.doc.landmarks r.builder.current = { startTagOpen := some opening.start }
  beforeEndName : r.scanner.config.state = .endTagName → ∃ opening,
    TagSide.closing.Awaits passed opening ∧ r.builder.endTagOpen = some opening.start
  startTags : ∀ id place name, (r.builder.doc.landmarks id).startTagOpen = some place →
    (r.builder.doc.landmarks id).tagName = some name → ∃ opening token,
      TagSide.opening.Names passed opening token ∧ opening.start = place ∧ token.text = name
  endTags : ∀ id place, (r.builder.doc.landmarks id).endTagOpen = some place →
    ∃ name opening token, (r.builder.doc.landmarks id).tagName = some name ∧
      TagSide.closing.Names passed opening token ∧ opening.start = place ∧
      sameTagName name token.text = true

namespace TagsRead

theorem rescans (h : TagsRead passed r) (rescans : r.scanner.config.Rescans next) :
    TagsRead passed ⟨⟨next, r.scanner.cursor⟩, r.builder⟩ where
  inStep := h.inStep.rescans rescans
  beforeName state := absurd state (rescans.ne_nameState h.inStep.sound .opening)
  beforeEndName state := absurd state (rescans.ne_nameState h.inStep.sound .closing)
  startTags := h.startTags
  endTags := h.endTags

section Emits

variable (h : TagsRead passed r) (emits : r.scanner.config.Emits token.kind token.text next)
include h emits

private theorem beforeName_apply (state : next.state = .startTagName) : ∃ opening,
    TagSide.opening.Awaits (passed ++ [token]) opening ∧
      (r.builder.apply token).doc.landmarks (r.builder.apply token).current =
        { startTagOpen := some opening.start } := by
  have linked := h.inStep.linked
  rcases emits.cases_of_nameState h.inStep.sound .opening state with
    ⟨kind, text⟩ | ⟨before, kind⟩
  · refine ⟨token, TagSide.awaits_concat kind text passed, ?_⟩
    have current : (r.builder.apply token).current = r.builder.doc.count := by
      simp only [Builder.apply, kind, TagSide.opens]
      exact (Builder.retouched_setCurrentStop r.builder token.span.start).doc.count_eq
    have marks := Builder.marks_apply linked token
    rw [marks.new _ (Nat.le_of_eq current.symm) (linked.apply token).current_lt, Token.landmarks,
      kind]
    rfl
  · obtain ⟨opening, awaits, landmarks⟩ := h.beforeName before
    refine ⟨opening, awaits.concat kind, ?_⟩
    simp only [Builder.apply, kind]
    exact landmarks

private theorem beforeEndName_apply (state : next.state = .endTagName) : ∃ opening,
    TagSide.closing.Awaits (passed ++ [token]) opening ∧
      (r.builder.apply token).endTagOpen = some opening.start := by
  rw [Builder.endTagOpen_apply]
  rcases emits.cases_of_nameState h.inStep.sound .closing state with
    ⟨kind, text⟩ | ⟨before, kind⟩
  · refine ⟨token, TagSide.awaits_concat kind text passed, ?_⟩
    rw [kind]
    rfl
  · obtain ⟨opening, awaits, endTagOpen⟩ := h.beforeEndName before
    refine ⟨opening, awaits.concat kind, ?_⟩
    rw [kind, if_neg (by decide)]
    exact endTagOpen

private theorem startTags_apply {place : Nat} {name : Text}
    (startTagOpen : ((r.builder.apply token).doc.landmarks id).startTagOpen = some place)
    (tagName : ((r.builder.apply token).doc.landmarks id).tagName = some name) :
    ∃ opening named, TagSide.opening.Names (passed ++ [token]) opening named ∧
      opening.start = place ∧ named.text = name := by
  have marks := Builder.marks_apply h.inStep.linked token
  rcases Nat.lt_or_ge id r.builder.doc.count with lt | ge
  · have takes := marks.old id lt
    rw [takes.startTagOpen_eq] at startTagOpen
    rcases takes.tagName_cases with same | ⟨kind, rfl, isName⟩
    · obtain ⟨opening, named, names, start, eq⟩ :=
        h.startTags id place name startTagOpen (same.symm.trans tagName)
      exact ⟨opening, named, names.append [token], start, eq⟩
    · obtain ⟨opening, awaits, landmarks⟩ := h.beforeName (emits.state_of_kind kind rfl)
      rw [landmarks] at startTagOpen
      exact ⟨opening, token, awaits.names kind, Option.some.inj startTagOpen,
        Option.some.inj (isName.symm.trans tagName)⟩
  · rw [marks.tagName_eq_none ge startTagOpen] at tagName
    cases tagName

private theorem endTags_apply {place : Nat}
    (endTagOpen : ((r.builder.apply token).doc.landmarks id).endTagOpen = some place) :
    ∃ name opening named, ((r.builder.apply token).doc.landmarks id).tagName = some name ∧
      TagSide.closing.Names (passed ++ [token]) opening named ∧ opening.start = place ∧
      sameTagName name named.text = true := by
  have marks := Builder.marks_apply h.inStep.linked token
  have opened : token.kind = .endTag → ∃ opening,
      TagSide.closing.Names (passed ++ [token]) opening token ∧
        r.builder.endTagOpen.getD token.start = opening.start := by
    intro kind
    obtain ⟨opening, awaits, isOpened⟩ := h.beforeEndName (emits.state_of_kind kind rfl)
    exact ⟨opening, awaits.names kind, by rw [isOpened, Option.getD_some]⟩
  rcases Nat.lt_or_ge id r.builder.doc.count with lt | ge
  · have takes := marks.old id lt
    rcases takes.endTagOpen_cases with same | ⟨kind, isMatch, isPlace⟩
    · rw [same] at endTagOpen
      obtain ⟨name, opening, named, tagName, names, start, alike⟩ := h.endTags id place endTagOpen
      refine ⟨name, opening, named, ?_, names.append [token], start, alike⟩
      rcases takes.tagName_cases with same | ⟨kind, rfl, -⟩
      · exact same.trans tagName
      · -- A tag that has no name yet is not matched by an end tag.
        obtain ⟨_, -, landmarks⟩ := h.beforeName (emits.state_of_kind kind rfl)
        rw [landmarks] at endTagOpen
        cases endTagOpen
    · obtain ⟨opening, names, start⟩ := opened kind
      obtain ⟨name, tagName, alike⟩ := Builder.tagName_of_matchesTag isMatch
      refine ⟨name, opening, token, ?_, names, ?_, alike⟩
      · rcases takes.tagName_cases with same | ⟨kind', -⟩
        · exact same.trans tagName
        · rw [kind] at kind'
          cases kind'
      · exact start.symm.trans (Option.some.inj (isPlace.symm.trans endTagOpen))
  · obtain ⟨kind, landmarks⟩ := marks.landmarks_eq_of_endTagOpen ge endTagOpen
    obtain ⟨opening, names, start⟩ := opened kind
    rw [landmarks] at endTagOpen ⊢
    exact ⟨token.text, opening, token, rfl, names, start.symm.trans (Option.some.inj endTagOpen),
      by simp [sameTagName]⟩

end Emits

theorem emits (h : TagsRead passed r) (emits : r.Emits token next) :
    TagsRead (passed ++ [token])
      ⟨⟨next, r.scanner.cursor.advance token.text⟩, r.builder.apply token⟩ where
  inStep := h.inStep.emits emits
  beforeName state := h.beforeName_apply emits.transition state
  beforeEndName state := h.beforeEndName_apply emits.transition state
  startTags _ _ _ startTagOpen tagName := h.startTags_apply emits.transition startTagOpen tagName
  endTags _ _ endTagOpen := h.endTags_apply emits.transition endTagOpen

end TagsRead

theorem start_tagsRead (text uri : Text) (mode : Mode) : TagsRead [] (start text uri mode) := by
  refine ⟨start_inStep text uri mode, fun state ↦ ?_, fun state ↦ ?_,
    fun id place name startTagOpen ↦ ?_, fun id place endTagOpen ↦ ?_⟩
  · cases mode <;> cases state
  · cases mode <;> cases state
  · rw [start, Builder.landmarks_start] at startTagOpen
    cases startTagOpen
  · rw [start, Builder.landmarks_start] at endTagOpen
    cases endTagOpen

end Reading

/-- The start tag that an element of a document records is read in the text, and so is the end tag,
which has the same name but for letter case. -/
theorem tags_parse (text uri : Text) (mode : Mode) {id : Nat} {e : Element}
    (kind : ((Document.parse text uri mode).node id).kind = .element e) :
    (∀ place name, e.startTagOpen = some place → e.tagName = some name → ∃ opening token,
      TagSide.opening.Names (Scanner.tokenize text mode) opening token ∧
        opening.start = place ∧ token.text = name) ∧
      ∀ place, e.endTagOpen = some place → ∃ name opening token, e.tagName = some name ∧
        TagSide.closing.Names (Scanner.tokenize text mode) opening token ∧
        opening.start = place ∧ sameTagName name token.text = true := by
  obtain ⟨n, passed, last, atEnd, tokens, tagsRead⟩ :=
    Reading.exists_atEnd_of_history (fun _ _ _ h ↦ h.rescans)
      (fun _ _ _ _ h ↦ h.emits) (Reading.start_tagsRead text uri mode)
  rw [List.nil_append] at tagsRead
  have tokenize : Scanner.tokenize text mode = passed ++ [last] := tokens
  have landmarks : ((Reading.start text uri mode).after n).builder.doc.landmarks id =
      (NodeKind.element e).landmarks := by
    rw [Document.landmarks, ← kind, Reading.parse_eq_finish atEnd, (Builder.kind_finish _ id).1]
  rw [tokenize]
  constructor
  · intro place name startTagOpen tagName
    obtain ⟨opening, token, names, start, eq⟩ := tagsRead.startTags id place name
      (by rw [landmarks]; exact startTagOpen) (by rw [landmarks]; exact tagName)
    exact ⟨opening, token, names.append [last], start, eq⟩
  · intro place endTagOpen
    obtain ⟨name, opening, token, tagName, names, start, alike⟩ := tagsRead.endTags id place
      (by rw [landmarks]; exact endTagOpen)
    rw [landmarks] at tagName
    exact ⟨name, opening, token, tagName, names.append [last], start, alike⟩

end TolerantXml
