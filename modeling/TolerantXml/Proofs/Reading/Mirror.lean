import TolerantXml.Proofs.Reading.Openings
import TolerantXml.Proofs.Scanner.Inside
import TolerantXml.Proofs.Tree.MirrorTokens

/-!
# Reading a text inside another one

A text that stands in another one is read as it would be on its own: while the scanners read the
same tokens, the outer builder goes on mirroring the inner one (`Reading.Mirrors.next`). What the
builders have to know besides their nodes is in step with the state of the scanner.
-/

namespace TolerantXml

/-- The keyword of a declaration is what the text has behind the opening. -/
private theorem Cursor.StandsIn.keywordAt_eq {cursor : Cursor} {text keyword : Text}
    (stands : cursor.StandsIn text)
    (starts : Delimiter.declOpen ++ keyword <+: cursor.rest) :
    Parameter.keywordAt text cursor.offset keyword =
      ⟨⟨cursor.offset + Delimiter.declOpen.byteSize,
        cursor.offset + Delimiter.declOpen.byteSize + keyword.byteSize⟩, keyword⟩ := by
  obtain ⟨tail, ahead⟩ := starts
  have split : text = cursor.before.reverse ++ (Delimiter.declOpen ++ keyword ++ tail) := by
    rw [ahead]
    exact stands.text_eq.symm
  rw [stands.offset_eq, ← Text.byteSize_reverse]
  exact Parameter.keywordAt_eq split

/-- The opening of a declaration ends with its keyword. -/
private theorem Scanner.Config.Emits.taken_eq_of_keyword {config next : Config} {kind : TokenKind}
    {taken keyword : Text} (emits : config.Emits kind taken next)
    (h : kind.keyword? = some keyword) : taken = Delimiter.declOpen ++ keyword := by
  cases emits with
  | elementDeclOpen | attlistOpen | entityOpen =>
    cases h
    rfl
  | doctypePart _ fills | elementPart _ fills | attlistPart _ fills | entityPart _ fills =>
    cases fills <;> cases h
  | _ => cases h

namespace Reading

variable {m : Inset} {above ids rest : List Nat} {id : Nat} {outer inner : Reading}
  {text text' : Text} {mode mode' : Mode} {token : Token} {config : Scanner.Config}

/-- A reading mirrors another one if its builder does, at the moved place, and if both know the same
about the attribute that waits for a value and the end tag that was opened. -/
structure Mirrors (m : Inset) (above ids : List Nat) (outer inner : Reading) : Prop where
  offset : outer.scanner.cursor.offset = inner.scanner.cursor.offset + m.distance
  builder : Builder.Mirrors m above ids outer.builder inner.builder
  value : inner.scanner.config.state.awaitsValue = true → ∃ index,
    outer.builder.pending = some (outer.builder.current, index) ∧
      inner.builder.pending = some (inner.builder.current, index)
  endTag : inner.scanner.config.state = .endTagName →
    outer.builder.endTagOpen = inner.builder.endTagOpen.map (· + m.distance)

namespace Mirrors

private theorem rescans (h : Mirrors m above ids outer inner) (sound : inner.scanner.config.Sound)
    (rescans : inner.scanner.config.Rescans config) :
    Mirrors m above ids outer ⟨⟨config, inner.scanner.cursor⟩, inner.builder⟩ where
  offset := h.offset
  builder := h.builder
  value awaitsValue := by
    rw [rescans.awaitsValue_eq_false sound] at awaitsValue
    cases awaitsValue
  endTag atName := absurd atName (rescans.ne_nameState sound .closing)

/-- In a subset there is a document type around a declaration. -/
private theorem around (h : Mirrors m above (id :: rest) outer inner) (inStep : inner.InStep)
    (opens : inner.scanner.config.state = .content ∨ inner.scanner.config.state = .subset)
    (isDecl : inner.builder.currentNode.kind.frame.isDeclaration = true) : rest ≠ [] := by
  rintro rfl
  have fits := inStep.fits
  have path := h.builder.inner_path
  have spine : inner.builder.spine = [inner.builder.doc.frame id, .document] := by
    rw [Builder.spine, path, List.cons_append, List.map_cons, List.nil_append, List.map_singleton,
      inStep.linked.doc.root_frame]
  rw [Builder.currentNode, h.builder.inner_current] at isDecl
  change (inner.builder.doc.frame id).isDeclaration = true at isDecl
  rcases opens with state | state
  · simp only [Scanner.Config.Fits, state] at fits
    have holds := fits (inner.builder.doc.frame id) (by simp [spine])
    revert holds isDecl
    cases inner.builder.doc.frame id <;> simp [Frame.holdsContent, Frame.isDeclaration]
  · simp only [Scanner.Config.Fits, state] at fits
    rcases fits with inSubset | ⟨frame, -, around, split, inSubset⟩
    · rw [spine] at inSubset
      generalize inner.builder.doc.frame id = frame at inSubset isDecl
      cases inSubset <;> cases isDecl
    · rw [spine] at split
      obtain ⟨-, rfl⟩ := List.cons.inj split
      cases inSubset

/-- What a token asks for besides the nodes is alike. -/
private theorem takesAlike (h : Mirrors m above (id :: rest) outer inner)
    (outer_nested : outer.Nested text' mode') (inner_nested : inner.Nested text mode)
    (emits : inner.Emits token config) (starts' : token.text <+: outer.scanner.cursor.rest)
    (stays : token.kind = .endTag → m.first ≤ 1 ∧
      ∃ place ∈ (outer.builder.apply (token.moved m.distance)).doc.path
        (outer.builder.apply (token.moved m.distance)).current, m.shift < place)
    (line : m.lines = true → ∀ stop, text'.sameLine (stop + m.distance)
      (inner.scanner.cursor.offset + m.distance) =
        text.sameLine stop inner.scanner.cursor.offset) :
    Builder.TakesAlike m id rest outer.builder inner.builder token := by
  obtain ⟨kind, span, taken⟩ := token
  obtain rfl : span = ⟨inner.scanner.cursor.offset,
    inner.scanner.cursor.offset + taken.byteSize⟩ := emits.span
  obtain ⟨emits, -, starts, -⟩ := emits
  have inStep := inner_nested.inStep
  have awaits := inStep.fits.awaits inStep.pending emits
  constructor
  · rintro rfl
    obtain ⟨first, place, mem, less⟩ := stays rfl
    exact ⟨first, h.endTag (emits.state_eq rfl), place, mem, less⟩
  · rintro rfl
    exact h.value (by rw [emits.state_eq rfl]; rfl)
  · intro _ lines stop
    rw [outer_nested.spans.text_eq, inner_nested.spans.text_eq]
    exact line lines stop
  · intro opens isDecl
    refine h.around inStep ?_ isDecl
    rcases opens with rfl | rfl
    · cases emits with
      | commentOpen state => exact state
      | doctypePart _ fills | elementPart _ fills | attlistPart _ fills | entityPart _ fills =>
        cases fills
    · cases emits with
      | instructionOpen state => exact state
      | doctypePart _ fills | elementPart _ fills | attlistPart _ fills | entityPart _ fills =>
        cases fills
  · intro belongs
    have inDoctype : inner.builder.InDoctype := by
      rcases belongs with rfl | rfl | isOpener
      · exact awaits
      · exact ⟨inner.builder.current, List.mem_cons_self, awaits⟩
      · cases kind with
        | elementDeclOpen | attlistOpen | entityOpen => exact awaits
        | _ => cases isOpener
    obtain ⟨place, mem, isDoctype⟩ := inDoctype
    rw [NodeKind.isDoctype_eq, decide_eq_true_eq] at isDoctype
    refine ⟨place, h.builder.mem_ids mem ?_, isDoctype⟩
    change inner.builder.doc.frame place = .doctype at isDoctype
    rw [isDoctype]
    nofun
  · intro keyword isKeyword
    have declares := emits.taken_eq_of_keyword isKeyword
    rw [declares] at starts starts'
    have outerKeyword := outer_nested.standsIn.keywordAt_eq starts'
    have innerKeyword := inner_nested.standsIn.keywordAt_eq starts
    rw [h.offset] at outerKeyword
    rw [outer_nested.spans.text_eq, inner_nested.spans.text_eq, Token.start, outerKeyword,
      innerKeyword]
    simp only [Parameter.moved, Span.moved, Parameter.mk.injEq, Span.mk.injEq, and_true]
    omega

/-- A token that is read in both texts keeps that one reading mirrors the other. -/
private theorem emits (h : Mirrors m above (id :: rest) outer inner)
    (inner_nested : inner.Nested text mode) (emits : inner.Emits token config)
    (alike : Builder.TakesAlike m id rest outer.builder inner.builder token)
    (outerConfig : Scanner.Config) :
    ∃ ids, Mirrors m above ids
      ⟨⟨outerConfig, outer.scanner.cursor.advance token.text⟩,
        outer.builder.apply (token.moved m.distance)⟩
      ⟨⟨config, inner.scanner.cursor.advance token.text⟩, inner.builder.apply token⟩ := by
  obtain ⟨kind, span, taken⟩ := token
  obtain rfl : span = ⟨inner.scanner.cursor.offset,
    inner.scanner.cursor.offset + taken.byteSize⟩ := emits.span
  have emits := emits.transition
  have inStep := inner_nested.inStep
  have awaits := inStep.fits.awaits inStep.pending emits
  obtain ⟨ids, builder⟩ := h.builder.apply alike
  refine ⟨ids, ?_, builder, ?_, ?_⟩
  · have offset := h.offset
    simp only [Cursor.advance]
    omega
  · intro awaitsValue
    rcases emits.cases_of_awaitsValue inStep.sound awaitsValue with rfl | ⟨before, rfl | rfl⟩
    · obtain ⟨index, pending', pending⟩ := h.builder.pending_nameAttribute
        ⟨.attributeName, ⟨inner.scanner.cursor.offset,
          inner.scanner.cursor.offset + taken.byteSize⟩, taken⟩ awaits
      refine ⟨index, pending'.trans ?_, pending.trans ?_⟩
      · rw [← (Builder.retouched_nameAttribute outer.builder _).current_eq]
        rfl
      · rw [← (Builder.retouched_nameAttribute inner.builder _).current_eq]
        rfl
    · exact h.value before
    · exact h.value before
  · intro atName
    rw [Builder.endTagOpen_apply, Builder.endTagOpen_apply]
    rcases emits.cases_of_nameState inStep.sound .closing atName with ⟨rfl, -⟩ | ⟨before, rfl⟩
    · rfl
    · exact h.endTag before

/-- Two readings that read the same token, one of them further on. -/
theorem next (h : Mirrors m above (id :: rest) outer inner)
    (outer_nested : outer.Nested text' mode') (inner_nested : inner.Nested text mode)
    (ahead : inner.scanner.cursor.rest ≠ [])
    (reads : Scanner.Embeds.ReadsAlike m.distance outer.scanner inner.scanner)
    (stays : inner.scanner.next.1.kind = .endTag → m.first ≤ 1 ∧
      ∃ place ∈ outer.next.builder.doc.path outer.next.builder.current, m.shift < place)
    (line : m.lines = true → ∀ stop, text'.sameLine (stop + m.distance)
      (inner.scanner.cursor.offset + m.distance) =
        text.sameLine stop inner.scanner.cursor.offset) :
    ∃ ids, Mirrors m above ids outer.next inner.next := by
  obtain ⟨config, next, token, ⟨mirrors, nested⟩, emits, eq⟩ :=
    exists_emits (P := fun r ↦ Mirrors m above (id :: rest) outer r ∧ r.Nested text mode)
      (fun r next both rescans ↦
        ⟨both.1.rescans both.2.inStep.sound rescans, both.2.rescans rescans⟩)
      ⟨h, inner_nested⟩ ahead
  rw [Scanner.Embeds.ReadsAlike, eq] at reads
  rw [Reading.next, reads] at stays
  rw [Reading.next, Reading.next, reads, eq]
  rw [eq] at stays
  have starts' : token.text <+: outer.scanner.cursor.rest := by
    by_cases atEnd : outer.scanner.cursor.rest = []
    · rw [Scanner.next_of_rest_nil atEnd] at reads
      exact absurd (congrArg (fun result ↦ result.1.text) reads).symm emits.nonempty
    · obtain ⟨kind', taken', next', -, -, starts', eq'⟩ := Scanner.next_of_rest_ne_nil atEnd
      rw [eq'] at reads
      have same : taken' = token.text := congrArg (fun result ↦ result.1.text) reads
      exact same ▸ starts'
  have alike := mirrors.takesAlike outer_nested nested emits starts' stays line
  exact mirrors.emits nested emits alike _

end Mirrors

end Reading

end TolerantXml
