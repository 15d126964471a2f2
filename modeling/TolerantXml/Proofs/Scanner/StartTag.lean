import TolerantXml.Proofs.Scanner.Inside

/-!
# Texts that begin with a start tag

The opening of a start tag is read from the text ahead alone, in any document. Behind it the scanner
knows nothing of what came before: where content may come, markup returns to it
(`Config.Returning`), and `<` ends the word in front of it. So a scanner that reads a start tag
stands inside the text that begins with that tag (`embeds_startTagOpen`).
-/

namespace TolerantXml.Scanner

namespace Config

variable {config next : Config} {kind : TokenKind} {taken : Text}

/-- In element content, and in the tags and other constructs that stand in it, the next markup
returns to element content. -/
def Returning (config : Config) : Prop :=
  config.state.ofDeclarations = false ∨ config.state.isTag = true ∧ config.inProlog = false →
    config.markupReturn = .content

theorem initial_returning (mode : Mode) : (initial mode).Returning := by
  cases mode <;> simp [Returning, initial, State.initial, State.ofDeclarations, State.isTag]

/-- Where a state returns to, outside tags. -/
private theorem Sound.returning_return (h : config.Sound) {back : Config}
    (state : back.state = config.markupReturn) (same : back.markupReturn = config.markupReturn) :
    back.Returning := by
  rw [Returning, same]
  rcases h.markupReturn with eq | eq
  · exact fun _ ↦ eq
  · simp [state, eq, State.ofDeclarations, State.isTag]

private theorem Returning.leaveTag (h : config.Returning) (sound : config.Sound)
    (isTag : config.state.isTag = true) : config.leaveTag.Returning := by
  cases prolog : config.inProlog with
  | true => exact sound.returning_return (by simp [Config.leaveTag, prolog]) rfl
  | false => exact fun _ ↦ h (.inr ⟨isTag, prolog⟩)

/-- A change of state without a token keeps what markup returns to. -/
theorem Returning.rescans (h : config.Returning) (sound : config.Sound)
    (rescans : config.Rescans next) : next.Returning := by
  cases rescans with
  | noStartTagName eq | noEndTagName eq | endTagLeft eq =>
    exact fun _ ↦ h (.inl (by simp [eq, State.ofDeclarations]))
  | noAssign eq | noAttributeValue eq =>
    refine fun inTag ↦ h (.inr ⟨by simp [eq, State.isTag], ?_⟩)
    simpa [moveTo, State.ofDeclarations, State.isTag] using inTag
  | tagLeft eq => exact h.leaveTag sound (by simp [eq, State.isTag])
  | noTarget => simp [Returning, moveTo, State.ofDeclarations, State.isTag]
  | doctypeLeft eq =>
    refine fun _ ↦ h (.inl ?_)
    rcases eq with ⟨slot, eq⟩ | eq <;> simp [eq, State.ofDeclarations]
  | declLeft => simp [Returning, moveTo, State.ofDeclarations, State.isTag]

/-- A token keeps what markup returns to. -/
theorem Returning.emits (h : config.Returning) (sound : config.Sound)
    (emits : config.Emits kind taken next) : next.Returning := by
  cases emits with
  | space | content | tagUnknown | endTagUnknown | comment | cdata | instructionData
  | unrecognized => exact h
  | tagSpace => exact h
  | commentOpen | instructionOpen | subsetOpen | elementDeclOpen | attlistOpen | entityOpen
  | elementPart | attlistPart | entityPart | declClose | instructionTarget | prologTarget =>
    simp [Returning, moveTo, enterMarkup, State.ofDeclarations, State.isTag]
  | cdataOpen eq | doctypeOpen eq | endTagOpen eq | startTagOpen eq | startTag eq
  | startTagUnknown eq | endTag eq | endTagNameUnknown eq | endTagClose eq | cdataClose eq
  | doctypePart eq =>
    exact fun _ ↦ h (.inl (by simp [eq, State.ofDeclarations]))
  | doctypeClose eq =>
    refine fun _ ↦ h (.inl ?_)
    rcases eq with ⟨slot, eq⟩ | eq <;> simp [eq, State.ofDeclarations]
  | prologClose eq | emptyTagClose eq | startTagClose eq =>
    exact h.leaveTag sound (by simp [eq, State.isTag])
  | attributeName eq | assign eq | attributeValue eq =>
    refine fun inTag ↦ h (.inr ⟨by simp [eq, State.isTag], ?_⟩)
    simpa [moveTo, State.ofDeclarations, State.isTag] using inTag
  | commentClose | instructionClose => exact sound.returning_return rfl rfl
  | subsetClose => exact fun _ ↦ rfl

end Config

/-! ### The opening of a start tag -/

section Opening

variable {config config' next : Config} {before before' rest taken : Text}
  {cursor cursor' : Cursor}

/-- Behind the opening of a start tag. -/
def Config.inStartTag (config : Config) : Config :=
  { config with state := .startTagName, spaceSeen := false }

/-- The opening of a start tag is read in element content, from the text ahead alone. -/
private theorem step_startTagOpen_of_step
    (reads : step config before rest = .emit .startTagOpen taken next)
    (state : config'.state = .content) :
    step config' before' rest = .emit .startTagOpen ['<'] config'.inStartTag := by
  have allowed := emits_of_step reads
  have content : config.state = .content := Config.Emits.state_eq allowed rfl
  simp only [step, content, stepContent] at reads
  obtain ⟨comment, reads⟩ := eq_nil_of_attempt_eq (by decide) reads
  obtain ⟨cdata, reads⟩ := eq_nil_of_attempt_eq (by decide) reads
  obtain ⟨doctype, reads⟩ := eq_nil_of_attempt_eq (by decide) reads
  obtain ⟨endTag, reads⟩ := eq_nil_of_attempt_eq (by decide) reads
  obtain ⟨instruction, reads⟩ := eq_nil_of_attempt_eq (by decide) reads
  have isAhead : ['<'].isPrefixOf rest = true := by
    by_contra notAhead
    rw [Lexeme.literal, if_neg notAhead] at reads
    cases reads
  have isOpening : Lexeme.literal ['<'] rest = ['<'] := by rw [Lexeme.literal, if_pos isAhead]
  simp only [step, state, stepContent, comment, cdata, doctype, endTag, instruction, isOpening]
  rfl

private theorem read_startTagOpen_of_read (opens : (read config cursor).1.kind = .startTagOpen)
    (state : config'.state = .content) (same : cursor'.rest = cursor.rest) :
    read config' cursor' =
      (⟨.startTagOpen, ⟨cursor'.offset, cursor'.offset + 1⟩, ['<']⟩,
        ⟨config'.inStartTag, cursor'.advance ['<']⟩) := by
  fun_induction read config cursor with
  | case1 => cases opens
  | case2 config c rest ahead kind taken next reads after =>
    obtain rfl : kind = .startTagOpen := opens
    have reads' : step config' cursor'.before cursor'.rest =
        .emit .startTagOpen ['<'] config'.inStartTag := by
      rw [same, ahead]
      exact step_startTagOpen_of_step reads state
    have notEnd : cursor'.rest ≠ [] := same.trans ahead ▸ List.cons_ne_nil c rest
    exact read_of_step notEnd reads'
  | case3 config c rest ahead next rescans ih => exact ih opens

end Opening

section Embedding

variable {text tail : Text} {outer : Scanner}

/-- Where a start tag is read, nothing but its opening is known to the scanner behind it. -/
theorem next_startTagOpen (sound : outer.config.Sound) (returning : outer.config.Returning)
    (xml : outer.config.mode = .xml) (opens : outer.next.1.kind = .startTagOpen) :
    outer.next = (⟨.startTagOpen, ⟨outer.cursor.offset, outer.cursor.offset + 1⟩, ['<']⟩,
      ⟨(Config.initial .xml).inStartTag, outer.cursor.advance ['<']⟩) := by
  have ahead : outer.cursor.rest ≠ [] := by
    intro atEnd
    rw [next_of_rest_nil atEnd] at opens
    cases opens
  obtain ⟨reading, kind, taken, next, path, emits, -, -, eq⟩ := read_emits outer.config ahead
  have reached : reading.Sound ∧ reading.Returning ∧ reading.mode = .xml := by
    clear emits
    induction path with
    | refl => exact ⟨sound, returning, xml⟩
    | tail _ last ih =>
      exact ⟨ih.1.rescans last, ih.2.1.rescans ih.1 last, last.mode_eq.trans ih.2.2⟩
  obtain ⟨sound, returning, xml⟩ := reached
  rw [Scanner.next, eq] at opens ⊢
  obtain rfl : kind = .startTagOpen := opens
  cases emits with
  | startTagOpen state =>
    have back := returning (.inl (by rw [state]; rfl))
    have prolog := sound.inProlog_eq_false (by rw [state]; rfl)
    have config : { reading with state := .startTagName, spaceSeen := false } =
        (Config.initial .xml).inStartTag := by
      rw [back, prolog, xml]
      rfl
    rw [config]
    rfl
  | doctypePart _ fills | elementPart _ fills | attlistPart _ fills | entityPart _ fills =>
    cases fills

/-- A start tag that is read in a document is the first token of the text that begins with it, and
from there on the scanner of the document stands inside that text. -/
theorem embeds_startTagOpen (sound : outer.config.Sound) (returning : outer.config.Returning)
    (xml : outer.config.mode = .xml) (opens : outer.next.1.kind = .startTagOpen)
    (rest : outer.cursor.rest = text ++ tail) (last : text.getLast? = some '>') :
    (start text .xml).next.1.kind = .startTagOpen ∧
      Embeds outer.cursor.offset tail outer.next.2 (start text .xml).next.2 := by
  have reads := next_startTagOpen sound returning xml opens
  have nonempty : text ≠ [] := List.ne_nil_of_mem (List.mem_of_getLast? last)
  have ahead : outer.cursor.rest ≠ [] := by
    rw [rest]
    exact List.append_ne_nil_of_left_ne_nil nonempty tail
  obtain ⟨kind, taken, next, -, -, starts, eq⟩ := next_of_rest_ne_nil ahead
  have isOpening : taken = ['<'] := congrArg (fun result ↦ result.1.text) (eq.symm.trans reads)
  have isKind : kind = .startTagOpen := congrArg (fun result ↦ result.1.kind) (eq.symm.trans reads)
  subst isOpening isKind
  have inText : ['<'] <+: text := by
    rw [rest] at starts
    exact List.prefix_of_prefix_length_le starts (List.prefix_append text tail)
      (List.length_pos_iff.2 nonempty)
  -- The same configuration reads the start tag from the text alone, and so does the initial one.
  let alone : Cursor := ⟨outer.cursor.before, text, outer.cursor.offset⟩
  have alike : ∀ state, Alike (fun _ taken ↦ taken <+: text) state outer.cursor.rest alone.rest :=
    rest ▸ alike_cut last tail
  have readsAlone := read_alike alike (fun _ ↦ rfl) ahead eq inText
  have opensAlone : (read outer.config alone).1.kind = .startTagOpen := by rw [readsAlone]
  have same : (Cursor.atStart text).rest = alone.rest := rfl
  have readsFirst : (start text .xml).next = _ := read_startTagOpen_of_read opensAlone rfl same
  rw [readsFirst, reads]
  refine ⟨rfl, rfl, Nat.add_comm _ _, ?_, sameWords_of_isWordBreak (by decide) _ _⟩
  simp only [Cursor.advance, rest]
  exact List.drop_append_of_le_length (List.length_pos_iff.2 nonempty)

end Embedding

end TolerantXml.Scanner
