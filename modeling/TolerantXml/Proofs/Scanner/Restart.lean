import TolerantXml.Proofs.Scanner.Inside

/-!
# Starting in the middle of a text

What a scanner carries besides its state is not always asked for: the state that markup returns to
only inside markup, white space only inside a tag, and the text already read only in an attribute
list (`Config.live`, `step_live`, `step_of_words`). Scanners that agree in what is asked for, and
have the same text ahead, read the same tokens (`Agrees.tokens_eq`). Nothing is asked for
between constructs, where every text starts, so the tokens from there on are those of a scanner that
starts there (`tokens_restart`).
-/

namespace TolerantXml.Scanner

/-- Whether the state that follows the markup is still asked for. -/
def State.asksReturn (inProlog : Bool) : State → Bool
  | .comment | .instructionTarget | .instructionData => true
  | .tag | .assign | .attributeValue => inProlog
  | _ => false

/-- Whether it is still asked for whether white space came. -/
def State.asksSpace : State → Bool
  | .startTagName | .tag | .assign => true
  | _ => false

/-- Whether it is still asked for which word ends the text already read. -/
def State.asksWords : State → Bool
  | .attlistDecl _ => true
  | _ => false

/-- A configuration without what is not asked for any more. -/
def Config.live (config : Config) : Config :=
  { config with
    markupReturn :=
      if config.state.asksReturn config.inProlog then config.markupReturn else .content
    spaceSeen := config.state.asksSpace && config.spaceSeen }

/-- A step to a configuration without what is not asked for any more. -/
def Step.live : Step → Step
  | .emit kind taken next => .emit kind taken next.live
  | .rescan next => .rescan next.live

/-! ### Steps -/

section Steps

variable {config next : Config} {before before' rest taken : Text} {kind : TokenKind}
  {otherwise : Step}

private theorem attempt_live : (attempt taken kind next otherwise).live =
    attempt taken kind next.live otherwise.live := by
  unfold attempt
  split <;> rfl

/-- A step makes no use of what is not asked for. -/
theorem step_live (sound : config.Sound) (before rest : Text) :
    (step config.live before rest).live = (step config before rest).live := by
  obtain ⟨mode, state, markupReturn, spaceSeen, inProlog⟩ := config
  -- Markup returns to states that do not ask for anything.
  have returns : markupReturn = .content ∨ markupReturn = .subset := sound.markupReturn
  simp only [step, Config.live]
  cases state with
  | content | cdata | instructionTarget | endTagName | subset =>
    simp only [stepContent, stepCdata, stepInstructionTarget, stepEndTagName, stepSubset,
      attempt_live]
    rfl
  | comment | instructionData =>
    simp only [stepComment, stepInstructionData, attempt_live]
    rcases returns with rfl | rfl <;> rfl
  | startTagName =>
    obtain rfl : inProlog = false := sound.inProlog_eq_false rfl
    simp only [stepStartTagName, attempt_live]
    rfl
  | assign | attributeValue =>
    simp only [stepAssign, stepAttributeValue, attempt_live]
    cases inProlog <;> rfl
  | tag =>
    simp only [stepTag, attempt_live, apply_ite Step.live]
    cases inProlog with
    | true => rcases returns with rfl | rfl <;> rfl
    | false => rfl
  | endTag | afterSubset =>
    simp only [stepEndTag, stepAfterSubset, attempt_live, apply_ite Step.live]
    rfl
  | doctype slot =>
    simp only [stepDoctype, attempt_live, apply_ite Step.live]
    cases slot <;>
    · simp only [stepDoctypeSlot, attempt_live]
      rfl
  | elementDecl slot =>
    simp only [stepDecl, attempt_live, apply_ite Step.live]
    cases slot <;>
    · simp only [stepElementSlot, attempt_live]
      rfl
  | attlistDecl slot =>
    simp only [stepDecl, attempt_live, apply_ite Step.live]
    cases slot <;>
    · simp only [stepAttlistSlot, attempt_live, apply_ite Config.live]
      rfl
  | entityDecl slot =>
    simp only [stepDecl, attempt_live, apply_ite Step.live]
    cases slot <;>
    · simp only [stepEntitySlot, attempt_live]
      rfl

/-- A step looks back at the text already read only where its last word is asked for. -/
theorem step_of_words (words : config.state.asksWords = true → SameWords before before')
    (rest : Text) : step config before' rest = step config before rest := by
  cases state : config.state with
  | attlistDecl slot =>
    rw [state] at words
    have same := words rfl (Lexeme.word rest)
    have slots : stepAttlistSlot config before' rest slot =
        stepAttlistSlot config before rest slot := by
      funext otherwise
      cases slot <;> simp only [stepAttlistSlot, same]
    simp only [step, state, slots]
  | _ => simp only [step, state]

private theorem Step.eq_emit_of_live {read : Step}
    (h : read.live = (Step.emit kind taken next).live) :
    ∃ next', read = .emit kind taken next' ∧ next'.live = next.live := by
  cases read with
  | emit kind' taken' next' =>
    simp only [Step.live, Step.emit.injEq] at h
    obtain ⟨rfl, rfl, live⟩ := h
    exact ⟨next', rfl, live⟩
  | rescan => cases h

private theorem Step.eq_rescan_of_live {read : Step} (h : read.live = (Step.rescan next).live) :
    ∃ next', read = .rescan next' ∧ next'.live = next.live := by
  cases read with
  | emit => cases h
  | rescan next' =>
    simp only [Step.live, Step.rescan.injEq] at h
    exact ⟨next', rfl, h⟩

/-- An attribute list is entered by its opening. -/
theorem Config.Emits.asksWords_cases (emits : config.Emits kind taken next) (sound : config.Sound)
    (asks : next.state.asksWords = true) :
    config.state.asksWords = true ∨
      taken = Delimiter.declOpen ++ Keyword.attlist ∧ next.state = .attlistDecl .element := by
  cases emits with
  | space | tagSpace | content | tagUnknown | endTagUnknown | comment | cdata | instructionData
  | unrecognized => exact .inl asks
  | attlistOpen => exact .inr ⟨rfl, rfl⟩
  | attlistPart state => exact .inl (by rw [state]; rfl)
  | prologClose | emptyTagClose | startTagClose =>
    rcases sound.state_leaveTag with eq | eq <;> rw [eq] at asks <;> cases asks
  | commentClose | instructionClose =>
    rw [leaveMarkup, moveTo] at asks
    rcases sound.markupReturn with eq | eq <;> rw [eq] at asks <;> cases asks
  | _ => cases asks

theorem Config.Rescans.asksWords_eq_false (rescans : config.Rescans next) (sound : config.Sound) :
    next.state.asksWords = false := by
  cases rescans with
  | tagLeft => rcases sound.state_leaveTag with eq | eq <;> rw [eq] <;> rfl
  | _ => rfl

/-- Behind a token the words are the same that are still asked for. -/
private theorem Config.Emits.sameWords (emits : config.Emits kind taken next) (sound : config.Sound)
    (words : config.state.asksWords = true → SameWords before before')
    (asks : next.state.asksWords = true) :
    SameWords (taken.reverseAux before) (taken.reverseAux before') := by
  rcases emits.asksWords_cases sound asks with before | ⟨rfl, -⟩
  · exact (words before).advance taken
  · -- The bracket of the opening hides what came before it.
    have bracket : Lexeme.isWordBreak '<' = true := by decide
    exact (sameWords_of_isWordBreak bracket before before').advance ('!' :: Keyword.attlist)

end Steps

/-! ### Scanners that agree -/

/-- What transitions keep is kept where a token is read. -/
private theorem next_config_of {P : Config → Prop} {scanner : Scanner}
    (rescans : ∀ config next : Config, P config → config.Rescans next → P next)
    (emits : ∀ (config : Config) (kind : TokenKind) (taken : Text) (next : Config),
      P config → config.Emits kind taken next → P next)
    (h : P scanner.config) : P scanner.next.2.config := by
  by_cases ahead : scanner.cursor.rest = []
  · rwa [next_of_rest_nil ahead]
  · obtain ⟨reading, kind, taken, next, path, reads, -, -, eq⟩ := read_emits scanner.config ahead
    have reached : P reading := by
      clear reads
      induction path with
      | refl => exact h
      | tail _ last ih => exact rescans _ _ ih last
    rw [Scanner.next, eq]
    exact emits reading kind taken next reached reads

theorem sound_next {scanner : Scanner} (sound : scanner.config.Sound) :
    scanner.next.2.config.Sound :=
  next_config_of (fun _ _ sound rescans ↦ sound.rescans rescans)
    (fun _ _ _ _ sound emits ↦ sound.emits emits) sound

/-- The second scanner has the same text ahead as the first one, some bytes further on, and agrees
with it in what is asked for. -/
structure Agrees (distance : Nat) (scanner scanner' : Scanner) : Prop where
  live : scanner'.config.live = scanner.config.live
  sound : scanner.config.Sound
  sound' : scanner'.config.Sound
  offset : scanner'.cursor.offset = scanner.cursor.offset + distance
  rest : scanner'.cursor.rest = scanner.cursor.rest
  words : scanner.config.state.asksWords = true →
    SameWords scanner.cursor.before scanner'.cursor.before

namespace Agrees

variable {distance : Nat} {scanner scanner' : Scanner}

/-- Between constructs nothing is asked for. -/
theorem of_isBetween (between : scanner.config.state.isBetween = true)
    (sound : scanner.config.Sound) (sound' : scanner'.config.Sound)
    (mode : scanner'.config.mode = scanner.config.mode)
    (state : scanner'.config.state = scanner.config.state)
    (offset : scanner'.cursor.offset = scanner.cursor.offset + distance)
    (rest : scanner'.cursor.rest = scanner.cursor.rest) : scanner.Agrees distance scanner' where
  live := by
    have notTag : scanner.config.state.isTag = false := by
      revert between
      cases scanner.config.state <;> simp [State.isBetween, State.isTag]
    have noProlog := sound.inProlog_eq_false notTag
    have noProlog' := sound'.inProlog_eq_false (state ▸ notTag)
    rw [Config.live, Config.live, mode, state, noProlog, noProlog']
    revert between
    cases scanner.config.state <;> simp [State.isBetween, State.asksReturn, State.asksSpace]
  sound := sound
  sound' := sound'
  offset := offset
  rest := rest
  words asks := by
    revert between asks
    cases scanner.config.state <;> simp [State.isBetween, State.asksWords]

/-- Scanners that agree take steps that agree. -/
private theorem step_eq (h : scanner.Agrees distance scanner') :
    (step scanner'.config scanner'.cursor.before scanner'.cursor.rest).live =
      (step scanner.config scanner.cursor.before scanner.cursor.rest).live := by
  have words : scanner'.config.state.asksWords = true →
      SameWords scanner.cursor.before scanner'.cursor.before := by
    have state : scanner'.config.live.state = scanner.config.live.state := by rw [h.live]
    exact fun asks ↦ h.words (state ▸ asks)
  rw [h.rest, step_of_words words, ← step_live h.sound', h.live, step_live h.sound]

/-- Scanners that agree read the same token, and agree behind it. -/
private theorem next (h : scanner.Agrees distance scanner') :
    scanner'.next.1 = scanner.next.1.moved distance ∧
      scanner.next.2.Agrees distance scanner'.next.2 := by
  obtain ⟨config, cursor⟩ := scanner
  obtain ⟨config', cursor'⟩ := scanner'
  have rest : cursor'.rest = cursor.rest := h.rest
  have offset : cursor'.offset = cursor.offset + distance := h.offset
  have steps := h.step_eq
  simp only [Scanner.next]
  fun_induction read config cursor generalizing config' with
  | case1 config atEnd =>
    rw [read_of_rest_nil (rest.trans atEnd), offset]
    exact ⟨rfl, h⟩
  | case2 config c text ahead kind taken next reads after =>
    simp only [ahead, reads] at steps
    obtain ⟨next', reads', live⟩ := Step.eq_emit_of_live steps
    have emits : (step config cursor.before (c :: text)).Allowed config := step_allowed _ _ _
    have emits' : (step config' cursor'.before cursor'.rest).Allowed config' := step_allowed _ _ _
    rw [reads] at emits
    rw [reads'] at emits'
    have notEnd : cursor'.rest ≠ [] := rest.trans ahead ▸ List.cons_ne_nil c text
    rw [read_of_step notEnd reads']
    constructor
    · simp only [Token.moved, Span.moved, Token.mk.injEq, Span.mk.injEq, true_and, and_true, after,
        Cursor.advance]
      omega
    · constructor
      · exact live
      · exact h.sound.emits emits
      · exact h.sound'.emits emits'
      · simp only [after, Cursor.advance]
        omega
      · simp only [after, Cursor.advance, rest]
      · exact emits.sameWords h.sound h.words
  | case3 config c text ahead next rescans ih =>
    simp only [ahead, rescans] at steps
    obtain ⟨next', rescans', live⟩ := Step.eq_rescan_of_live steps
    have allowed : (step config cursor.before (c :: text)).Allowed config := step_allowed _ _ _
    have allowed' : (step config' cursor'.before cursor'.rest).Allowed config' :=
      step_allowed _ _ _
    rw [rescans] at allowed
    rw [rescans'] at allowed'
    have notEnd : cursor'.rest ≠ [] := rest.trans ahead ▸ List.cons_ne_nil c text
    rw [read_of_rescan notEnd rescans']
    have agrees : Agrees distance ⟨next, cursor⟩ ⟨next', cursor'⟩ := by
      refine ⟨live, h.sound.rescans allowed, h.sound'.rescans allowed', offset, rest, ?_⟩
      intro asks
      rw [allowed.asksWords_eq_false h.sound] at asks
      cases asks
    exact ih next' agrees agrees.step_eq

/-- Scanners that agree read the same tokens up to the end of the text. -/
theorem tokens_eq (h : scanner.Agrees distance scanner') :
    scanner'.tokens = scanner.tokens.map (·.moved distance) := by
  induction size : scanner.cursor.rest.length using Nat.strongRecOn
    generalizing scanner scanner' with
  | ind size ih =>
    obtain ⟨token, agrees⟩ := h.next
    by_cases ahead : scanner.cursor.rest = []
    · rw [tokens_of_rest_nil ahead, tokens_of_rest_nil (h.rest.trans ahead), token]
      rfl
    · have less := read_rest_length_lt scanner.config scanner.cursor ahead
      rw [tokens_of_rest_ne_nil ahead, tokens_of_rest_ne_nil (h.rest ▸ ahead), token,
        ih _ (size ▸ less) agrees rfl]
      rfl

end Agrees

/-! ### Places in a text -/

variable {text : Text} {mode : Mode} {scanner : Scanner}

/-- Seeking the place of a cursor finds that cursor. -/
private theorem seek_offset {cursor : Cursor} (stands : cursor.StandsIn text) :
    (Cursor.atStart text).seek cursor.offset = cursor := by
  have cut : text.splitAt? cursor.offset = some (cursor.before.reverse, cursor.rest) :=
    Text.splitAt?_eq_some_iff.2
      ⟨stands.text_eq.symm, by rw [Text.byteSize_reverse, stands.offset_eq]⟩
  simp only [Text.splitAt?] at cut
  split at cut
  · next offset =>
    simp only [Option.some.injEq, Prod.mk.injEq, List.reverse_inj] at cut
    cases found : (Cursor.atStart text).seek cursor.offset with
    | mk before rest place =>
      rw [found] at cut offset
      obtain ⟨rfl, rfl⟩ := cut
      simp only at offset
      rw [offset]
  · cases cut

theorem after_standsIn (stands : scanner.cursor.StandsIn text) (n : Nat) :
    (scanner.after n).cursor.StandsIn text := by
  induction n generalizing scanner with
  | zero => exact stands
  | succ n ih => exact ih (next_standsIn stands)

theorem after_sound (sound : scanner.config.Sound) (n : Nat) : (scanner.after n).config.Sound := by
  induction n generalizing scanner with
  | zero => exact sound
  | succ n ih => exact ih (sound_next sound)

private theorem mode_after (scanner : Scanner) (n : Nat) :
    (scanner.after n).config.mode = scanner.config.mode := by
  induction n generalizing scanner with
  | zero => rfl
  | succ n ih => exact (ih scanner.next.2).trans (mode_next scanner)

/-- The tokens behind some of those of a scanner. -/
theorem tokens_after {n : Nat} (lt : n < scanner.tokens.length) :
    (scanner.after n).tokens = scanner.tokens.drop n := by
  induction n generalizing scanner with
  | zero => rfl
  | succ n ih =>
    by_cases ahead : scanner.cursor.rest = []
    · rw [tokens_of_rest_nil ahead, List.length_singleton] at lt
      omega
    · rw [tokens_of_rest_ne_nil ahead, List.length_cons, Nat.add_lt_add_iff_right] at lt
      rw [tokens_of_rest_ne_nil ahead, List.drop_succ_cons, after, ih lt]

/-- Where a scanner is in the state in which it started, it can be started again: the tokens from
there on are those of a scanner that starts at that place, and those of the text ahead on its own,
moved by the bytes in front of it. -/
theorem tokens_restart (text : Text) (mode : Mode) (n : Nat)
    (within : n < (tokenize text mode).length)
    (initial : ((start text mode).after n).config.state = .initial mode) :
    let place := ((start text mode).after n).cursor.offset
    (tokenize text mode).drop n = (startAt text place mode).tokens ∧
      ∃ first last, text.splitAt? place = some (first, last) ∧
        (startAt text place mode).tokens = (tokenize last mode).map (·.moved place) := by
  intro place
  have stands : ((start text mode).after n).cursor.StandsIn text :=
    after_standsIn (Cursor.atStart_standsIn text) n
  have sound : ((start text mode).after n).config.Sound :=
    after_sound (Config.initial_sound mode) n
  have starts : (State.initial mode).isBetween = true := by cases mode <;> rfl
  have started : startAt text place mode = ⟨.initial mode, ((start text mode).after n).cursor⟩ := by
    rw [startAt, seek_offset stands]
  rw [started, tokenize, ← tokens_after within]
  constructor
  · have agrees : Agrees 0 ⟨.initial mode, ((start text mode).after n).cursor⟩
        ((start text mode).after n) :=
      .of_isBetween starts (Config.initial_sound mode) sound (mode_after _ n) initial rfl rfl
    exact agrees.tokens_eq.trans (List.map_id _)
  · refine ⟨((start text mode).after n).cursor.before.reverse,
      ((start text mode).after n).cursor.rest, ?_, ?_⟩
    · rw [Text.splitAt?_eq_some_iff, Text.byteSize_reverse]
      exact ⟨stands.text_eq.symm, stands.offset_eq.symm⟩
    · have agrees : Agrees place (start ((start text mode).after n).cursor.rest mode)
          ⟨.initial mode, ((start text mode).after n).cursor⟩ :=
        .of_isBetween starts (Config.initial_sound mode) (Config.initial_sound mode) rfl rfl
          (Nat.zero_add place).symm rfl
      exact agrees.tokens_eq

/-- Behind the tag of an empty element, where the scanner still carries that white space came. -/
theorem tokens_restart_behindTag :
    let text : Text := ['<', 'a', ' ', '/', '>', 'c', '<', 'b', '>']
    ((start text .xml).after 4).config.spaceSeen = true ∧
      (tokenize text .xml).drop 4 = (startAt text 5 .xml).tokens ∧
      (startAt text 5 .xml).tokens = (tokenize ['c', '<', 'b', '>'] .xml).map (·.moved 5) := by
  intro text
  have within : 4 < (tokenize text .xml).length := by decide +kernel
  have initial : ((start text .xml).after 4).config.state = .content := by decide +kernel
  have place : ((start text .xml).after 4).cursor.offset = 5 := by decide +kernel
  have space : ((start text .xml).after 4).config.spaceSeen = true := by decide +kernel
  obtain ⟨drop, first, last, cut, tokens⟩ := tokens_restart text .xml 4 within initial
  rw [place] at drop cut tokens
  obtain ⟨-, rfl⟩ : ['<', 'a', ' ', '/', '>'] = first ∧ ['c', '<', 'b', '>'] = last := by
    have split : text.splitAt? 5 = some (['<', 'a', ' ', '/', '>'], ['c', '<', 'b', '>']) := by
      decide +kernel
    simpa using split.symm.trans cut
  exact ⟨space, drop, tokens⟩

end TolerantXml.Scanner
