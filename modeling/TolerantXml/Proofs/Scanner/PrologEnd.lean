import TolerantXml.Proofs.Scanner.Lexeme
import TolerantXml.Proofs.Scanner.Partition
import TolerantXml.Proofs.Scanner.Reachable
import TolerantXml.Proofs.Scanner.Restart

/-!
# The end of the prolog

A prolog is read like a tag, and `?>` ends it. So whatever is read in it has to leave that delimiter
alone, which is shown for each of its states (`step_leavesClose`) and then for all tokens up to the
one that ends the prolog (`leavesClose_tokenize`). Only a quoted value has the delimiter in it, and
only a value without quotation marks takes the question mark of it: it does not stop at one, as the
name of an attribute does.
-/

namespace TolerantXml

/-- Whether a token starts with a quotation mark. -/
def Token.IsQuoted (token : Token) : Prop := token.text.head?.any Text.isQuote = true

/-- Whether a token of a prolog is the end of it: a closing delimiter, or the opening of other
markup. -/
def Token.EndsProlog (token : Token) : Prop :=
  token.kind = .prologClose ∨ token.kind = .startTagClose ∨ token.kind = .emptyTagClose ∨
    token.text.head? = some '<'

instance : DecidablePred Token.IsQuoted := fun token ↦
  inferInstanceAs (Decidable (token.text.head?.any Text.isQuote = true))

instance : DecidablePred Token.EndsProlog := fun token ↦
  inferInstanceAs (Decidable (token.kind = .prologClose ∨ token.kind = .startTagClose ∨
    token.kind = .emptyTagClose ∨ token.text.head? = some '<'))

/-- What stands right behind a cursor's place in a text is ahead of the cursor. -/
private theorem Cursor.StandsIn.head?_rest {cursor : Cursor} {text : Text} {c : Char}
    (stands : cursor.StandsIn text)
    (slice : text.slice? cursor.offset (cursor.offset + 1) = some [c]) :
    cursor.rest.head? = some c := by
  obtain ⟨first, last, cut, size, -⟩ := Text.slice?_eq_some_iff.1 slice
  have isText : cursor.before.reverse ++ cursor.rest = first ++ ([c] ++ last) := by
    rw [← List.append_assoc, ← cut]
    exact stands.text_eq
  obtain ⟨-, rest⟩ := Text.append_inj_of_byteSize isText
    (by rw [Text.byteSize_reverse, ← stands.offset_eq, size])
  rw [rest]
  rfl

namespace Scanner

open Lexeme

variable {config next reading : Config} {kind : TokenKind} {before rest taken ahead : Text}
  {otherwise : Step}

/-! ### One step -/

/-- Whether a lexeme in front of a text leaves the end of the prolog alone, unless it is a value or
that end itself. -/
def LeavesClose (kind : TokenKind) (taken ahead : Text) : Prop :=
  (Delimiter.instructionClose <:+: taken →
      kind = .prologClose ∨ kind = .attributeValue ∧ taken.head?.any Text.isQuote = true) ∧
    (taken.getLast? = some '?' → ahead.head? = some '>' →
      kind = .attributeValue ∧ ¬ taken.head?.any Text.isQuote = true)

/-- Whether what a step reads leaves the end of the prolog alone. -/
def Step.LeavesClose (rest : Text) : Step → Prop
  | .emit kind taken _ => Scanner.LeavesClose kind taken (rest.drop taken.length)
  | .rescan _ => True

private theorem leavesClose_of_not_mem (free : '?' ∉ taken) (kind : TokenKind) (ahead : Text) :
    LeavesClose kind taken ahead :=
  ⟨fun occurs ↦ absurd (occurs.subset List.mem_cons_self) free,
    fun isLast ↦ absurd (List.mem_of_getLast? isLast) free⟩

private theorem leavesClose_prologClose (ahead : Text) :
    LeavesClose .prologClose Delimiter.instructionClose ahead :=
  ⟨fun _ ↦ .inl rfl, nofun⟩

private theorem attempt_leavesClose (reads : LeavesClose kind taken (rest.drop taken.length))
    (other : taken = [] → otherwise.LeavesClose rest) :
    (attempt taken kind next otherwise).LeavesClose rest := by
  unfold attempt
  split
  · next empty => exact other (List.isEmpty_iff.1 empty)
  · exact reads

private theorem not_mem_literal {pattern : Text} (free : '?' ∉ pattern) :
    '?' ∉ literal pattern rest := by
  unfold literal
  split
  · exact free
  · exact List.not_mem_nil

/-- One character of any kind, where the end of the prolog is not ahead. -/
private theorem leavesClose_anyChar (notAhead : literal Delimiter.instructionClose rest = [])
    (kind : TokenKind) : LeavesClose kind (anyChar rest) (rest.drop (anyChar rest).length) := by
  cases rest with
  | nil => exact leavesClose_of_not_mem List.not_mem_nil kind _
  | cons c rest =>
    refine ⟨fun occurs ↦ ?_, fun isLast close ↦ ?_⟩
    · have := occurs.length_le
      simp [anyChar, Delimiter.instructionClose] at this
    · -- The question mark and what is behind it would be the end of the prolog.
      obtain rfl : c = '?' := by simpa [anyChar] using isLast
      cases rest with
      | nil => cases close
      | cons d rest =>
        obtain rfl : d = '>' := by simpa [anyChar] using close
        simp [literal, Delimiter.instructionClose, List.isPrefixOf] at notAhead

/-- A value without quotation marks has no `>` in it. -/
private theorem leavesClose_bareValue (ahead : Text) :
    LeavesClose .attributeValue (bareValue rest) ahead := by
  have inside : ∀ c ∈ bareValue rest, isBareValueChar c = true := by
    intro c mem
    simp only [bareValue] at mem
    split at mem
    · exact List.mem_takeWhile_imp (List.mem_of_mem_dropLast mem)
    · exact List.mem_takeWhile_imp mem
  refine ⟨fun occurs ↦ ?_, fun _ _ ↦ ⟨rfl, fun isQuoted ↦ ?_⟩⟩
  · have isChar := inside '>' (occurs.subset (by decide))
    cases isChar
  · obtain ⟨c, isHead, isQuote⟩ := (Option.any_eq_true _ _).1 isQuoted
    have isChar := inside c (List.mem_of_mem_head? isHead)
    simp [isBareValueChar, isQuote] at isChar

/-- A quoted value ends with its quotation mark, or at the end of the text. -/
private theorem leavesClose_quoted (rest : Text) :
    LeavesClose .attributeValue (quoted rest) (rest.drop (quoted rest).length) := by
  cases rest with
  | nil => exact leavesClose_of_not_mem List.not_mem_nil _ _
  | cons mark rest =>
    simp only [quoted]
    split
    · next isQuote =>
      refine ⟨fun _ ↦ .inr ⟨rfl, isQuote⟩, fun isLast close ↦ ?_⟩
      exfalso
      cases behind : rest.drop (run (· != mark) rest).length with
      | nil =>
        rw [behind] at close
        have all : rest.length ≤ (run (· != mark) rest).length := List.drop_eq_nil_iff.1 behind
        simp [List.drop_eq_nil_iff.2 all] at close
      | cons last behind' =>
        have isHead : last ∈ (rest.drop (run (· != mark) rest).length).head? := by
          rw [behind]
          rfl
        have isMark : last = mark := by simpa using eq_of_mem_head?_drop_run isHead
        rw [behind, List.take_succ_cons, List.take_zero, ← List.cons_append,
          List.getLast?_concat, Option.some.injEq] at isLast
        rw [← isMark, isLast] at isQuote
        cases isQuote
    · exact leavesClose_of_not_mem List.not_mem_nil _ _

private theorem leavesClose_space (rest : Text) :
    LeavesClose .whitespace (space rest) (rest.drop (space rest).length) :=
  leavesClose_of_not_mem (not_mem_run (by decide)) _ _

private theorem stepTag_leavesClose (prolog : config.inProlog = true) (rest : Text) :
    (stepTag config rest).LeavesClose rest := by
  rw [stepTag, prolog, if_pos rfl]
  refine attempt_leavesClose (leavesClose_space rest) fun _ ↦ ?_
  refine attempt_leavesClose ?_ fun notAhead ↦ ?_
  · unfold literal
    split
    · exact leavesClose_prologClose _
    · exact leavesClose_of_not_mem List.not_mem_nil _ _
  refine attempt_leavesClose (leavesClose_of_not_mem ?_ _ _) fun _ ↦ ?_
  · split
    · exact not_mem_run (by decide)
    · exact List.not_mem_nil
  refine attempt_leavesClose
    (leavesClose_of_not_mem (not_mem_literal (by decide)) _ _) fun _ ↦ ?_
  refine attempt_leavesClose
    (leavesClose_of_not_mem (not_mem_literal (by decide)) _ _) fun _ ↦ ?_
  split
  · trivial
  · exact leavesClose_anyChar notAhead _

private theorem stepAssign_leavesClose (config : Config) (rest : Text) :
    (stepAssign config rest).LeavesClose rest := by
  refine attempt_leavesClose (leavesClose_space rest) fun _ ↦ ?_
  exact attempt_leavesClose
    (leavesClose_of_not_mem (not_mem_literal (by decide)) _ _) fun _ ↦ trivial

private theorem stepAttributeValue_leavesClose (config : Config) (rest : Text) :
    (stepAttributeValue config rest).LeavesClose rest := by
  refine attempt_leavesClose (leavesClose_space rest) fun _ ↦ ?_
  refine attempt_leavesClose (leavesClose_bareValue _) fun _ ↦ ?_
  exact attempt_leavesClose (leavesClose_quoted rest) fun _ ↦ trivial

/-- Whatever is read in a prolog leaves its end alone. -/
theorem step_leavesClose (sound : config.Sound) (prolog : config.inProlog = true)
    (before rest : Text) : (step config before rest).LeavesClose rest := by
  have isTag := sound.isTag_of_inProlog prolog
  cases state : config.state with
  | tag =>
    simp only [step, state]
    exact stepTag_leavesClose prolog rest
  | assign =>
    simp only [step, state]
    exact stepAssign_leavesClose config rest
  | attributeValue =>
    simp only [step, state]
    exact stepAttributeValue_leavesClose config rest
  | _ =>
    rw [state] at isTag
    cases isTag

/-! ### All tokens of a prolog -/

/-- A change of state without a token stays in the prolog, unless other markup is ahead. -/
private theorem inProlog_of_rescan (sound : config.Sound) (prolog : config.inProlog = true)
    (rescans : step config before rest = .rescan next) :
    next.inProlog = true ∨ rest.head? = some '<' := by
  have isTag := sound.isTag_of_inProlog prolog
  have allowed := rescans_of_step rescans
  cases allowed with
  | noAssign | noAttributeValue => exact .inl prolog
  | tagLeft state =>
    simp only [step, state, stepTag, attempt_eq_rescan] at rescans
    exact .inr (head?_of_atMarkup rescans.2.2.2.2.2)
  | noStartTagName state | noEndTagName state | endTagLeft state | noTarget state =>
    rw [state] at isTag
    cases isTag
  | doctypeLeft state =>
    rcases state with ⟨slot, state⟩ | state <;> rw [state] at isTag <;> cases isTag
  | declLeft isDecl =>
    revert isDecl isTag
    cases config.state <;> simp [State.isDecl, State.isTag]

/-- A token stays in the prolog, unless it is an end of it. -/
private theorem Config.Emits.inProlog (emits : config.Emits kind taken next) (sound : config.Sound)
    (prolog : config.inProlog = true) :
    next.inProlog = true ∨
      kind = .prologClose ∨ kind = .startTagClose ∨ kind = .emptyTagClose := by
  have isTag := sound.isTag_of_inProlog prolog
  cases emits with
  | prologClose | startTagClose | emptyTagClose => exact .inr (by decide)
  | prologTarget => exact .inl rfl
  | commentClose state | instructionClose state =>
    rw [state] at isTag
    cases isTag
  | _ => exact .inl prolog

/-- The configuration that reads the next token of a prolog is in the prolog too, unless other
markup is ahead. -/
private theorem inProlog_of_rescans (sound : config.Sound) (prolog : config.inProlog = true)
    (path : Relation.ReflTransGen (fun config next ↦ step config before rest = .rescan next)
      config reading) :
    reading.Sound ∧ (reading.inProlog = true ∨ rest.head? = some '<') := by
  induction path with
  | refl => exact ⟨sound, .inl prolog⟩
  | @tail middle last _ rescans ih =>
    obtain ⟨isSound, inProlog⟩ := ih
    refine ⟨isSound.rescans (rescans_of_step rescans), ?_⟩
    rcases inProlog with inProlog | markup
    · exact inProlog_of_rescan isSound inProlog rescans
    · exact .inr markup

/-- Whether a token of a text leaves the end of the prolog alone, as far as the text shows. -/
def LeavesCloseIn (text : Text) (token : Token) : Prop :=
  (Delimiter.instructionClose <:+: token.text →
      token.kind = .attributeValue ∧ token.IsQuoted) ∧
    (token.text.getLast? = some '?' → text.slice? token.stop (token.stop + 1) = some ['>'] →
      token.kind = .attributeValue ∧ ¬ token.IsQuoted)

/-- From a place in a prolog on, the tokens up to the end of it leave that alone. -/
theorem leavesClose_tokens {text : Text} {scanner : Scanner} {inside after : List Token}
    (stands : scanner.cursor.StandsIn text) (sound : scanner.config.Sound)
    (prolog : scanner.config.inProlog = true) (split : scanner.tokens = inside ++ after)
    (within : ∀ part ∈ inside, ¬ part.EndsProlog) :
    ∀ token ∈ inside, LeavesCloseIn text token := by
  induction inside generalizing scanner with
  | nil => exact List.forall_mem_nil _
  | cons first inside ih =>
    by_cases ahead : scanner.cursor.rest = []
    · rw [tokens_of_rest_nil ahead, next_of_rest_nil ahead] at split
      obtain ⟨rfl, nothing⟩ := List.cons.inj split
      rw [(List.append_eq_nil_iff.1 nothing.symm).1, List.forall_mem_singleton]
      exact ⟨fun occurs ↦ absurd (occurs.subset List.mem_cons_self) List.not_mem_nil, nofun⟩
    · obtain ⟨reading, kind, taken, next, path, reads, nonempty, starts, eq⟩ :=
        read_step scanner.config ahead
      rw [tokens_of_rest_ne_nil ahead, Scanner.next, eq] at split
      obtain ⟨rfl, others⟩ := List.cons.inj split
      obtain ⟨notEnd, within⟩ := List.forall_mem_cons.1 within
      simp only [Token.EndsProlog, not_or] at notEnd
      obtain ⟨notClose, notTagClose, notEmptyTagClose, notMarkup⟩ := notEnd
      obtain ⟨isSound, inProlog⟩ := inProlog_of_rescans sound prolog path
      have inProlog : reading.inProlog = true := by
        refine inProlog.resolve_right fun markup ↦ notMarkup ?_
        obtain ⟨tail, eq⟩ := starts
        rw [← markup, ← eq, List.head?_append_of_ne_nil _ nonempty]
      have emits := step_allowed reading scanner.cursor.before scanner.cursor.rest
      have leaves := step_leavesClose isSound inProlog scanner.cursor.before scanner.cursor.rest
      rw [reads] at emits leaves
      have behind := stands.advance starts
      have sound' : next.Sound := Config.Sound.emits isSound emits
      refine List.forall_mem_cons.2 ⟨⟨fun occurs ↦ ?_, fun isLast close ↦ ?_⟩, ?_⟩
      · exact (leaves.1 occurs).resolve_left notClose
      · exact leaves.2 isLast (behind.head?_rest close)
      · refine @ih ⟨next, _⟩ behind sound' ?_ others within
        rcases Config.Emits.inProlog emits isSound inProlog with inProlog | rfl | rfl | rfl
        · exact inProlog
        · exact absurd rfl notClose
        · exact absurd rfl notTagClose
        · exact absurd rfl notEmptyTagClose

/-- Behind its target a prolog is read. -/
private theorem exists_inProlog {text : Text} {scanner : Scanner} {before after : List Token}
    {target : Token} (stands : scanner.cursor.StandsIn text) (sound : scanner.config.Sound)
    (split : scanner.tokens = before ++ target :: after) (isTarget : target.kind = .prologTarget) :
    ∃ scanner' : Scanner, scanner'.cursor.StandsIn text ∧ scanner'.config.Sound ∧
      scanner'.config.inProlog = true ∧ scanner'.tokens = after := by
  induction before generalizing scanner with
  | nil =>
    by_cases ahead : scanner.cursor.rest = []
    · rw [tokens_of_rest_nil ahead, next_of_rest_nil ahead] at split
      obtain ⟨rfl, -⟩ := List.cons.inj split
      cases isTarget
    · obtain ⟨reading, kind, taken, next, path, emits, -, -, eq⟩ :=
        read_emits scanner.config ahead
      rw [tokens_of_rest_ne_nil ahead] at split
      obtain ⟨isToken, split⟩ := List.cons.inj split
      refine ⟨scanner.next.2, next_standsIn stands, sound_next sound, ?_, split⟩
      rw [Scanner.next, eq] at isToken ⊢
      subst isToken
      obtain rfl : kind = .prologTarget := isTarget
      cases emits with
      | prologTarget => rfl
      | doctypePart _ fills | elementPart _ fills | attlistPart _ fills | entityPart _ fills =>
        cases fills
  | cons first before ih =>
    by_cases ahead : scanner.cursor.rest = []
    · rw [tokens_of_rest_nil ahead] at split
      simp at split
    · rw [tokens_of_rest_ne_nil ahead] at split
      exact ih (next_standsIn stands) (sound_next sound) (List.cons.inj split).2

/-- Between the target of a prolog and the token that ends it, `?>` occurs in quoted values only,
and only a value without quotation marks ends in `?` in front of `>`. -/
theorem leavesClose_tokenize (text : Text) (mode : Mode) {before inside after : List Token}
    {target : Token} (split : tokenize text mode = before ++ target :: (inside ++ after))
    (isTarget : target.kind = .prologTarget) (within : ∀ part ∈ inside, ¬ part.EndsProlog)
    {token : Token} (mem : token ∈ inside) :
    (Delimiter.instructionClose <:+: token.text →
        token.kind = .attributeValue ∧ token.IsQuoted) ∧
      (token.text.getLast? = some '?' → text.slice? token.stop (token.stop + 1) = some ['>'] →
        token.kind = .attributeValue ∧ ¬ token.IsQuoted) := by
  obtain ⟨scanner, stands, sound, prolog, tokens⟩ := exists_inProlog
    (Cursor.atStart_standsIn text) (Config.initial_sound mode) split isTarget
  exact leavesClose_tokens stands sound prolog tokens within token mem

/-- The delimiter in quotation marks, and in front of it a question mark that stands alone. -/
theorem leavesClose_tokenize_quoted :
    let text : Text :=
      ['<', '?', 'x', 'm', 'l', '?', ' ', 'a', '=', '"', '?', '>', '"', '?', '>']
    let value : Token := ⟨.attributeValue, ⟨9, 13⟩, ['"', '?', '>', '"']⟩
    ∃ before inside after target,
      tokenize text .xml = before ++ target :: (inside ++ after) ∧ target.kind = .prologTarget ∧
        (∀ part ∈ inside, ¬ part.EndsProlog) ∧ value ∈ inside ∧
        Delimiter.instructionClose <:+: value.text ∧ value.IsQuoted := by
  intro text value
  let inside : List Token :=
    [⟨.unknown, ⟨5, 6⟩, ['?']⟩, ⟨.whitespace, ⟨6, 7⟩, [' ']⟩, ⟨.attributeName, ⟨7, 8⟩, ['a']⟩,
      ⟨.assign, ⟨8, 9⟩, ['=']⟩, value]
  let target : Token := ⟨.prologTarget, ⟨2, 5⟩, ['x', 'm', 'l']⟩
  have split : tokenize text .xml = [⟨.instructionOpen, ⟨0, 2⟩, ['<', '?']⟩] ++ target ::
      (inside ++ [⟨.prologClose, ⟨13, 15⟩, ['?', '>']⟩, ⟨.eos, ⟨15, 15⟩, []⟩]) := by decide +kernel
  have within : ∀ part ∈ inside, ¬ part.EndsProlog := by decide
  have mem : value ∈ inside := by decide
  have occurs : Delimiter.instructionClose <:+: value.text := by decide
  exact ⟨_, inside, _, target, split, rfl, within, mem, occurs,
    ((leavesClose_tokenize text .xml split rfl within mem).1 occurs).2⟩

/-- A value without quotation marks takes the question mark of the delimiter, and what is left of
that does not end the prolog as its own end. -/
theorem tokenize_bareValueBeforeClose :
    let text : Text := ['<', '?', 'x', 'm', 'l', ' ', 'a', '=', 'b', '?', '>']
    let value : Token := ⟨.attributeValue, ⟨8, 10⟩, ['b', '?']⟩
    ∃ before inside after target,
      tokenize text .xml = before ++ target :: (inside ++ after) ∧ target.kind = .prologTarget ∧
        (∀ part ∈ inside, ¬ part.EndsProlog) ∧ value ∈ inside ∧ ¬ value.IsQuoted ∧
        value.text.getLast? = some '?' ∧
        text.slice? value.stop (value.stop + 1) = some ['>'] := by
  intro text value
  let inside : List Token :=
    [⟨.whitespace, ⟨5, 6⟩, [' ']⟩, ⟨.attributeName, ⟨6, 7⟩, ['a']⟩, ⟨.assign, ⟨7, 8⟩, ['=']⟩,
      value]
  let target : Token := ⟨.prologTarget, ⟨2, 5⟩, ['x', 'm', 'l']⟩
  have split : tokenize text .xml = [⟨.instructionOpen, ⟨0, 2⟩, ['<', '?']⟩] ++ target ::
      (inside ++ [⟨.startTagClose, ⟨10, 11⟩, ['>']⟩, ⟨.eos, ⟨11, 11⟩, []⟩]) := by decide +kernel
  have close : text.slice? value.stop (value.stop + 1) = some ['>'] := by decide +kernel
  exact ⟨_, inside, _, target, split, rfl, by decide, by decide, by decide, rfl, close⟩

end Scanner

end TolerantXml
