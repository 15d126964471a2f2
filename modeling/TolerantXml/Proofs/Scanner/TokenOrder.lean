import Mathlib.Data.List.Basic
import TolerantXml.Proofs.Scanner.Partition
import TolerantXml.Proofs.Scanner.Protocol
import TolerantXml.Proofs.Scanner.Reads

/-!
# Tokens come in the order of the markup protocol

Some tokens do not come where their state would allow them, because of the text ahead: the text of
a comment, of a character data section and of an instruction is read up to the end of the
construct, content is read up to `<`, and a tag that is not closed is left in front of `<`. What is
known behind some tokens is therefore known of the text ahead too (`Config.Behind`). Every step
keeps it, so every token of a text may come behind those before it (`mayFollow_tokenize`).
-/

namespace TolerantXml.Scanner

open Lexeme

/-! ### Where text ends -/

section Text

variable {config next : Config} {kind : TokenKind} {before rest taken pattern : Text}

/-- The text that a fixed text ends is read up to that. -/
private theorem taken_eq_upTo (reads : step config before rest = .emit kind taken next)
    (closing : kind.closing? = some pattern) : taken = upTo pattern rest := by
  have allowed := emits_of_step reads
  cases kind with
  | comment =>
    have state : config.state = .comment := allowed.state_eq rfl
    simp only [step, state, stepComment] at reads
    obtain ⟨-, reads⟩ := eq_nil_of_attempt_eq (by decide) reads
    cases reads
    cases closing
    rfl
  | cdata =>
    have state : config.state = .cdata := allowed.state_eq rfl
    simp only [step, state, stepCdata] at reads
    obtain ⟨-, reads⟩ := eq_nil_of_attempt_eq (by decide) reads
    cases reads
    cases closing
    rfl
  | instructionData =>
    have state : config.state = .instructionData := allowed.state_eq rfl
    simp only [step, state, stepInstructionData] at reads
    obtain ⟨-, reads⟩ := eq_nil_of_attempt_eq (by decide) reads
    obtain ⟨-, reads⟩ := eq_nil_of_attempt_eq (by decide) reads
    cases reads
    cases closing
    rfl
  | _ => cases closing

/-- Content is read up to `<`. -/
private theorem taken_eq_run (reads : step config before rest = .emit .content taken next) :
    taken = run (· != '<') rest := by
  have allowed := emits_of_step reads
  have state : config.state = .content := Config.Emits.state_eq allowed rfl
  simp only [step, state, stepContent] at reads
  obtain ⟨-, reads⟩ := eq_nil_of_attempt_eq (by decide) reads
  obtain ⟨-, reads⟩ := eq_nil_of_attempt_eq (by decide) reads
  obtain ⟨-, reads⟩ := eq_nil_of_attempt_eq (by decide) reads
  obtain ⟨-, reads⟩ := eq_nil_of_attempt_eq (by decide) reads
  obtain ⟨-, reads⟩ := eq_nil_of_attempt_eq (by decide) reads
  obtain ⟨-, reads⟩ := eq_nil_of_attempt_eq (by decide) reads
  cases reads
  rfl

theorem upTo_drop_upTo (pattern rest : Text) :
    upTo pattern (rest.drop (upTo pattern rest).length) = [] := by
  induction rest with
  | nil => rfl
  | cons c rest ih =>
    rw [upTo]
    split
    · next isAhead => rw [List.length_nil, List.drop_zero, upTo, if_pos isAhead]
    · exact ih

theorem exists_append_of_upTo_eq_nil (ahead : rest ≠ []) (ended : upTo pattern rest = []) :
    ∃ tail, rest = pattern ++ tail := by
  cases rest with
  | nil => exact absurd rfl ahead
  | cons c rest =>
    rw [upTo] at ended
    split at ended
    · next isAhead =>
      obtain ⟨tail, eq⟩ := List.isPrefixOf_iff_prefix.1 isAhead
      exact ⟨tail, eq.symm⟩
    · cases ended

/-- Where the fixed text is ahead that ends what came last, only that is read. -/
private theorem successors?_of_ended {last : TokenKind}
    (reads : step config before rest = .emit kind taken next) (ahead : rest ≠ [])
    (leads : ∀ states, last.states? = some states → config.state ∈ states)
    (closing : last.closing? = some pattern) (ended : upTo pattern rest = []) (inside : Bool) :
    last.successors? inside = some [kind] := by
  obtain ⟨tail, rfl⟩ := exists_append_of_upTo_eq_nil ahead ended
  cases last with
  | comment =>
    cases closing
    rw [step_commentClose (List.mem_singleton.1 (leads _ rfl))] at reads
    cases reads
    rfl
  | cdata =>
    cases closing
    rw [step_cdataClose (List.mem_singleton.1 (leads _ rfl))] at reads
    cases reads
    rfl
  | instructionData =>
    cases closing
    rw [step_instructionClose (List.mem_singleton.1 (leads _ rfl))] at reads
    cases reads
    rfl
  | _ => cases closing

end Text

namespace Config

/-- What is known of a configuration and the text ahead behind tokens of some kinds. -/
structure Behind (config : Config) (mode : Mode) (passed : List TokenKind) (rest : Text) : Prop
    extends config.Follows mode passed where
  ended : ∀ last ∈ passed.head?, ∀ pattern, last.closing? = some pattern → upTo pattern rest = []
  atMarkup : config.state = .content → ∀ last ∈ passed.head?, last.endsAtMarkup = true →
    ∀ c ∈ rest.head?, c = '<'

private theorem initial_behind (mode : Mode) (text : Text) :
    (initial mode).Behind mode [] text where
  sound := initial_sound mode
  withinSubset_iff := by
    cases mode <;> simp [WithinSubset, initial, State.initial, TokenKind.leadIntoSubset]
  opened kinds known := by cases mode <;> cases known
  leads last isLast := by cases isLast
  inTag isTag := by cases mode <;> cases isTag
  inProlog isTag := by cases mode <;> cases isTag
  ended last isLast := by cases isLast
  atMarkup _ last isLast := by cases isLast

namespace Behind

variable {config next : Config} {mode : Mode} {passed : List TokenKind} {kind : TokenKind}
  {before rest taken : Text} (h : config.Behind mode passed rest)
include h

private theorem rescans (reads : step config before rest = .rescan next) :
    next.Behind mode passed rest := by
  have allowed := rescans_of_step reads
  refine ⟨h.toFollows.rescans allowed, h.ended, fun content last isLast atMarkup c isHead ↦ ?_⟩
  have ahead : rest.head? = some '<' := by
    cases allowed with
    | tagLeft eq =>
      simp only [step, eq, stepTag, attempt_eq_rescan] at reads
      exact head?_of_atMarkup reads.2.2.2.2.2
    | endTagLeft eq =>
      simp only [step, eq, stepEndTag, attempt_eq_rescan] at reads
      exact head?_of_atMarkup reads.2.2
    | doctypeLeft eq =>
      have leads := h.leads last isLast
      rcases eq with ⟨slot, eq⟩ | eq <;> rw [eq] at leads <;> revert atMarkup leads <;>
        cases last <;> simp [TokenKind.endsAtMarkup, TokenKind.states?]
    | _ => cases content
  rw [ahead] at isHead
  exact (Option.some.inj isHead).symm

private theorem filler (reads : step config before rest = .emit kind taken next) (ahead : rest ≠ [])
    (isFiller : kind.isFiller = true) : next.Behind mode passed (rest.drop taken.length) := by
  have allowed := emits_of_step reads
  refine ⟨h.toFollows.filler allowed isFiller, fun last isLast pattern closing ↦ ?_,
    fun content ↦ ?_⟩
  · have only := successors?_of_ended reads ahead (h.leads last isLast) closing
      (h.ended last isLast pattern closing) false
    cases last with
    | comment | cdata | instructionData =>
      cases only
      cases isFiller
    | _ => cases closing
  · -- No filler is read in element content.
    exfalso
    cases allowed with
    | space skips =>
      rw [content] at skips
      cases skips
    | tagSpace eq => rcases eq with eq | eq <;> cases eq.symm.trans content
    | tagUnknown eq | endTagUnknown eq => cases eq.symm.trans content
    | startTagUnknown | endTagNameUnknown => cases content
    | doctypePart _ fills | elementPart _ fills | attlistPart _ fills | entityPart _ fills =>
      cases fills <;> cases isFiller
    | _ => cases isFiller

private theorem emits (reads : step config before rest = .emit kind taken next)
    (notFiller : kind.isFiller = false) :
    next.Behind mode (kind :: passed) (rest.drop taken.length) := by
  have allowed := emits_of_step reads
  refine ⟨h.toFollows.emits allowed notFiller, fun last isLast pattern closing ↦ ?_,
    fun content last isLast atMarkup c isHead ↦ ?_⟩
  · obtain rfl : kind = last := Option.some.inj isLast
    rw [taken_eq_upTo reads closing]
    exact upTo_drop_upTo pattern rest
  · obtain rfl : kind = last := Option.some.inj isLast
    cases kind with
    | content =>
      rw [taken_eq_run reads] at isHead
      simpa using eq_of_mem_head?_drop_run isHead
    | startTagOpen | startTag | attributeName | assign | attributeValue | prologTarget | endTagOpen
    | endTag => cases allowed <;> cases content
    | _ => cases atMarkup

private theorem outside_of_content (content : config.state = .content) :
    TokenKind.leadIntoSubset mode passed = false := by
  have inSubset := h.withinSubset_iff
  simp only [WithinSubset, content, false_iff, Bool.not_eq_true] at inSubset
  exact inSubset

private theorem inside_of_subset (subset : config.state = .subset) :
    TokenKind.leadIntoSubset mode passed = true := by
  have inSubset := h.withinSubset_iff
  simp only [WithinSubset, subset, true_iff] at inSubset
  exact inSubset

/-- A token that has to come behind one of some kinds does. -/
private theorem mem_predecessors (reads : step config before rest = .emit kind taken next)
    (ahead : rest ≠ []) {kinds : List TokenKind} (known : kind.predecessors? = some kinds) :
    ∃ last ∈ passed.head?, last ∈ kinds := by
  have allowed := emits_of_step reads
  have opened {state : State} {openers : List TokenKind} (only : kind.state? = some state)
      (isOpener : state.openers? = some openers) : ∃ last ∈ passed.head?, last ∈ openers :=
    h.opened _ (by rw [allowed.state_eq only, isOpener])
  have ended {last : TokenKind} {pattern : Text} (isLast : last ∈ passed.head?)
      (closing : last.closing? = some pattern) : last.successors? false = some [kind] :=
    successors?_of_ended reads ahead (h.leads last isLast) closing
      (h.ended last isLast pattern closing) false
  cases kind with
  | startTag | assign | attributeValue | endTag | prologTarget | instructionTarget =>
    cases known
    exact opened rfl rfl
  | endTagClose | commentClose | cdataClose | instructionClose =>
    cases known
    obtain ⟨last, isLast, mem⟩ := opened rfl rfl
    refine ⟨last, isLast, ?_⟩
    revert mem
    simp +contextual [or_imp]
  -- Behind the text of a construct only its end is ahead, and no other text of it.
  | comment | cdata =>
    cases known
    obtain ⟨last, isLast, mem⟩ := opened rfl rfl
    rcases List.mem_pair.1 mem with rfl | rfl
    · exact ⟨_, isLast, List.mem_cons_self⟩
    · cases ended isLast rfl
  | instructionData =>
    cases known
    obtain ⟨last, isLast, mem⟩ := opened rfl rfl
    rcases List.mem_cons.1 mem with rfl | mem
    · exact ⟨_, isLast, List.mem_cons_of_mem _ List.mem_cons_self⟩
    · rcases List.mem_pair.1 mem with rfl | rfl
      · exact ⟨_, isLast, List.mem_cons_self⟩
      · cases ended isLast rfl
  | _ => cases known

/-- A token that comes directly behind another one may come there. -/
private theorem mem_successors (reads : step config before rest = .emit kind taken next)
    (ahead : rest ≠ []) (nonempty : taken ≠ []) (notFiller : kind.isFiller = false)
    {last : TokenKind} (isLast : last ∈ passed.head?) {kinds : List TokenKind}
    (known : last.successors? (TokenKind.leadIntoSubset mode passed) = some kinds) :
    kind ∈ kinds := by
  have allowed := emits_of_step reads
  cases closing : last.closing? with
  | some pattern =>
    have only := successors?_of_ended reads ahead (h.leads last isLast) closing
      (h.ended last isLast pattern closing) (TokenKind.leadIntoSubset mode passed)
    rw [known] at only
    cases only
    exact List.mem_singleton.2 rfl
  | none =>
    obtain ⟨states, leads⟩ : ∃ states, last.states? = some states := by
      revert known
      cases last <;> first | exact fun _ ↦ ⟨_, rfl⟩ | rintro ⟨⟩
    have state := h.leads last isLast states leads
    obtain ⟨kinds', reads', mem⟩ := State.exists_kinds leads known closing state
      h.outside_of_content h.inside_of_subset
    rcases mem kind (allowed.mem_kinds reads' notFiller) with mem | ⟨rfl, atMarkup⟩
    · exact mem
    · -- Content does not start with `<`.
      have content : config.state = .content := allowed.state_eq rfl
      obtain ⟨c, tail, rfl⟩ := List.exists_cons_of_ne_nil ahead
      obtain rfl := h.atMarkup content last isLast atMarkup c rfl
      exact absurd (taken_eq_run reads) nonempty

/-- Whatever is read may come behind what came before it. -/
private theorem mayFollow (reads : step config before rest = .emit kind taken next)
    (ahead : rest ≠ []) (nonempty : taken ≠ []) (notFiller : kind.isFiller = false) :
    kind.MayFollow mode passed := by
  have allowed := emits_of_step reads
  constructor
  · exact fun _ known ↦ h.mem_predecessors reads ahead known
  · exact fun _ isLast _ known ↦
      .inl (h.mem_successors reads ahead nonempty notFiller isLast known)
  · intro inTag
    have state : config.state = .tag := by
      cases kind with
      | attributeName | startTagClose | emptyTagClose => exact allowed.state_eq rfl
      | _ => cases inTag
    have isTag : config.state.isTag = true := by rw [state]; rfl
    cases prolog : config.inProlog with
    | false => exact .inl (h.inTag isTag prolog)
    | true => exact .inr (TokenKind.find?_isTagPart (h.inProlog isTag prolog))
  · rintro rfl
    have isTag : config.state.isTag = true := by
      rw [allowed.state_eq (show TokenKind.prologClose.state? = some .tag from rfl)]
      rfl
    cases allowed with
    | prologClose _ prolog => exact h.inProlog isTag prolog
    | doctypePart _ fills | elementPart _ fills | attlistPart _ fills | entityPart _ fills =>
      cases fills
  · intro inside known
    cases kind with
    | elementDeclOpen | attlistOpen | entityOpen | subsetClose =>
      cases known
      exact h.inside_of_subset (allowed.state_eq rfl)
    | content | startTagOpen | endTagOpen | cdataOpen | doctypeOpen =>
      cases known
      exact h.outside_of_content (allowed.state_eq rfl)
    | _ => cases known

end Behind

end Config

/-! ### All tokens -/

/-- The kinds of tokens that say something of the markup. -/
def markupKinds (tokens : List Token) : List TokenKind :=
  (tokens.map Token.kind).filter (!·.isFiller)

theorem markupKinds_cons (token : Token) (tokens : List Token) :
    markupKinds (token :: tokens) =
      if token.kind.isFiller then markupKinds tokens else token.kind :: markupKinds tokens := by
  rw [markupKinds, List.map_cons, List.filter_cons]
  cases token.kind.isFiller <;> rfl

/-- From any place in a text on, every token may come behind those before it. -/
theorem mayFollow_tokens {scanner : Scanner} {mode : Mode} {passed earlier later : List TokenKind}
    {kind : TokenKind} (h : scanner.config.Behind mode passed scanner.cursor.rest)
    (split : markupKinds scanner.tokens = earlier ++ kind :: later) :
    kind.MayFollow mode (earlier.reverse ++ passed) := by
  induction size : scanner.cursor.rest.length using Nat.strongRecOn
    generalizing scanner passed earlier with
  | ind size ih =>
    by_cases ahead : scanner.cursor.rest = []
    · rw [tokens_of_rest_nil ahead, next_of_rest_nil ahead] at split
      have only : [TokenKind.eos] = earlier ++ kind :: later := split
      have isEnd : kind ∈ [TokenKind.eos] := by
        rw [only]
        exact List.mem_append_right _ List.mem_cons_self
      rw [List.mem_singleton.1 isEnd]
      exact TokenKind.mayFollow_eos mode _
    · have less := read_rest_length_lt scanner.config scanner.cursor ahead
      obtain ⟨reading, read, taken, next, path, reads, nonempty, -, eq⟩ :=
        read_step scanner.config ahead
      have behind : reading.Behind mode passed scanner.cursor.rest := by
        clear reads eq
        induction path with
        | refl => exact h
        | tail _ rescans ih => exact ih.rescans rescans
      rw [tokens_of_rest_ne_nil ahead, markupKinds_cons, Scanner.next, eq] at split
      rw [eq] at less
      cases isFiller : read.isFiller with
      | true =>
        rw [isFiller, if_pos rfl] at split
        exact ih _ (size ▸ less) (behind.filler reads ahead isFiller) split rfl
      | false =>
        rw [isFiller, if_neg Bool.false_ne_true] at split
        rcases List.append_eq_cons_iff.1 split.symm with ⟨rfl, same⟩ | ⟨earlier, rfl, same⟩
        · obtain ⟨rfl, -⟩ := List.cons.inj same
          exact behind.mayFollow reads ahead nonempty isFiller
        · have later := ih _ (size ▸ less) (behind.emits reads isFiller) same rfl
          rwa [List.reverse_cons, List.append_assoc]

/-- In the tokens of a text, fillers aside, every token may come behind those before it. -/
theorem mayFollow_tokenize (text : Text) (mode : Mode) {earlier later : List TokenKind}
    {kind : TokenKind} (split : markupKinds (tokenize text mode) = earlier ++ kind :: later) :
    kind.MayFollow mode earlier.reverse := by
  have follows := mayFollow_tokens (Config.initial_behind mode text) split
  rwa [List.append_nil] at follows

/-- The end of a start tag, behind an attribute and text that has no place in the tag. -/
theorem mayFollow_tokenize_startTagClose :
    let text : Text := ['<', 'a', ' ', 'b', '=', '"', 'c', '"', '?', '>']
    let earlier : List TokenKind :=
      [.startTagOpen, .startTag, .attributeName, .assign, .attributeValue]
    markupKinds (tokenize text .xml) = earlier ++ .startTagClose :: [.eos] ∧
      TokenKind.MayFollow .xml earlier.reverse .startTagClose := by
  intro text earlier
  have split : markupKinds (tokenize text .xml) = earlier ++ .startTagClose :: [.eos] := by
    decide +kernel
  exact ⟨split, mayFollow_tokenize text .xml split⟩

end TolerantXml.Scanner
