import TolerantXml.Proofs.Reading.Attributes
import TolerantXml.Proofs.Scanner.Lexeme
import TolerantXml.Proofs.Tree.ElementTags
import TolerantXml.Proofs.Tree.Quoted

/-!
# What is recorded is what the text has

Whatever is recorded of attributes and declarations is recorded with its place in the text, and it
is what stands there (`quotesText_parse`). The name of an element is recorded without its place. It
stands right behind the opening of its start tag and white space (`Text.NamedAt`): in front of the
name, nothing but white space is read (`Reading.Quoted.beforeName`).
-/

namespace TolerantXml

/-- Whether a tag that opens at a place of a text has a name: all characters of a name that stand
behind `<`, and behind white space if there is any. -/
def Text.NamedAt (text : Text) (place : Nat) (name : Text) : Prop :=
  ∃ before rest, text = before ++ '<' :: rest ∧ before.byteSize = place ∧
    name = (rest.dropWhile isSpace).takeWhile isNameChar

namespace Scanner

open Lexeme

variable {config next : Config} {before rest taken : Text} {kind : TokenKind}

/-- No white space is in front of what starts a name. -/
private theorem dropWhile_isSpace_of_isNameStart (isStart : rest.head?.any isNameStart = true) :
    rest.dropWhile isSpace = rest := by
  cases rest with
  | nil => rfl
  | cons c rest =>
    rw [List.dropWhile_cons_of_neg]
    intro isSpace
    have notName := isNameChar_eq_false (c := c) (by rw [isSpace, Bool.or_true])
    rw [isNameChar_of_isNameStart isStart] at notName
    cases notName

/-- In front of the name of a start tag, white space and the name are read. -/
private theorem taken_of_startTagName (state : config.state = .startTagName)
    (reads : step config before rest = .emit kind taken next) :
    (kind = .whitespace → taken = space rest) ∧
      (kind = .startTag → taken = rest.takeWhile isNameChar ∧ rest.dropWhile isSpace = rest) := by
  simp only [step, state, stepStartTagName] at reads
  rcases cases_of_attempt_eq reads with ⟨isRead, rfl, rfl, -⟩ | ⟨-, reads⟩
  · refine ⟨by rintro ⟨⟩, fun _ ↦ ?_⟩
    rw [name] at isRead ⊢
    split at isRead
    · next isStart => exact ⟨if_pos isStart, dropWhile_isSpace_of_isNameStart isStart⟩
    · exact absurd rfl isRead
  rcases cases_of_attempt_eq reads with ⟨-, rfl, rfl, -⟩ | ⟨-, reads⟩
  · exact ⟨fun _ ↦ rfl, by rintro ⟨⟩⟩
  rcases cases_of_attempt_eq reads with ⟨-, rfl, -⟩ | ⟨-, reads⟩
  · exact ⟨by rintro ⟨⟩, by rintro ⟨⟩⟩
  · cases reads

end Scanner

namespace Reading

variable {text uri : Text} {mode : Mode} {r : Reading} {token : Token} {next : Scanner.Config}
  {id place : Nat} {name : Text} {e e' : Element}

/-- What holds in a reading of a text of what is recorded. -/
structure Quoted (text : Text) (mode : Mode) (r : Reading) : Prop where
  nested : r.Nested text mode
  quotes : ∀ id, (r.builder.doc.node id).kind.Quotes text r.scanner.cursor.offset
  beforeName : r.scanner.config.state = .startTagName → ∃ before spaces,
    text = before ++ '<' :: (spaces ++ r.scanner.cursor.rest) ∧ spaces.all isSpace = true ∧
      ∀ e place, r.builder.currentNode.kind = .element e → e.startTagOpen = some place →
        before.byteSize = place
  named : ∀ id e place name, (r.builder.doc.node id).kind = .element e →
    e.startTagOpen = some place → e.tagName = some name → text.NamedAt place name

private theorem start_quoted (text uri : Text) (mode : Mode) :
    Quoted text mode (start text uri mode) where
  nested := start_nested text uri mode
  quotes id := by
    rw [start]
    rcases Builder.kind_start text uri mode id with isRoot | ⟨-, -, isDoctype⟩
    · rw [isRoot]
      exact NodeKind.quotes_of_nil rfl rfl rfl rfl rfl text _
    · rw [isDoctype]
      exact NodeKind.quotes_of_nil rfl rfl rfl rfl rfl text _
  beforeName state := by cases mode <;> cases state
  named id e _ _ isElement := absurd isElement (Builder.kind_start_ne_element text uri mode id e)

namespace Quoted

private theorem rescans (h : Quoted text mode r) (rescans : r.scanner.config.Rescans next) :
    Quoted text mode ⟨⟨next, r.scanner.cursor⟩, r.builder⟩ :=
  { h with
    nested := h.nested.rescans rescans
    beforeName state := absurd state (rescans.ne_nameState h.nested.inStep.sound .opening) }

section Reads

variable (h : Quoted text mode r) (emits : r.Emits token next)
include h emits

private theorem quotes_apply (id : Nat) :
    ((r.builder.apply token).doc.node id).kind.Quotes text token.stop := by
  have standsIn := h.nested.standsIn
  have atStart := emits.start_eq
  have atStop := emits.stop_eq
  have size := emits.byteSize_pos
  have covers : token.span.Covers text token.text := emits.span ▸ standsIn.slice?_eq emits.starts
  have kept (kind : NodeKind) (quotes : kind.Quotes text token.start) :
      kind.Quotes text token.stop := quotes.mono (by omega)
  have rewritten (kind : NodeKind) (quotes : kind.Quotes text token.start) :
      (r.builder.rewrite token kind).Quotes text token.stop :=
    quotes.rewrite covers (by omega) r.builder
  have added : (r.builder.added token).Quotes text token.stop := by
    obtain ⟨tail, rest⟩ := emits.starts
    have isPassed : Text.byteSize r.scanner.cursor.before.reverse = r.scanner.cursor.offset := by
      rw [Text.byteSize_reverse, standsIn.offset_eq]
    have split : text = r.scanner.cursor.before.reverse ++ (token.text ++ tail) := by
      rw [rest]
      exact standsIn.text_eq.symm
    exact Builder.quotes_added h.nested.spans.text_eq split (atStart.trans isPassed.symm)
      (isPassed ▸ atStop) fun keyword ↦ emits.transition.eq_of_declares?
  have outside : NodeKind.document.Quotes text token.stop :=
    NodeKind.quotes_of_nil rfl rfl rfl rfl rfl text token.stop
  exact Builder.forall_kind_apply h.nested.inStep.linked kept rewritten added outside
    (fun id ↦ atStart ▸ h.quotes id) id

variable (reads : Scanner.step r.scanner.config r.scanner.cursor.before r.scanner.cursor.rest =
  .emit token.kind token.text next)
include reads

private theorem beforeName_apply (state : next.state = .startTagName) : ∃ before spaces,
    text = before ++ '<' :: (spaces ++ (r.scanner.cursor.advance token.text).rest) ∧
      spaces.all isSpace = true ∧
      ∀ e place, (r.builder.apply token).currentNode.kind = .element e →
        e.startTagOpen = some place → before.byteSize = place := by
  have standsIn := h.nested.standsIn
  have linked := h.nested.inStep.linked
  have sound := h.nested.inStep.sound
  have rest := Cursor.rest_advance emits.starts
  rcases emits.transition.cases_of_nameState sound .opening state with
    ⟨kind, bracket⟩ | ⟨before, kind⟩
  · -- The tag opens here, so the current node is a new element.
    refine ⟨r.scanner.cursor.before.reverse, [], ?_, rfl, ?_⟩
    · rw [← standsIn.text_eq, Cursor.text, ← rest, bracket]
      rfl
    · intro e place isElement isPlace
      have opens : (token.kind.opensTag : Bool) = true := by rw [kind]; rfl
      have isNew := (Builder.tagOpening_of_opensTag linked opens).1
      rw [Builder.currentNode, isNew] at isElement
      rcases Builder.element_cases linked isElement with ⟨lt, -⟩ | ⟨-, added⟩
      · exact absurd lt (Nat.lt_irrefl _)
      · cases added with
        | startTag =>
          rw [Text.byteSize_reverse, ← standsIn.offset_eq, ← Option.some.inj isPlace,
            emits.start_eq]
        | endTag => cases isPlace
  · obtain ⟨first, spaces, isText, isSpaces, isPlace⟩ := h.beforeName before
    have isSpace := (Scanner.taken_of_startTagName before reads).1 kind
    refine ⟨first, spaces ++ token.text, ?_, ?_, ?_⟩
    · rw [List.append_assoc, rest]
      exact isText
    · rw [List.all_append, isSpaces, isSpace]
      exact List.all_takeWhile
    · simp only [Builder.apply, kind]
      exact isPlace

private theorem named_apply (isElement : ((r.builder.apply token).doc.node id).kind = .element e')
    (startTagOpen : e'.startTagOpen = some place) (tagName : e'.tagName = some name) :
    text.NamedAt place name := by
  have linked := h.nested.inStep.linked
  rcases Builder.element_cases linked isElement with ⟨-, e, isOld, takes⟩ | ⟨-, added⟩
  · rw [takes.startTagOpen_eq] at startTagOpen
    rcases takes.tagName_cases with same | ⟨kind, rfl, rfl⟩
    · exact h.named id e place name isOld startTagOpen (same.symm.trans tagName)
    · have state : r.scanner.config.state = .startTagName :=
        emits.transition.state_of_kind kind rfl
      obtain ⟨first, spaces, isText, isSpaces, isPlace⟩ := h.beforeName state
      obtain ⟨taken, noSpace⟩ := (Scanner.taken_of_startTagName state reads).2 kind
      refine ⟨first, _, isText, isPlace e place isOld startTagOpen, ?_⟩
      rw [List.dropWhile_append_of_pos (List.all_eq_true.1 isSpaces), noSpace, ← taken]
      exact (Option.some.inj tagName).symm
  · cases added with
    | startTag => cases tagName
    | endTag => cases startTagOpen

end Reads

private theorem reads (h : Quoted text mode r)
    (emits : r.Emits token next)
    (reads : Scanner.step r.scanner.config r.scanner.cursor.before r.scanner.cursor.rest =
      .emit token.kind token.text next) :
    Quoted text mode ⟨⟨next, r.scanner.cursor.advance token.text⟩, r.builder.apply token⟩ where
  nested := h.nested.emits emits
  quotes id := by
    have stop : (r.scanner.cursor.advance token.text).offset = token.stop := emits.stop_eq.symm
    exact stop ▸ h.quotes_apply emits id
  beforeName := h.beforeName_apply emits reads
  named _ _ _ _ := h.named_apply emits reads

end Quoted

end Reading

/-! ### Documents -/

/-- Whether what a node records is what stands in the text of a document. -/
structure Document.QuotesText (doc : Document) (id : Nat) : Prop where
  attributes : ∀ attr ∈ doc.attributes id, attr.Quotes doc.text
  keyword : (doc.node id).kind.keyword?.map (·.value) = (doc.frame id).keyword?
  parameters : ∀ parameter, parameter ∈ (doc.node id).kind.pieces ∨
    parameter ∈ (doc.node id).kind.parts → parameter.span.Covers doc.text parameter.value
  nonempty : ∀ parameter ∈ (doc.node id).kind.pieces, parameter.span.start < parameter.span.stop
  ordered : (doc.node id).kind.pieces.Pairwise fun first second ↦
    first.span.stop ≤ second.span.start
  tagName : ∀ e place name, (doc.node id).kind = .element e → e.startTagOpen = some place →
    e.tagName = some name → doc.text.NamedAt place name

/-- What is recorded with its place is what stands there in the text. The parameters of a document
type or a declaration come one behind the other, with the keyword of the declaration in front. An
element with a start tag has the name that comes behind the opening of that tag. -/
theorem quotesText_parse (text uri : Text) (mode : Mode) (id : Nat) :
    (Document.parse text uri mode).QuotesText id := by
  obtain ⟨n, passed, last, atEnd, -, quoted⟩ :=
    @Reading.exists_atEnd_of_steps (Reading.start text uri mode)
      (fun _ r ↦ Reading.Quoted text mode r) []
      (fun _ _ _ h reads ↦ h.rescans (Scanner.rescans_of_step reads))
      (fun _ _ _ _ h ↦ h.reads)
      (Reading.start_quoted text uri mode)
  have finish := Reading.parse_eq_finish atEnd
  generalize (Reading.start text uri mode).after n = r at atEnd quoted finish
  have isText : r.builder.finish.text = text := (quoted.nested.finish atEnd).1
  have kind := (Builder.kind_finish r.builder id).1
  have quotes := quoted.quotes id
  rw [finish]
  constructor
  case attributes =>
    rw [isText, Document.attributes, kind]
    exact quotes.attributes
  case keyword =>
    rw [Document.frame, kind]
    exact quotes.keyword
  case parameters =>
    rw [isText, kind]
    rintro parameter (mem | mem)
    · exact quotes.pieces.covers parameter mem
    · exact quotes.pieces.covers parameter
        (List.mem_append_right _ (quotes.lists parameter mem))
  case nonempty =>
    rw [kind]
    exact quotes.pieces.nonempty
  case ordered =>
    rw [kind]
    exact quotes.pieces.ordered
  case tagName =>
    rw [isText, kind]
    exact fun e place name ↦ quoted.named id e place name

/-- A type goes to the place of the keyword `NOTATION`, which stays among the parameters. -/
example :
    let text : Text := ['<', '!', 'A', 'T', 'T', 'L', 'I', 'S', 'T', ' ', 'a', ' ', 'b', ' ', 'N',
      'O', 'T', 'A', 'T', 'I', 'O', 'N', ' ', '(', 'c', ')', '>']
    let kind := ((Document.parse text [] .dtd).node 2).kind
    kind.pieces.map (·.span) = [⟨2, 9⟩, ⟨10, 11⟩, ⟨12, 13⟩, ⟨14, 22⟩, ⟨23, 26⟩] ∧
      kind.listed.map (·.type) = [some ⟨⟨23, 26⟩, ['(', 'c', ')']⟩] := by decide +kernel

end TolerantXml
