import TolerantXml.Proofs.Reading.TagTokens
import TolerantXml.Proofs.Text.Positions
import TolerantXml.Tree.TagPartner

/-!
# Partner tags

The partner of a place is looked for right behind the delimiters of the two tags of an element, as
far as the name of the start tag is long (`Element.exists_records`). White space before a name is
taken for the name, and so is what comes behind the name of an end tag that is shorter: tags match
when their names are the same but for letter case. Where there is no such difference, a partner is
at the same distance from the start of the other name (`tagPartner_parse`). Only where the name of
the end tag is shorter, a partner may be behind the end of the text (`tagPartner_parse_isOk_or`).
-/

namespace TolerantXml

/-- The delimiters and the names of two tags. -/
structure TagTokens where
  startOpen : Token
  startName : Token
  endOpen : Token
  endName : Token

/-- Whether an element records two tags that are among some tokens. -/
structure Element.Records (e : Element) (tokens : List Token) (tags : TagTokens) : Prop where
  startTag : TagSide.opening.Names tokens tags.startOpen tags.startName
  endTag : TagSide.closing.Names tokens tags.endOpen tags.endName
  startTagOpen : e.startTagOpen = some tags.startOpen.start
  tagName : e.tagName = some tags.startName.text
  endTagOpen : e.endTagOpen = some tags.endOpen.start
  alike : sameTagName tags.startName.text tags.endName.text = true

/-- Whether two offsets are at the same distance from the delimiters of two tags, and no further
than the name of the start tag is long. -/
def TagTokens.LookedUp (tags : TagTokens) (offset offset' : Nat) : Prop :=
  ∃ distance ≤ tags.startName.text.byteSize,
    offset = tags.startOpen.stop + distance ∧ offset' = tags.endOpen.stop + distance ∨
      offset = tags.endOpen.stop + distance ∧ offset' = tags.startOpen.stop + distance

/-- Whether an offset is in a token or right behind it, and another offset is at the same distance
from the start of another token. -/
def Token.Mirrors (first second : Token) (offset offset' : Nat) : Prop :=
  ∃ distance, offset = first.start + distance ∧ offset ≤ first.stop ∧
    offset' = second.start + distance

variable {text uri : Text} {mode : Mode} {doc : Document} {e : Element} {tags : TagTokens}
  {id offset partner : Nat} {position : Position}

namespace Element

/-- A partner is as far behind the place where the name of the other tag is looked for. -/
theorem partnerOffset_eq_some (h : e.partnerOffset offset = some partner) :
    ∃ name startTag endTag, e.tagName = some name ∧ e.startTagOpen = some startTag ∧
      e.endTagOpen = some endTag ∧ ∃ distance ≤ name.byteSize,
        offset = startTag + 1 + distance ∧ partner = endTag + 2 + distance ∨
          offset = endTag + 2 + distance ∧ partner = startTag + 1 + distance := by
  unfold partnerOffset at h
  split at h
  · next name _ startTag _ endTag _ =>
    refine ⟨name, startTag, endTag, rfl, rfl, rfl, ?_⟩
    simp only at h
    split at h
    · have isPartner := Option.some.inj h
      exact ⟨offset - (startTag + 1), by omega, .inl ⟨by omega, isPartner.symm⟩⟩
    · split at h
      · have isPartner := Option.some.inj h
        exact ⟨offset - (endTag + 2), by omega, .inr ⟨by omega, isPartner.symm⟩⟩
      · cases h
  · cases h

/-- A place with a partner is right behind the delimiter of a tag that is read in the text, at most
as far as the name of the start tag is long. -/
theorem exists_records (kind : ((Document.parse text uri mode).node id).kind = .element e)
    (h : e.partnerOffset offset = some partner) :
    ∃ tags, e.Records (Scanner.tokenize text mode) tags ∧ tags.LookedUp offset partner := by
  obtain ⟨name, _, _, tagName, startTagOpen, endTagOpen, lookedUp⟩ := partnerOffset_eq_some h
  obtain ⟨startTags, endTags⟩ := tags_parse text uri mode kind
  obtain ⟨startOpen, startName, startTag, rfl, rfl⟩ := startTags _ name startTagOpen tagName
  obtain ⟨_, endOpen, endName, sameName, endTag, rfl, alike⟩ := endTags _ endTagOpen
  rw [Option.some.inj (sameName.symm.trans tagName)] at alike
  have startStop : startOpen.stop = startOpen.start + 1 := startTag.bounds.1
  have endStop : endOpen.stop = endOpen.start + 2 := endTag.bounds.1
  rw [← startStop, ← endStop] at lookedUp
  exact ⟨⟨startOpen, startName, endOpen, endName⟩,
    ⟨startTag, endTag, startTagOpen, tagName, endTagOpen, alike⟩, lookedUp⟩

namespace Records

variable (h : e.Records (Scanner.tokenize text mode) tags)
include h

/-- A partner is in the text, unless it is looked for behind the name of the end tag. -/
private theorem le_byteSize_or (lookedUp : tags.LookedUp offset partner) :
    partner ≤ text.byteSize ∨ ∃ distance ≤ tags.startName.text.byteSize,
      tags.endName.text.byteSize < distance ∧ offset = tags.startOpen.stop + distance ∧
        partner = tags.endOpen.stop + distance := by
  obtain ⟨-, startBefore, startStop, startInText⟩ := h.startTag.bounds
  obtain ⟨-, endBefore, endStop, endInText⟩ := h.endTag.bounds
  obtain ⟨distance, le, ⟨isOffset, isPartner⟩ | ⟨-, isPartner⟩⟩ := lookedUp
  · rcases Nat.lt_or_ge tags.endName.text.byteSize distance with less | ge
    · exact .inr ⟨distance, le, less, isOffset, isPartner⟩
    · exact .inl (by omega)
  · exact .inl (by omega)

/-- Where the names come right behind the delimiters, a partner is at the same distance from the
start of the other name. -/
private theorem mirrors (lookedUp : tags.LookedUp offset partner)
    (startName : tags.startOpen.stop = tags.startName.start)
    (endName : tags.endOpen.stop = tags.endName.start) (inName : offset ≤ tags.endName.stop) :
    tags.startName.Mirrors tags.endName offset partner ∨
      tags.endName.Mirrors tags.startName offset partner := by
  obtain ⟨-, -, startStop, -⟩ := h.startTag.bounds
  obtain ⟨distance, le, ⟨isOffset, isPartner⟩ | ⟨isOffset, isPartner⟩⟩ := lookedUp
  · exact .inl ⟨distance, by omega, by omega, by omega⟩
  · exact .inr ⟨distance, by omega, inName, by omega⟩

end Records

end Element

namespace Document

theorem text_parse (text uri : Text) (mode : Mode) : (parse text uri mode).text = text := by
  obtain ⟨n, atEnd⟩ := (Reading.start text uri mode).exists_atEnd
  rw [Reading.parse_eq_finish atEnd]
  exact ((Reading.after_nested text uri mode n).finish atEnd).1

/-- A position has a partner only in the innermost element around it. -/
theorem tagPartner_cases (accepted : doc.text.offsetAt position = .ok offset) :
    doc.tagPartner position = .ok none ∨
      ∃ e partner, (doc.node (doc.nodeAt offset)).kind = .element e ∧
        e.partnerOffset offset = some partner ∧
        doc.tagPartner position = (doc.text.positionAt partner).map some := by
  have eq : doc.tagPartner position =
      ((doc.node (doc.nodeAt offset)).kind.element?.bind (·.partnerOffset offset)).elim (.ok none)
        fun partner ↦ (doc.text.positionAt partner).map some := by
    rw [tagPartner, accepted]
    simp only [bind, Except.bind]
    cases (doc.node (doc.nodeAt offset)).kind.element?.bind (·.partnerOffset offset) with
    | none => rfl
    | some partner => rfl
  rw [eq]
  cases kind : (doc.node (doc.nodeAt offset)).kind with
  | element e =>
    rw [NodeKind.element?, Option.bind_some]
    cases isPartner : e.partnerOffset offset with
    | none => exact .inl rfl
    | some partner => exact .inr ⟨e, partner, rfl, isPartner, rfl⟩
  | _ => exact .inl rfl

/-- The partner of a position is where its offset has one. -/
theorem tagPartner_eq_some {found : Position} (h : doc.tagPartner position = .ok (some found)) :
    ∃ offset e partner, doc.text.offsetAt position = .ok offset ∧
      (doc.node (doc.nodeAt offset)).kind = .element e ∧
      e.partnerOffset offset = some partner ∧ doc.text.positionAt partner = .ok found := by
  cases accepted : doc.text.offsetAt position with
  | error _ =>
    rw [tagPartner, accepted] at h
    cases h
  | ok offset =>
    rcases tagPartner_cases accepted with noPartner | ⟨e, partner, kind, isPartner, eq⟩
    · rw [h] at noPartner
      cases noPartner
    · refine ⟨offset, e, partner, rfl, kind, isPartner, ?_⟩
      rw [h] at eq
      cases located : doc.text.positionAt partner with
      | error _ =>
        rw [located] at eq
        cases eq
      | ok other =>
        rw [located] at eq
        cases eq
        rfl

/-- Where the offset of a position has a partner, so has the position. -/
theorem tagPartner_eq_ok_some {found : Position}
    (accepted : doc.text.offsetAt position = .ok offset)
    (kind : (doc.node (doc.nodeAt offset)).kind = .element e)
    (isPartner : e.partnerOffset offset = some partner)
    (located : doc.text.positionAt partner = .ok found) :
    doc.tagPartner position = .ok (some found) := by
  simp only [tagPartner, accepted, bind, Except.bind, kind, NodeKind.element?, Option.bind_some,
    isPartner, located]
  rfl

end Document

/-- At every position in the text the partner is looked up, unless it is behind the end of the text:
as far behind the delimiter of an end tag as the position is behind that of the start tag, and
further than the name of the end tag reaches. -/
theorem tagPartner_parse_isOk_or (text uri : Text) (mode : Mode) {position : Position}
    {offset : Nat} (accepted : text.offsetAt position = .ok offset) :
    let doc := Document.parse text uri mode
    (∃ partner, doc.tagPartner position = .ok partner) ∨
      ∃ e tags distance, (doc.node (doc.nodeAt offset)).kind = .element e ∧
        e.Records (Scanner.tokenize text mode) tags ∧
        tags.endName.text.byteSize < distance ∧ distance ≤ tags.startName.text.byteSize ∧
        offset = tags.startOpen.stop + distance ∧
        text.byteSize < tags.endOpen.stop + distance ∧
        doc.tagPartner position =
          .error (.offsetOutOfRange (tags.endOpen.stop + distance) text.byteSize) := by
  intro doc
  have isText : doc.text = text := Document.text_parse text uri mode
  rcases Document.tagPartner_cases (isText.symm ▸ accepted) with noPartner | found
  · exact .inl ⟨_, noPartner⟩
  · obtain ⟨e, partner, kind, isPartner, eq⟩ := found
    obtain ⟨tags, records, lookedUp⟩ := Element.exists_records kind isPartner
    rw [isText] at eq
    rcases Nat.lt_or_ge text.byteSize partner with outside | inText
    · obtain ⟨distance, le, less, isOffset, rfl⟩ :=
        (records.le_byteSize_or lookedUp).resolve_left (Nat.not_le_of_lt outside)
      refine .inr ⟨e, tags, distance, kind, records, less, le, isOffset, outside, ?_⟩
      rw [eq, Text.positionAt, if_pos outside]
      rfl
    · obtain ⟨found, isFound⟩ := Text.exists_positionAt_iff.2 inText
      rw [isFound] at eq
      exact .inl ⟨some found, eq⟩

theorem tagPartner_parse_isOk_or_startOfName :
    let text : Text := ['<', 'a', '>', '<', '/', 'a', '>']
    let doc := Document.parse text [] .xml
    text.offsetAt ⟨0, 1⟩ = .ok 1 ∧ ∃ partner, doc.tagPartner ⟨0, 1⟩ = .ok partner := by
  intro text doc
  have accepted : text.offsetAt ⟨0, 1⟩ = .ok 1 := by decide +kernel
  refine ⟨accepted, (tagPartner_parse_isOk_or text [] .xml accepted).resolve_right ?_⟩
  rintro ⟨_, _, _, -, -, -, -, -, -, isError⟩
  have isOk : (Document.parse text [] .xml).tagPartner ⟨0, 1⟩ = .ok (some ⟨0, 5⟩) := by
    decide +kernel
  rw [isOk] at isError
  cases isError

/-- The name of an end tag is shorter than that of its start tag if it has a letter that takes fewer
bytes in the other case, such as the Kelvin sign. -/
theorem tagPartner_parse_beyondEnd :
    let text : Text := ['<', '\u212a', '>', '<', '/', 'k', '>']
    text.offsetAt ⟨0, 4⟩ = .ok 4 ∧
      (Document.parse text [] .xml).tagPartner ⟨0, 4⟩ = .error (.offsetOutOfRange 10 9) := by
  intro text
  constructor
  · decide +kernel
  · decide +kernel

/-- A partner is as far behind the delimiter of the other tag of an element, and no further than the
name of the start tag is long. If both names come right behind the delimiters, then a position in a
name, or right behind it, has its partner at the same distance from the start of the other name. -/
theorem tagPartner_parse (text uri : Text) (mode : Mode) {position partner : Position}
    (found : (Document.parse text uri mode).tagPartner position = .ok (some partner)) :
    let doc := Document.parse text uri mode
    ∃ offset offset' e tags, text.offsetAt position = .ok offset ∧
      text.offsetAt partner = .ok offset' ∧ (doc.node (doc.nodeAt offset)).kind = .element e ∧
      e.Records (Scanner.tokenize text mode) tags ∧
      tags.LookedUp offset offset' ∧
      (tags.startOpen.stop = tags.startName.start → tags.endOpen.stop = tags.endName.start →
        offset ≤ tags.endName.stop →
        tags.startName.Mirrors tags.endName offset offset' ∨
          tags.endName.Mirrors tags.startName offset offset') := by
  intro doc
  have isText : doc.text = text := Document.text_parse text uri mode
  obtain ⟨offset, e, offset', accepted, kind, isPartner, located⟩ :=
    Document.tagPartner_eq_some found
  obtain ⟨tags, records, lookedUp⟩ := Element.exists_records kind isPartner
  rw [isText] at accepted located
  exact ⟨offset, offset', e, tags, accepted, Text.positionAt_eq_ok_iff_offsetAt.1 located, kind,
    records, lookedUp, records.mirrors lookedUp⟩

theorem tagPartner_parse_startOfName :
    let text : Text := ['<', 'a', '>', '<', '/', 'a', '>']
    let doc := Document.parse text [] .xml
    doc.tagPartner ⟨0, 1⟩ = .ok (some ⟨0, 5⟩) ∧
      ∃ offset offset' e tags, text.offsetAt ⟨0, 1⟩ = .ok offset ∧
        text.offsetAt ⟨0, 5⟩ = .ok offset' ∧ (doc.node (doc.nodeAt offset)).kind = .element e ∧
        e.Records (Scanner.tokenize text .xml) tags ∧ tags.LookedUp offset offset' := by
  intro text doc
  have found : (Document.parse text [] .xml).tagPartner ⟨0, 1⟩ = .ok (some ⟨0, 5⟩) := by
    decide +kernel
  obtain ⟨offset, offset', e, tags, accepted, located, kind, records, lookedUp, -⟩ :=
    tagPartner_parse text [] .xml found
  exact ⟨found, offset, offset', e, tags, accepted, located, kind, records, lookedUp⟩

/-- White space before the name of a start tag has a partner in the name of the end tag. -/
theorem tagPartner_parse_spaceBeforeName :
    let text : Text := ['<', ' ', 'a', '>', '<', '/', 'a', '>']
    text.offsetAt ⟨0, 1⟩ = .ok 1 ∧
      (Document.parse text [] .xml).tagPartner ⟨0, 1⟩ = .ok (some ⟨0, 6⟩) ∧
      ∀ token ∈ Scanner.tokenize text .xml, token.kind = .startTag ∨ token.kind = .endTag →
        ¬ (token.start ≤ 1 ∧ 1 ≤ token.stop) := by
  intro text
  have names : (Scanner.tokenize text .xml).filter
      (fun token ↦ token.kind = .startTag ∨ token.kind = .endTag) =
        [⟨.startTag, ⟨2, 3⟩, ['a']⟩, ⟨.endTag, ⟨6, 7⟩, ['a']⟩] := by decide +kernel
  refine ⟨?_, ?_, fun token mem isName ↦ ?_⟩
  · decide +kernel
  · decide +kernel
  · have named : token ∈ (Scanner.tokenize text .xml).filter
        (fun token ↦ token.kind = .startTag ∨ token.kind = .endTag) :=
      List.mem_filter.2 ⟨mem, decide_eq_true isName⟩
    rw [names] at named
    simp only [List.mem_cons, List.not_mem_nil, or_false] at named
    rcases named with rfl | rfl
    · decide
    · decide

end TolerantXml
