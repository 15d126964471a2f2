import TolerantXml.Proofs.Reading.NodeAt
import TolerantXml.Proofs.Reading.TagPartner
import TolerantXml.Proofs.Reading.TagPlaces

/-!
# Partners of partners

The partner of a place has that place as its own partner if the search for the node at its offset
comes to the same element, and only then (`tagPartner_parse_comm_iff`): in no other element do both
places lie in the tags, since the start tag of an element around would have to end before the
element starts. Right behind a name there may be another node, or the end of the element.
-/

namespace TolerantXml

variable {text uri : Text} {mode : Mode} {doc : Document} {e : Element} {tags : TagTokens}
  {id other offset offset' first last : Nat}

/-- Whether an offset is behind the delimiter of one of two tags, by less than its name is long. -/
def TagTokens.Encloses (tags : TagTokens) (offset : Nat) : Prop :=
  (tags.startOpen.stop ≤ offset ∧ offset < tags.startOpen.stop + tags.startName.text.byteSize) ∨
    (tags.endOpen.stop ≤ offset ∧ offset < tags.endOpen.stop + tags.endName.text.byteSize)

namespace Document

/-- How the tags of an element lie in a document. -/
structure OwnsTags (doc : Document) (id : Nat) (tags : TagTokens) : Prop where
  start_eq : (doc.node id).start = tags.startOpen.start
  startTag : doc.Owns id tags.startOpen.start
    (tags.startOpen.stop + tags.startName.text.byteSize)
  endTag : doc.Owns id tags.endOpen.start (tags.endOpen.stop + tags.endName.text.byteSize)
  ordered : tags.startOpen.stop + tags.startName.text.byteSize ≤ tags.endOpen.start
  startDelimiter : tags.startOpen.stop = tags.startOpen.start + 1
  endDelimiter : tags.endOpen.stop = tags.endOpen.start + 2

theorem ownsTags_parse (kind : ((parse text uri mode).node id).kind = .element e)
    (records : e.Records (Scanner.tokenize text mode) tags) :
    (parse text uri mode).OwnsTags id tags := by
  obtain ⟨startTags, endTags⟩ := ownedTags_parse text uri mode kind
  obtain ⟨start_eq, startTag, ordered⟩ := startTags _ _ records.startTagOpen records.tagName
  obtain ⟨opening, name, names, same, endTag⟩ := endTags _ records.endTagOpen
  obtain rfl := names.name_eq records.endTag same
  have startStop : tags.startOpen.stop = tags.startOpen.start + 1 := records.startTag.bounds.1
  have endStop : tags.endOpen.stop = tags.endOpen.start + 2 := records.endTag.bounds.1
  rw [← startStop] at startTag ordered
  rw [← endStop] at endTag
  exact ⟨start_eq, startTag, endTag, ordered _ records.endTagOpen, startStop, endStop⟩

section WellNested

variable (nested : doc.WellNested) (linked : doc.Linked)
include nested linked

/-- The search for the node at an offset of what belongs to a node finds that node. -/
private theorem Owns.nodeAt_eq (owns : doc.Owns id first last) (lt : id < doc.count)
    (ge : first ≤ offset) (less : offset < last) : doc.nodeAt offset = id := by
  refine Document.nodeAt_eq nested linked lt ?_ fun child isChild contains ↦ ?_
  · have := owns.start_le
    have := owns.le_stop
    rw [containsAt_iff]
    omega
  · rw [containsAt_iff] at contains
    rcases owns.apart child isChild with le | le
    · omega
    · omega

/-- What is further down at an offset behind the start of what belongs to a node comes behind the
end of that. -/
private theorem Owns.le_start_of_mem_path (owns : doc.Owns id first last) (lt : other < doc.count)
    (below : id ∈ doc.path other) (differ : id ≠ other) (contains : doc.containsAt offset other)
    (ge : first ≤ offset) : last ≤ (doc.node other).start := by
  obtain ⟨child, isChild, onPath⟩ := linked.exists_child_mem_path lt below differ
  have inChild := containsAt_iff.1 (nested.containsAt_of_mem_path linked lt onPath contains)
  have inside := nested.inside_of_mem_path linked lt onPath
  rcases owns.apart child isChild with le | le
  · omega
  · omega

/-- Of two nodes that are found at two offsets, the one at the higher offset is the other one as
well, if it has its start tag around the lower offset. -/
private theorem Owns.nodeAt_eq_nodeAt (owns : doc.Owns (doc.nodeAt offset') first last)
    (contains : doc.containsAt offset (doc.nodeAt offset))
    (contains' : doc.containsAt offset' (doc.nodeAt offset')) (less : offset < offset')
    (ge : first ≤ offset) (le : offset ≤ last)
    (starts : (doc.node (doc.nodeAt offset)).start < offset) :
    doc.nodeAt offset' = doc.nodeAt offset := by
  have lt : doc.nodeAt offset < doc.count := nodeAtFrom_lt linked.root_lt offset
  have lt' : doc.nodeAt offset' < doc.count := nodeAtFrom_lt linked.root_lt offset'
  by_contra differ
  have around : doc.containsAt offset (doc.nodeAt offset') := by
    have := owns.start_le
    rw [containsAt_iff] at contains' ⊢
    omega
  have below := nested.mem_path_nodeAtFrom linked lt' around (linked.root_mem_path lt')
  have := owns.le_start_of_mem_path nested linked lt below differ contains ge
  omega

end WellNested

/-- An element is not found without containing the offset. -/
private theorem containsAt_nodeAt (linked : doc.Linked)
    (kind : (doc.node (doc.nodeAt offset)).kind = .element e) :
    doc.containsAt offset (doc.nodeAt offset) := by
  refine (doc.nodeAtFrom_eq_or_containsAt root offset).resolve_left fun isRoot ↦ ?_
  have frame := linked.root_frame
  rw [nodeAt, isRoot] at kind
  rw [Document.frame, kind] at frame
  cases frame

end Document

/-- A partner has the offset as its partner if it is one of the same element. -/
private theorem Element.Records.partnerOffset_comm {tokens : List Token}
    (records : e.Records tokens tags)
    (apart : tags.startOpen.start + 1 + tags.startName.text.byteSize ≤ tags.endOpen.start)
    (h : e.partnerOffset offset = some offset') : e.partnerOffset offset' = some offset := by
  obtain ⟨-, -, startTagOpen, tagName, endTagOpen, -⟩ := records
  obtain ⟨_, _, _, _, _, _, selfClosed⟩ := e
  subst startTagOpen tagName endTagOpen
  cases selfClosed with
  | true => cases h
  | false =>
    simp only [partnerOffset] at h ⊢
    split at h
    · obtain rfl := Option.some.inj h
      rw [if_neg (by omega), if_pos (by omega)]
      exact congrArg some (by omega)
    · split at h
      · obtain rfl := Option.some.inj h
        rw [if_pos (by omega)]
        exact congrArg some (by omega)
      · cases h

/-- A partner in a name of the tags belongs to the same element. -/
private theorem Document.OwnsTags.nodeAt_eq (owned : doc.OwnsTags id tags) (nested : doc.WellNested)
    (linked : doc.Linked) (lt : id < doc.count) (encloses : tags.Encloses offset) :
    doc.nodeAt offset = id := by
  obtain ⟨-, startTag, endTag, -, startDelimiter, endDelimiter⟩ := owned
  rcases encloses with ⟨ge, less⟩ | ⟨ge, less⟩
  · exact startTag.nodeAt_eq nested linked lt (by omega) less
  · exact endTag.nodeAt_eq nested linked lt (by omega) less

/-- Two offsets that are partners of each other belong to the same element. -/
private theorem Document.OwnsTags.nodeAt_eq_nodeAt {tags' : TagTokens} (nested : doc.WellNested)
    (linked : doc.Linked) (owned : doc.OwnsTags (doc.nodeAt offset) tags)
    (owned' : doc.OwnsTags (doc.nodeAt offset') tags')
    (contains : doc.containsAt offset (doc.nodeAt offset))
    (contains' : doc.containsAt offset' (doc.nodeAt offset'))
    (lookedUp : tags.LookedUp offset offset') (lookedUp' : tags'.LookedUp offset' offset) :
    doc.nodeAt offset' = doc.nodeAt offset := by
  obtain ⟨start_eq, startTag, -, ordered, startDelimiter, endDelimiter⟩ := owned
  obtain ⟨start_eq', startTag', -, ordered', startDelimiter', endDelimiter'⟩ := owned'
  obtain ⟨distance, le, lookedUp⟩ := lookedUp
  obtain ⟨distance', le', lookedUp'⟩ := lookedUp'
  -- The lower of the two offsets is in the start tags of both elements.
  rcases Nat.lt_trichotomy offset offset' with less | rfl | less
  · exact startTag'.nodeAt_eq_nodeAt nested linked contains contains' less (by omega) (by omega)
      (by omega)
  · rfl
  · exact (startTag.nodeAt_eq_nodeAt nested linked contains' contains less (by omega) (by omega)
      (by omega)).symm

/-- A partner has the position as its partner exactly if the search for the node at its offset finds
the same element, as it does if the partner is in the name of a tag and not right behind it. -/
theorem tagPartner_parse_comm_iff (text uri : Text) (mode : Mode) {position partner : Position}
    (found : (Document.parse text uri mode).tagPartner position = .ok (some partner)) :
    let doc := Document.parse text uri mode
    ∃ offset offset' e tags, text.offsetAt position = .ok offset ∧
      text.offsetAt partner = .ok offset' ∧ (doc.node (doc.nodeAt offset)).kind = .element e ∧
      e.Records (Scanner.tokenize text mode) tags ∧ tags.LookedUp offset offset' ∧
      (doc.tagPartner partner = .ok (some position) ↔ doc.nodeAt offset' = doc.nodeAt offset) ∧
      (tags.Encloses offset' → doc.tagPartner partner = .ok (some position)) := by
  intro doc
  obtain ⟨r, nested, atEnd, eq⟩ := Reading.exists_nested text uri mode
  obtain ⟨isText, -, linked, nested⟩ := nested.finish atEnd
  have finish : r.builder.finish = doc := eq.symm
  rw [finish] at isText linked nested
  obtain ⟨offset, e, offset', accepted, kind, isPartner, located⟩ :=
    Document.tagPartner_eq_some found
  obtain ⟨tags, records, lookedUp⟩ := Element.exists_records kind isPartner
  have owned := Document.ownsTags_parse kind records
  have lt : doc.nodeAt offset < doc.count := Document.nodeAtFrom_lt linked.root_lt offset
  have accepted' := Text.positionAt_eq_ok_iff_offsetAt.1 located
  have located' := Text.positionAt_eq_ok_iff_offsetAt.2 accepted
  have comm : doc.nodeAt offset' = doc.nodeAt offset →
      doc.tagPartner partner = .ok (some position) := by
    intro same
    have apart := owned.startDelimiter ▸ owned.ordered
    exact Document.tagPartner_eq_ok_some accepted' (same ▸ kind)
      (records.partnerOffset_comm apart isPartner) located'
  refine ⟨offset, offset', e, tags, isText ▸ accepted, isText ▸ accepted', kind, records, lookedUp,
    ⟨fun back ↦ ?_, comm⟩, fun encloses ↦ comm (owned.nodeAt_eq nested linked lt encloses)⟩
  obtain ⟨_, e', _, accepted'', kind', isPartner', located''⟩ := Document.tagPartner_eq_some back
  obtain rfl := Except.ok.inj (accepted'.symm.trans accepted'')
  obtain rfl := Except.ok.inj (accepted.symm.trans (Text.positionAt_eq_ok_iff_offsetAt.1 located''))
  obtain ⟨tags', records', lookedUp'⟩ := Element.exists_records kind' isPartner'
  exact owned.nodeAt_eq_nodeAt nested linked (Document.ownsTags_parse kind' records')
    (Document.containsAt_nodeAt linked kind) (Document.containsAt_nodeAt linked kind') lookedUp
    lookedUp'

theorem tagPartner_parse_comm_iff_inName :
    let text : Text := ['<', 'a', '>', '<', '/', 'a', '>']
    let doc := Document.parse text [] .xml
    doc.tagPartner ⟨0, 1⟩ = .ok (some ⟨0, 5⟩) ∧ doc.nodeAt 5 = doc.nodeAt 1 ∧
      doc.tagPartner ⟨0, 5⟩ = .ok (some ⟨0, 1⟩) := by
  intro text doc
  have found : (Document.parse text [] .xml).tagPartner ⟨0, 1⟩ = .ok (some ⟨0, 5⟩) := by
    decide +kernel
  have same : (Document.parse text [] .xml).nodeAt 5 = (Document.parse text [] .xml).nodeAt 1 := by
    decide +kernel
  have first : text.offsetAt ⟨0, 1⟩ = .ok 1 := by decide +kernel
  have second : text.offsetAt ⟨0, 5⟩ = .ok 5 := by decide +kernel
  obtain ⟨offset, offset', -, -, accepted, located, -, -, -, comm, -⟩ :=
    tagPartner_parse_comm_iff text [] .xml found
  obtain rfl := Except.ok.inj (first.symm.trans accepted)
  obtain rfl := Except.ok.inj (second.symm.trans located)
  exact ⟨found, same, comm.2 same⟩

/-- The place right behind an end tag that ends with its name is not one of the element any more, so
its partner has no partner. -/
theorem tagPartner_parse_behindName :
    let text : Text := ['<', 'a', '>', '<', '/', 'a']
    (Document.parse text [] .xml).tagPartner ⟨0, 2⟩ = .ok (some ⟨0, 6⟩) ∧
      (Document.parse text [] .xml).tagPartner ⟨0, 6⟩ = .ok none := by
  intro text
  constructor
  · decide +kernel
  · decide +kernel

end TolerantXml
