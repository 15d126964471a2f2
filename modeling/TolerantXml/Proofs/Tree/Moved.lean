import TolerantXml.Tree.Builder.Declaration
import TolerantXml.Tree.Builder.Markup

/-!
# Constructs further on in a text

What a construct becomes if the text that it stands in is moved by some bytes: the same with every
offset moved (`NodeKind.moved`, `Node.moved`). Every change of a kind that a builder makes for a
token has one that does the same for the token that was moved (`NodeKind.Follows`). A span that is
moved with its text covers the same part of it (`Span.text_moved`). Whether a comment starts on the
line of an end tag depends on what is around, and may be left out of sight (`NodeKind.seen`).
-/

namespace TolerantXml

variable {distance shift : Nat} {lines : Bool}

/-! ### Moved data -/

def Span.moved (distance : Nat) (span : Span) : Span :=
  ⟨span.start + distance, span.stop + distance⟩

/-- A token as it is read further on in a text. -/
def Token.moved (distance : Nat) (token : Token) : Token :=
  { token with span := token.span.moved distance }

def Attribute.moved (distance : Nat) (attr : Attribute) : Attribute :=
  { attr with
    nameSpan := attr.nameSpan.moved distance
    valueSpan := attr.valueSpan.map (·.moved distance) }

def Parameter.moved (distance : Nat) (parameter : Parameter) : Parameter :=
  { parameter with span := parameter.span.moved distance }

def ExternalId.moved (distance : Nat) (id : ExternalId) : ExternalId where
  keyword := id.keyword.map (·.moved distance)
  publicId := id.publicId.map (·.moved distance)
  systemId := id.systemId.map (·.moved distance)

def Doctype.moved (distance : Nat) (doctype : Doctype) : Doctype where
  name := doctype.name.map (·.moved distance)
  externalId := doctype.externalId.moved distance
  subsetStart := doctype.subsetStart.map (· + distance)
  subsetStop := doctype.subsetStop.map (· + distance)
  parameters := doctype.parameters.map (·.moved distance)

def ElementDecl.moved (distance : Nat) (decl : ElementDecl) : ElementDecl where
  keyword := decl.keyword.moved distance
  name := decl.name.map (·.moved distance)
  category := decl.category.map (·.moved distance)
  content := decl.content.map (·.moved distance)
  parameters := decl.parameters.map (·.moved distance)

def AttributeDecl.moved (distance : Nat) (decl : AttributeDecl) : AttributeDecl where
  name := decl.name.moved distance
  type := decl.type.map (·.moved distance)
  defaultValue := decl.defaultValue.map (·.moved distance)

def AttlistDecl.moved (distance : Nat) (decl : AttlistDecl) : AttlistDecl where
  keyword := decl.keyword.moved distance
  elementName := decl.elementName.map (·.moved distance)
  attributes := decl.attributes.map (·.moved distance)
  parameters := decl.parameters.map (·.moved distance)

def EntityDecl.moved (distance : Nat) (decl : EntityDecl) : EntityDecl where
  keyword := decl.keyword.moved distance
  percent := decl.percent.map (·.moved distance)
  name := decl.name.map (·.moved distance)
  value := decl.value.map (·.moved distance)
  externalId := decl.externalId.moved distance
  parameters := decl.parameters.map (·.moved distance)

def Element.moved (distance : Nat) (element : Element) : Element :=
  { element with
    attributes := element.attributes.map (·.moved distance)
    startTagOpen := element.startTagOpen.map (· + distance)
    startTagClose := element.startTagClose.map (· + distance)
    endTagOpen := element.endTagOpen.map (· + distance)
    endTagClose := element.endTagClose.map (· + distance) }

def CharacterData.moved (distance : Nat) (data : CharacterData) : CharacterData :=
  { data with content := data.content.map (·.moved distance) }

def Instruction.moved (distance : Nat) (instruction : Instruction) : Instruction :=
  { instruction with
    attributes := instruction.attributes.map (·.moved distance)
    content := instruction.content.map (·.moved distance) }

/-- What a node stands for if its text is moved. -/
def NodeKind.moved (distance : Nat) : NodeKind → NodeKind
  | .document => .document
  | .element e => .element (e.moved distance)
  | .text => .text
  | .comment data => .comment (data.moved distance)
  | .cdata data => .cdata (data.moved distance)
  | .instruction i => .instruction (i.moved distance)
  | .doctype d => .doctype (d.moved distance)
  | .elementDecl decl => .elementDecl (decl.moved distance)
  | .attlistDecl decl => .attlistDecl (decl.moved distance)
  | .entityDecl decl => .entityDecl (decl.moved distance)

/-- What a node stands for, with or without the flag of comments that tells about lines. -/
def NodeKind.seen (lines : Bool) : NodeKind → NodeKind
  | .comment data => .comment { data with sameLine := data.sameLine && lines }
  | kind => kind

/-- A node of a text that is moved, if its number and those of the nodes around are moved too. -/
def Node.moved (distance shift : Nat) (node : Node) : Node where
  kind := node.kind.moved distance
  start := node.start + distance
  stop := node.stop + distance
  closed := node.closed
  parent := node.parent.map (· + shift)
  children := node.children.map (· + shift)

/-- A node, with or without the flag of comments that tells about lines. -/
def Node.seen (lines : Bool) (node : Node) : Node := { node with kind := node.kind.seen lines }

/-- With the flag that tells about lines, nothing is left out. -/
theorem Node.seen_true (node : Node) : node.seen true = node := by
  have kind : node.kind.seen true = node.kind := by
    cases node.kind with
    | comment data => simp [NodeKind.seen]
    | _ => rfl
  rw [seen, kind]

/-! ### Texts that are part of another one -/

/-- Of two ways to cut one text, the cut that is further behind goes through the part that is behind
the other one. -/
private theorem Text.exists_append_of_byteSize_le {a b c d : Text} (h : a ++ b = c ++ d)
    (le : a.byteSize ≤ c.byteSize) : ∃ between, c = a ++ between ∧ b = between ++ d := by
  rcases List.append_eq_append_iff.1 h with cut | ⟨between, rfl, rfl⟩
  · exact cut
  · rw [Text.byteSize_append] at le
    obtain rfl : between = [] := Text.byteSize_eq_zero.1 (by omega)
    exact ⟨[], by simp, rfl⟩

/-- Where a text is cut out of another one, the spans in it cover the same texts. -/
theorem Span.text_moved {before covered behind : Text} {span : Span}
    (le : span.stop ≤ covered.byteSize) :
    (span.moved before.byteSize).text (before ++ covered ++ behind) = span.text covered := by
  suffices same : Text.slice? (before ++ covered ++ behind) (span.start + before.byteSize)
      (span.stop + before.byteSize) = Text.slice? covered span.start span.stop by
    rw [Span.text, Span.text, Span.moved, same]
  ext part
  rw [Text.slice?_eq_some_iff, Text.slice?_eq_some_iff]
  constructor
  · rintro ⟨first, last, cut, start, stop⟩
    have around : before ++ (covered ++ behind) = first ++ (part ++ last) := by
      rw [← List.append_assoc, cut, List.append_assoc]
    obtain ⟨inside, rfl, rest_eq⟩ := Text.exists_append_of_byteSize_le around (by omega)
    rw [Text.byteSize_append] at start
    have within : (inside ++ part) ++ last = covered ++ behind := by
      rw [rest_eq, List.append_assoc]
    obtain ⟨rest, rfl, -⟩ := Text.exists_append_of_byteSize_le within (by
      rw [Text.byteSize_append]
      omega)
    exact ⟨inside, rest, rfl, by omega, by omega⟩
  · rintro ⟨first, last, rfl, start, stop⟩
    refine ⟨before ++ first, last ++ behind, by simp, ?_, by omega⟩
    rw [Text.byteSize_append]
    omega

/-! ### Changes that follow each other -/

section Attributes

variable (distance)

theorem Attribute.indexOf_moved (attributes : List Attribute) (name : Text) :
    indexOf (attributes.map (·.moved distance)) name = indexOf attributes name := by
  rw [indexOf, indexOf, List.findIdx_map]
  rfl

theorem Attribute.put_moved (attributes : List Attribute) (attr : Attribute) :
    put (attributes.map (·.moved distance)) (attr.moved distance) =
      (put attributes attr).map (·.moved distance) := by
  have place : indexOf (attributes.map (·.moved distance)) (attr.moved distance).name =
      indexOf attributes attr.name :=
    indexOf_moved distance attributes attr.name
  rw [put, put, place, List.length_map]
  split
  · rw [List.map_set]
  · rw [List.map_append, List.map_singleton]

theorem Attribute.withValue_moved (attributes : List Attribute) (index : Nat) (raw : Text)
    (span : Span) :
    (attributes.map (·.moved distance)).modify index (·.withValue raw (span.moved distance)) =
      (attributes.modify index (·.withValue raw span)).map (·.moved distance) := by
  apply List.ext_getElem?
  intro i
  simp only [List.getElem?_modify, List.getElem?_map]
  cases attributes[i]? with
  | none => rfl
  | some attr =>
    by_cases same : index = i
    · simp [same, Attribute.withValue, Attribute.moved]
    · simp [same]

end Attributes

section Declarations

variable (distance)

private theorem AttributeDecl.modifyLast_moved {change changed : AttributeDecl → AttributeDecl}
    (follows : ∀ decl, changed (decl.moved distance) = (change decl).moved distance)
    (attributes : List AttributeDecl) :
    modifyLast changed (attributes.map (·.moved distance)) =
      (modifyLast change attributes).map (·.moved distance) := by
  fun_induction modifyLast change attributes with
  | case1 => rfl
  | case2 last => simp [modifyLast, follows]
  | case3 first next rest ih => simpa [modifyLast] using ih

theorem ElementDecl.setPart_moved (decl : ElementDecl) (kind : TokenKind) (parameter : Parameter) :
    (decl.moved distance).setPart kind (parameter.moved distance) =
      (decl.setPart kind parameter).moved distance := by
  cases kind <;> rfl

theorem AttlistDecl.setPart_moved (decl : AttlistDecl) (kind : TokenKind) (parameter : Parameter) :
    (decl.moved distance).setPart kind (parameter.moved distance) =
      (decl.setPart kind parameter).moved distance := by
  cases kind with
  | attlistName => simp [setPart, moved, AttributeDecl.moved]
  | attlistType | attlistDefault =>
    simp only [setPart, moved, AttlistDecl.mk.injEq, true_and, and_true]
    apply AttributeDecl.modifyLast_moved
    exact fun _ ↦ rfl
  | _ => rfl

theorem EntityDecl.setPart_moved (decl : EntityDecl) (kind : TokenKind) (parameter : Parameter) :
    (decl.moved distance).setPart kind (parameter.moved distance) =
      (decl.setPart kind parameter).moved distance := by
  cases kind <;> rfl

end Declarations

namespace NodeKind

/-- A change does to every kind that was moved what another one does to the kind before, and does
not ask for the flag of comments that tells about lines. -/
structure Follows (distance : Nat) (lines : Bool) (changed change : NodeKind → NodeKind) :
    Prop where
  moved : ∀ kind : NodeKind, changed (kind.moved distance) = (change kind).moved distance
  seen : ∀ kind : NodeKind, (changed kind).seen lines = changed (kind.seen lines)

/-- Kinds that look alike still do after changes that follow each other. -/
theorem Follows.apply {changed change : NodeKind → NodeKind}
    (follows : Follows distance lines changed change) {first second : NodeKind}
    (alike : first.seen lines = (second.moved distance).seen lines) :
    (changed first).seen lines = ((change second).moved distance).seen lines := by
  rw [follows.seen, alike, ← follows.seen, follows.moved]

theorem Follows.comp {changed change changed' change' : NodeKind → NodeKind}
    (second : Follows distance lines changed' change')
    (first : Follows distance lines changed change) :
    Follows distance lines (changed' ∘ changed) (change' ∘ change) where
  moved kind := by
    simp only [Function.comp_apply]
    rw [first.moved, second.moved]
  seen kind := by
    simp only [Function.comp_apply]
    rw [second.seen, first.seen]

theorem follows_modifyElement {changed change : Element → Element}
    (follows : ∀ e : Element, changed (e.moved distance) = (change e).moved distance) :
    Follows distance lines (modifyElement changed) (modifyElement change) where
  moved kind := by
    cases kind with
    | element e => exact congrArg NodeKind.element (follows e)
    | _ => rfl
  seen kind := by
    cases kind <;> rfl

theorem follows_modifyInstruction {changed change : Instruction → Instruction}
    (follows : ∀ i : Instruction, changed (i.moved distance) = (change i).moved distance) :
    Follows distance lines (modifyInstruction changed) (modifyInstruction change) where
  moved kind := by
    cases kind with
    | instruction i => exact congrArg NodeKind.instruction (follows i)
    | _ => rfl
  seen kind := by
    cases kind <;> rfl

theorem follows_modifyDoctype {changed change : Doctype → Doctype}
    (follows : ∀ d : Doctype, changed (d.moved distance) = (change d).moved distance) :
    Follows distance lines (modifyDoctype changed) (modifyDoctype change) where
  moved kind := by
    cases kind with
    | doctype d => exact congrArg NodeKind.doctype (follows d)
    | _ => rfl
  seen kind := by
    cases kind <;> rfl

theorem follows_modifyAttributes {changed change : List Attribute → List Attribute}
    (follows : ∀ attributes : List Attribute, changed (attributes.map (·.moved distance)) =
      (change attributes).map (·.moved distance)) :
    Follows distance lines (modifyAttributes changed) (modifyAttributes change) where
  moved kind := by
    cases kind with
    | element e => simp [modifyAttributes, NodeKind.moved, Element.moved, follows]
    | instruction i => simp [modifyAttributes, NodeKind.moved, Instruction.moved, follows]
    | _ => rfl
  seen kind := by
    cases kind <;> rfl

theorem attributes?_of_seen {first second : NodeKind}
    (alike : first.seen lines = (second.moved distance).seen lines) :
    first.attributes? = second.attributes?.map (List.map (·.moved distance)) := by
  have same : ∀ kind : NodeKind, (kind.seen lines).attributes? = kind.attributes? := by
    intro kind
    cases kind <;> rfl
  rw [← same first, alike, same]
  cases second <;> rfl

theorem element?_of_seen {first second : NodeKind}
    (alike : first.seen lines = (second.moved distance).seen lines) :
    first.element? = second.element?.map (·.moved distance) := by
  have same : ∀ kind : NodeKind, (kind.seen lines).element? = kind.element? := by
    intro kind
    cases kind <;> rfl
  rw [← same first, alike, same]
  cases second <;> rfl

end NodeKind

end TolerantXml
