import TolerantXml.Proofs.Tree.AttributeList
import TolerantXml.Proofs.Tree.Fields

/-!
# What nodes quote

Attributes and the parameters of declarations are recorded with the places where they stand in the
text. A node quotes the text if these are the same: what is recorded is what stands there
(`NodeKind.Quotes`). Tokens quote the text, and a node takes what it records from tokens, one behind
the other, so it goes on to quote the text (`NodeKind.Quotes.rewrite`).
-/

namespace TolerantXml

/-- Whether a part of a text is what stands in a span. -/
def Span.Covers (span : Span) (text part : Text) : Prop :=
  text.slice? span.start span.stop = some part

/-! ### Attributes -/

/-- Whether an attribute is what stands in the text: its name in one place, and in another one its
value, with or without quotation marks around it, if it has a value. -/
structure Attribute.Quotes (attr : Attribute) (text : Text) : Prop where
  name : attr.nameSpan.Covers text attr.name
  value : attr.value = none ∧ attr.valueSpan = none ∨
    ∃ span raw, attr.valueSpan = some span ∧ span.Covers text raw ∧ attr.value = some raw.unquote

private theorem Attribute.quotes_named {text name : Text} {span : Span}
    (covers : span.Covers text name) : (named name span).Quotes text :=
  ⟨covers, .inl ⟨rfl, rfl⟩⟩

private theorem Attribute.Quotes.withValue {attr : Attribute} {text raw : Text} {span : Span}
    (h : attr.Quotes text) (covers : span.Covers text raw) :
    (attr.withValue raw span).Quotes text :=
  ⟨h.name, .inr ⟨span, raw, rfl, covers, rfl⟩⟩

/-! ### Parameters -/

/-- Whether some parameters are what stands in the text up to some place, one behind the other. -/
structure Parameter.QuoteUpTo (text : Text) (stop : Nat) (parameters : List Parameter) : Prop where
  covers : ∀ parameter ∈ parameters, parameter.span.Covers text parameter.value
  nonempty : ∀ parameter ∈ parameters, parameter.span.start < parameter.span.stop
  ordered : parameters.Pairwise fun first second ↦ first.span.stop ≤ second.span.start
  le_stop : ∀ parameter ∈ parameters, parameter.span.stop ≤ stop

namespace Parameter.QuoteUpTo

variable {text : Text} {stop stop' : Nat} {parameters : List Parameter} {parameter : Parameter}

theorem nil (text : Text) (stop : Nat) : QuoteUpTo text stop [] :=
  ⟨List.forall_mem_nil _, List.forall_mem_nil _, .nil, List.forall_mem_nil _⟩

theorem mono (h : QuoteUpTo text stop parameters) (le : stop ≤ stop') :
    QuoteUpTo text stop' parameters :=
  { h with le_stop := fun parameter mem ↦ Nat.le_trans (h.le_stop parameter mem) le }

/-- A parameter is taken behind the others. -/
theorem concat (h : QuoteUpTo text parameter.span.start parameters)
    (covers : parameter.span.Covers text parameter.value)
    (nonempty : parameter.span.start < parameter.span.stop) :
    QuoteUpTo text parameter.span.stop (parameters ++ [parameter]) where
  covers := List.forall_mem_append.2 ⟨h.covers, List.forall_mem_singleton.2 covers⟩
  nonempty := List.forall_mem_append.2 ⟨h.nonempty, List.forall_mem_singleton.2 nonempty⟩
  ordered := by
    refine List.pairwise_append.2 ⟨h.ordered, List.pairwise_singleton _ _, ?_⟩
    intro first mem last isLast
    rw [List.mem_singleton.1 isLast]
    exact h.le_stop first mem
  le_stop := List.forall_mem_append.2
    ⟨(h.mono (Nat.le_of_lt nonempty)).le_stop, List.forall_mem_singleton.2 (Nat.le_refl _)⟩

theorem singleton (parameter : Parameter)
    (covers : parameter.span.Covers text parameter.value)
    (nonempty : parameter.span.start < parameter.span.stop) :
    QuoteUpTo text parameter.span.stop [parameter] :=
  (nil text parameter.span.start).concat covers nonempty

end Parameter.QuoteUpTo

/-- The keyword of the declarations of a frame. -/
def Frame.keyword? : Frame → Option Text
  | .elementDecl => some Keyword.element
  | .attlistDecl => some Keyword.attlist
  | .entityDecl => some Keyword.entity
  | _ => none

namespace NodeKind

variable {kind : NodeKind} {b : Builder} {token : Token} {text : Text} {stop : Nat}
  {attr : Attribute}

/-- The keyword that a declaration starts with. -/
def keyword? : NodeKind → Option Parameter
  | .elementDecl decl => some decl.keyword
  | .attlistDecl decl => some decl.keyword
  | .entityDecl decl => some decl.keyword
  | _ => none

/-- All parameters of a document type or a declaration, with the keyword in front of them. -/
def pieces (kind : NodeKind) : List Parameter := kind.keyword?.toList ++ kind.parameters

/-- Whether a node quotes the text up to some place. -/
structure Quotes (kind : NodeKind) (text : Text) (stop : Nat) : Prop where
  attributes : ∀ attr ∈ kind.attributes, attr.Quotes text
  keyword : kind.keyword?.map (·.value) = kind.frame.keyword?
  pieces : Parameter.QuoteUpTo text stop kind.pieces
  lists : kind.Lists

/-- What has no attributes and no parameters quotes any text. -/
theorem quotes_of_nil (attributes : kind.attributes = []) (parameters : kind.parameters = [])
    (parts : kind.parts = []) (keyword : kind.keyword? = none)
    (noKeyword : kind.frame.keyword? = none) (text : Text) (stop : Nat) :
    kind.Quotes text stop where
  attributes := by
    rw [attributes]
    exact List.forall_mem_nil _
  keyword := by rw [keyword, noKeyword, Option.map_none]
  pieces := by
    rw [NodeKind.pieces, keyword, parameters]
    exact .nil text stop
  lists := by
    rw [Lists, parts]
    exact List.forall_mem_nil _

/-! ### What tokens write -/

/-- What may become of what a node quotes at a token: an attribute gets it as its name or as its
value, or it is taken as a parameter behind the others. -/
structure Takes (token : Token) (kind kind' : NodeKind) : Prop where
  attributes : ∀ attr ∈ kind'.attributes, attr ∈ kind.attributes ∨
    attr = .named token.text token.span ∨
      ∃ old ∈ kind.attributes, attr = old.withValue token.text token.span
  keyword_eq : kind'.keyword? = kind.keyword?
  parameters : kind'.parameters = kind.parameters ∨
    kind'.parameters = kind.parameters ++ [token.parameter]

theorem Takes.refl (token : Token) (kind : NodeKind) : Takes token kind kind :=
  ⟨fun _ ↦ .inl, rfl, .inl rfl⟩

/-- What else is recorded does not matter. -/
theorem Takes.of_eq {kind' : NodeKind} (attributes : kind'.attributes = kind.attributes)
    (keyword : kind'.keyword? = kind.keyword?) (parameters : kind'.parameters = kind.parameters) :
    Takes token kind kind' :=
  ⟨fun _ mem ↦ .inl (attributes ▸ mem), keyword, .inl parameters⟩

private theorem takes_modifyAttributes {change : List Attribute → List Attribute}
    (changes : ∀ attr ∈ change kind.attributes, attr ∈ kind.attributes ∨
      attr = .named token.text token.span ∨
        ∃ old ∈ kind.attributes, attr = old.withValue token.text token.span) :
    Takes token kind (kind.modifyAttributes change) := by
  cases kind with
  | element | instruction => exact ⟨changes, rfl, .inl rfl⟩
  | _ => exact .refl token _

private theorem takes_takeParameter (kind : NodeKind) (token : Token) :
    Takes token kind (kind.takeParameter token) := by
  cases kind with
  | doctype d =>
    rw [takeParameter]
    split
    · exact ⟨fun _ ↦ .inl, rfl, .inr rfl⟩
    · exact .refl token _
  | elementDecl decl =>
    refine ⟨fun _ ↦ .inl, ?_, .inr rfl⟩
    simp only [takeParameter, take, ElementDecl.setPart, keyword?]
    split <;> rfl
  | attlistDecl decl =>
    refine ⟨fun _ ↦ .inl, ?_, .inr rfl⟩
    simp only [takeParameter, take, AttlistDecl.setPart, keyword?]
    split <;> rfl
  | entityDecl decl =>
    refine ⟨fun _ ↦ .inl, ?_, .inr rfl⟩
    simp only [takeParameter, take, EntityDecl.setPart, keyword?]
    split <;> rfl
  | _ => exact .refl token _

private theorem takes_rewrite (b : Builder) (token : Token) (kind : NodeKind) :
    Takes token kind (b.rewrite token kind) := by
  unfold Builder.rewrite
  cases token.kind with
  | attributeName =>
    refine takes_modifyAttributes fun attr mem ↦ ?_
    exact (Attribute.mem_of_mem_put mem).symm.imp_right .inl
  | attributeValue =>
    refine takes_modifyAttributes fun attr mem ↦ ?_
    cases waits : b.pending with
    | none =>
      rw [waits] at mem
      exact .inl mem
    | some owner =>
      rw [waits] at mem
      exact (Attribute.mem_of_mem_modify mem).imp_right .inr
  | doctypeName | doctypePublic | doctypeSystem | doctypePublicId | doctypeSystemId =>
    cases kind with
    | doctype => exact ⟨fun _ ↦ .inl, rfl, .inr rfl⟩
    | _ => exact .refl token _
  | elementDeclName | elementDeclCategory | elementDeclContent | attlistElement | attlistName
  | attlistType | attlistDefault | entityPercent | entityName | entityValue | entityPublic
  | entitySystem | entityPublicId | entitySystemId | unrecognized =>
    exact takes_takeParameter kind token
  | _ => cases kind <;> exact .of_eq rfl rfl rfl

/-- A node that quotes the text goes on to do so when it takes a token that stands there. -/
theorem Quotes.rewrite (h : kind.Quotes text token.start)
    (covers : token.span.Covers text token.text) (nonempty : token.start < token.stop)
    (b : Builder) : (b.rewrite token kind).Quotes text token.stop := by
  have takes := takes_rewrite b token kind
  constructor
  case attributes =>
    intro attr mem
    rcases takes.attributes attr mem with isOld | rfl | ⟨old, isOld, rfl⟩
    · exact h.attributes attr isOld
    · exact Attribute.quotes_named covers
    · exact (h.attributes old isOld).withValue covers
  case keyword =>
    rw [takes.keyword_eq, Builder.frame_rewrite]
    exact h.keyword
  case pieces =>
    rw [NodeKind.pieces, takes.keyword_eq]
    rcases takes.parameters with same | taken
    · rw [same]
      exact h.pieces.mono (Nat.le_of_lt nonempty)
    · have before : Parameter.QuoteUpTo text token.parameter.span.start kind.pieces := h.pieces
      rw [taken, ← List.append_assoc]
      exact before.concat covers nonempty
  case lists => exact h.lists.rewrite b token

theorem Quotes.mono {stop' : Nat} (h : kind.Quotes text stop) (le : stop ≤ stop') :
    kind.Quotes text stop' :=
  { h with pieces := h.pieces.mono le }

end NodeKind

/-! ### What tokens add -/

/-- The keyword of the declaration that a token opens. -/
def TokenKind.declares? : TokenKind → Option Text
  | .elementDeclOpen => some Keyword.element
  | .attlistOpen => some Keyword.attlist
  | .entityOpen => some Keyword.entity
  | _ => none

private theorem TokenKind.pos_of_declares? {kind : TokenKind} {keyword : Text}
    (declares : kind.declares? = some keyword) : 0 < keyword.byteSize := by
  cases kind with
  | elementDeclOpen | attlistOpen | entityOpen =>
    rw [← Option.some.inj declares]
    decide
  | _ => cases declares

theorem Scanner.Config.Emits.eq_of_declares? {config next : Scanner.Config} {kind : TokenKind}
    {taken keyword : Text} (emits : config.Emits kind taken next)
    (declares : kind.declares? = some keyword) : taken = Delimiter.declOpen ++ keyword := by
  cases emits with
  | elementDeclOpen | attlistOpen | entityOpen => rw [← Option.some.inj declares]
  | doctypePart _ fills | elementPart _ fills | attlistPart _ fills | entityPart _ fills =>
    cases fills <;> cases declares
  | _ => cases declares

/-- The keyword of a declaration quotes the text if the declaration opens there. -/
private theorem Parameter.quoteUpTo_keywordAt {text passed keyword tail : Text}
    (split : text = passed ++ (Delimiter.declOpen ++ keyword ++ tail))
    (nonempty : 0 < keyword.byteSize) :
    QuoteUpTo text (passed.byteSize + (Delimiter.declOpen ++ keyword).byteSize)
      [.keywordAt text passed.byteSize keyword] := by
  have size : (Delimiter.declOpen ++ keyword).byteSize =
      Delimiter.declOpen.byteSize + keyword.byteSize := Text.byteSize_append _ _
  rw [keywordAt_eq split, size, ← Nat.add_assoc]
  refine QuoteUpTo.singleton ⟨⟨_, _⟩, keyword⟩ ?_ ?_
  · refine Text.slice?_eq_some_iff.2 ⟨passed ++ Delimiter.declOpen, tail, ?_, ?_, rfl⟩
    · rw [split]
      simp only [List.append_assoc]
    · rw [Text.byteSize_append]
  · exact Nat.lt_add_of_pos_right nonempty

namespace Builder

variable {b : Builder} {token : Token} {text : Text}

/-- What a token adds has no attributes and no parameters, and it has the keyword that the token
declares, if it declares one. -/
private theorem added_eq (b : Builder) (token : Token) :
    (b.added token).attributes = [] ∧ (b.added token).parameters = [] ∧
      (b.added token).parts = [] ∧ (b.added token).frame.keyword? = token.kind.declares? ∧
      (b.added token).keyword? =
        token.kind.declares?.map (.keywordAt b.doc.text token.start) := by
  unfold added
  cases token.kind <;> exact ⟨rfl, rfl, rfl, rfl, rfl⟩

/-- What a token adds quotes the text in which the token stands. -/
theorem quotes_added {passed tail : Text} (isText : b.doc.text = text)
    (split : text = passed ++ (token.text ++ tail)) (start : token.start = passed.byteSize)
    (stop : token.stop = passed.byteSize + token.text.byteSize)
    (opens : ∀ keyword, token.kind.declares? = some keyword →
      token.text = Delimiter.declOpen ++ keyword) :
    (b.added token).Quotes text token.stop := by
  obtain ⟨attributes, parameters, parts, frame, keyword⟩ := b.added_eq token
  rw [isText, start] at keyword
  cases declares : token.kind.declares? with
  | none =>
    rw [declares] at frame keyword
    exact NodeKind.quotes_of_nil attributes parameters parts keyword frame text token.stop
  | some name =>
    have isOpening := opens name declares
    rw [declares] at frame keyword
    rw [isOpening] at split stop
    constructor
    case attributes =>
      rw [attributes]
      exact List.forall_mem_nil _
    case keyword =>
      rw [keyword, frame, Option.map_some, Option.map_some, Parameter.keywordAt_eq split]
    case pieces =>
      rw [NodeKind.pieces, parameters, keyword, stop]
      exact Parameter.quoteUpTo_keywordAt split (TokenKind.pos_of_declares? declares)
    case lists =>
      rw [NodeKind.Lists, parts]
      exact List.forall_mem_nil _

end Builder

end TolerantXml
