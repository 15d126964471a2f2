import TolerantXml.Proofs.Scanner.Transition
import TolerantXml.Proofs.Tree.Kinds

/-!
# Fields of declarations

A document type and a declaration record what was recognised of their parameters in fields
(`NodeKind.field`). The slot that is to be filled next tells which of them are set
(`Scanner.State.Holds`): a part goes to a field that is not set, and what is set then is what the
next slot tells (`Scanner.State.Holds.take`). So a record is consistent wherever reading it comes to
an end (`Scanner.State.Holds.consistent`).
-/

namespace TolerantXml

/-! ### What records hold -/

/-- A field of a document type or a declaration. The names of listed attributes are told apart by
their place in the list. -/
inductive Field where
  | name
  | keyword
  | publicId
  | systemId
  | value
  | category
  | content
  | listed (index : Nat)
  deriving DecidableEq, Repr

/-- The parameters recorded of a listed attribute. -/
def AttributeDecl.parts (attr : AttributeDecl) : List Parameter :=
  attr.name :: (attr.type.toList ++ attr.defaultValue.toList)

/-- The parameters recorded of a reference. -/
def ExternalId.parts (id : ExternalId) : List Parameter :=
  id.keyword.toList ++ id.publicId.toList ++ id.systemId.toList

namespace NodeKind

/-- What a field of a document type or a declaration is set to. -/
def field : NodeKind → Field → Option Parameter
  | .doctype d, .name => d.name
  | .doctype d, .keyword => d.externalId.keyword
  | .doctype d, .publicId => d.externalId.publicId
  | .doctype d, .systemId => d.externalId.systemId
  | .elementDecl decl, .name => decl.name
  | .elementDecl decl, .category => decl.category
  | .elementDecl decl, .content => decl.content
  | .attlistDecl decl, .name => decl.elementName
  | .attlistDecl decl, .listed index => decl.attributes[index]?.map (·.name)
  | .entityDecl decl, .name => decl.name
  | .entityDecl decl, .value => decl.value
  | .entityDecl decl, .keyword => decl.externalId.keyword
  | .entityDecl decl, .publicId => decl.externalId.publicId
  | .entityDecl decl, .systemId => decl.externalId.systemId
  | _, _ => none

/-- The attributes that a declaration lists. -/
def listed : NodeKind → List AttributeDecl
  | .attlistDecl decl => decl.attributes
  | _ => []

/-- All parameters of a document type or a declaration. -/
def parameters : NodeKind → List Parameter
  | .doctype d => d.parameters
  | .elementDecl decl => decl.parameters
  | .attlistDecl decl => decl.parameters
  | .entityDecl decl => decl.parameters
  | _ => []

/-- The parameters that were recognised, the keywords of declarations aside. -/
def parts : NodeKind → List Parameter
  | .doctype d => d.name.toList ++ d.externalId.parts
  | .elementDecl decl => decl.name.toList ++ decl.category.toList ++ decl.content.toList
  | .attlistDecl decl => decl.elementName.toList ++ decl.attributes.flatMap AttributeDecl.parts
  | .entityDecl decl =>
    decl.percent.toList ++ decl.name.toList ++ decl.value.toList ++ decl.externalId.parts
  | _ => []

/-- Whether all that was recognised is among the parameters. -/
def Lists (kind : NodeKind) : Prop := ∀ parameter ∈ kind.parts, parameter ∈ kind.parameters

/-- Whether the fields of a document type or a declaration fit together. Nothing else has any. -/
structure Consistent (kind : NodeKind) : Prop where
  publicId : (kind.field .publicId).isSome = true →
    (kind.field .keyword).map (·.value) = some Keyword.publicId
  systemId : (kind.field .systemId).isSome = true → (kind.field .keyword).isSome = true
  publicSystemId : (kind.field .systemId).isSome = true →
    (kind.field .keyword).map (·.value) = some Keyword.publicId →
      (kind.field .publicId).isSome = true
  definition : (kind.field .value).isSome = true → kind.field .keyword = none
  content : (kind.field .category).isSome = true → kind.field .content = none
  named : kind.field .name = none → (∀ field, kind.field field = none) ∧ kind.listed = []
  typed : ∀ attr ∈ kind.listed, attr.defaultValue.isSome = true → attr.type.isSome = true
  untyped : ∀ attr ∈ kind.listed.dropLast, attr.type.isSome = true
  lists : kind.Lists

end NodeKind

/-- The field that a token sets, in a record that lists so many attributes. -/
def TokenKind.field? (listed : Nat) : TokenKind → Option Field
  | .doctypeName | .elementDeclName | .attlistElement | .entityName => some .name
  | .doctypePublic | .doctypeSystem | .entityPublic | .entitySystem => some .keyword
  | .doctypePublicId | .entityPublicId => some .publicId
  | .doctypeSystemId | .entitySystemId => some .systemId
  | .entityValue => some .value
  | .elementDeclCategory => some .category
  | .elementDeclContent => some .content
  | .attlistName => some (.listed listed)
  | _ => none

/-- Whether a token is a part of a document type or a declaration. -/
def TokenKind.isPart : TokenKind → Bool
  | .doctypeName | .doctypePublic | .doctypeSystem | .doctypePublicId | .doctypeSystemId
  | .elementDeclName | .elementDeclCategory | .elementDeclContent
  | .attlistElement | .attlistName | .attlistType | .attlistDefault
  | .entityPercent | .entityName | .entityValue | .entityPublic | .entitySystem | .entityPublicId
  | .entitySystemId => true
  | _ => false

/-- The keyword that a token is, if it announces identifiers. -/
def TokenKind.announces? : TokenKind → Option Text
  | .doctypePublic | .entityPublic => some Keyword.publicId
  | .doctypeSystem | .entitySystem => some Keyword.systemId
  | _ => none

/-! ### What slots tell -/

/-- Whether a reference has a keyword, which may be the one for public identifiers, and which
identifiers it has. -/
def ExternalId.Has (id : ExternalId) (isPublic : Option Bool) (publicId systemId : Bool) : Prop :=
  id.keyword.map (fun keyword ↦ decide (keyword.value = Keyword.publicId)) = isPublic ∧
    id.publicId.isSome = publicId ∧ id.systemId.isSome = systemId

/-- The document types of which some slot is next. -/
def DoctypeSlot.Holds (d : Doctype) : DoctypeSlot → Prop
  | .name => d.name = none ∧ d.externalId.Has none false false
  | .keyword => d.name.isSome = true ∧ d.externalId.Has none false false
  | .publicId => d.name.isSome = true ∧ d.externalId.Has (some true) false false
  | .systemId => d.name.isSome = true ∧ d.externalId.Has (some false) false false
  | .publicSystemId => d.name.isSome = true ∧ d.externalId.Has (some true) true false
  | .nothing => d.name.isSome = true ∧ ∃ isPublic, d.externalId.Has (some isPublic) isPublic true

/-- The element declarations of which some slot is next. -/
def ElementSlot.Holds (decl : ElementDecl) : ElementSlot → Prop
  | .name => decl.name = none ∧ decl.category = none ∧ decl.content = none
  | .content => decl.name.isSome = true ∧ decl.category = none ∧ decl.content = none
  | .nothing => decl.name.isSome = true ∧ (decl.category = none ∨ decl.content = none)

/-- The attribute list declarations of which some slot is next. -/
def AttlistSlot.Holds (decl : AttlistDecl) : AttlistSlot → Prop
  | .element => decl.elementName = none ∧ decl.attributes = []
  | .name => decl.elementName.isSome = true ∧ ∀ attr ∈ decl.attributes, attr.type.isSome = true
  | .type => decl.elementName.isSome = true ∧ ∃ others last, decl.attributes = others ++ [last] ∧
    (∀ attr ∈ others, attr.type.isSome = true) ∧ last.defaultValue = none
  | .defaultValue => decl.elementName.isSome = true ∧
    ∃ others last, decl.attributes = others ++ [last] ∧
      (∀ attr ∈ others, attr.type.isSome = true) ∧ last.type.isSome = true

/-- The entity declarations of which some slot is next. -/
def EntitySlot.Holds (decl : EntityDecl) : EntitySlot → Prop
  | .name => decl.name = none ∧ decl.value = none ∧ decl.externalId.Has none false false
  | .definition =>
    decl.name.isSome = true ∧ decl.value = none ∧ decl.externalId.Has none false false
  | .publicId =>
    decl.name.isSome = true ∧ decl.value = none ∧ decl.externalId.Has (some true) false false
  | .systemId => decl.name.isSome = true ∧ decl.value = none ∧
    ∃ isPublic, decl.externalId.Has (some isPublic) isPublic false
  | .nothing => decl.name.isSome = true ∧ (decl.externalId.Has none false false ∨
    decl.value = none ∧ ∃ isPublic, decl.externalId.Has (some isPublic) isPublic true)

/-- The records of which a part is next while the scanner is in some state. -/
inductive Scanner.State.Holds : Scanner.State → NodeKind → Prop where
  | doctype {slot : DoctypeSlot} {d : Doctype} (holds : slot.Holds d) :
    Holds (.doctype slot) (.doctype d)
  | elementDecl {slot : ElementSlot} {decl : ElementDecl} (holds : slot.Holds decl) :
    Holds (.elementDecl slot) (.elementDecl decl)
  | attlistDecl {slot : AttlistSlot} {decl : AttlistDecl} (holds : slot.Holds decl) :
    Holds (.attlistDecl slot) (.attlistDecl decl)
  | entityDecl {slot : EntitySlot} {decl : EntityDecl} (holds : slot.Holds decl) :
    Holds (.entityDecl slot) (.entityDecl decl)

/-! ### Parts fill slots -/

section Slots

variable {kind : TokenKind} {parameter : Parameter}

private theorem DoctypeSlot.Holds.setPart {slot next : DoctypeSlot} {d : Doctype}
    (holds : slot.Holds d) (fills : slot.Fills kind next)
    (announced : ∀ keyword, kind.announces? = some keyword → parameter.value = keyword) :
    next.Holds (d.setPart kind parameter) := by
  cases fills with
  | name => exact ⟨rfl, holds.2⟩
  | publicKeyword =>
    refine ⟨holds.1, ?_, holds.2.2⟩
    rw [Doctype.setPart, Option.map_some, announced _ rfl, decide_eq_true rfl]
  | systemKeyword =>
    refine ⟨holds.1, ?_, holds.2.2⟩
    rw [Doctype.setPart, Option.map_some, announced _ rfl, decide_eq_false (by decide)]
  | publicId => exact ⟨holds.1, holds.2.1, rfl, holds.2.2.2⟩
  | systemId => exact ⟨holds.1, false, holds.2.1, holds.2.2.1, rfl⟩
  | publicSystemId => exact ⟨holds.1, true, holds.2.1, holds.2.2.1, rfl⟩

private theorem ElementSlot.Holds.setPart {slot next : ElementSlot} {decl : ElementDecl}
    (holds : slot.Holds decl) (fills : slot.Fills kind next) :
    next.Holds (decl.setPart kind parameter) := by
  cases fills with
  | name => exact ⟨rfl, holds.2⟩
  | category => exact ⟨holds.1, .inr holds.2.2⟩
  | content => exact ⟨holds.1, .inl holds.2.1⟩

/-- A type and a default go to the attribute named last. -/
private theorem AttlistSlot.Holds.setPart {slot next : AttlistSlot} {decl : AttlistDecl}
    (holds : slot.Holds decl) (fills : slot.Fills kind next) :
    next.Holds (decl.setPart kind parameter) := by
  have typed {others : List AttributeDecl} {last : AttributeDecl}
      (before : ∀ attr ∈ others, attr.type.isSome = true) (isTyped : last.type.isSome = true) :
      ∀ attr ∈ others ++ [last], attr.type.isSome = true := by
    intro attr mem
    rcases List.mem_append.1 mem with mem | mem
    · exact before attr mem
    · rw [List.mem_singleton.1 mem]
      exact isTyped
  cases fills with
  | element =>
    refine ⟨rfl, fun attr mem ↦ ?_⟩
    rw [AttlistDecl.setPart, holds.2] at mem
    cases mem
  | name => exact ⟨holds.1, decl.attributes, _, rfl, holds.2, rfl⟩
  | nextName =>
    obtain ⟨named, others, last, eq, before, isTyped⟩ := holds
    exact ⟨named, decl.attributes, _, rfl, eq ▸ typed before isTyped, rfl⟩
  | type =>
    obtain ⟨named, others, last, eq, before, -⟩ := holds
    refine ⟨named, others, { last with type := some parameter }, ?_, before, rfl⟩
    rw [AttlistDecl.setPart, eq, modifyLast_concat]
  | notationType =>
    obtain ⟨named, others, last, eq, before, noDefault⟩ := holds
    refine ⟨named, others, { last with type := some parameter }, ?_, before, noDefault⟩
    rw [AttlistDecl.setPart, eq, modifyLast_concat]
  | defaultValue =>
    obtain ⟨named, others, last, eq, before, isTyped⟩ := holds
    refine ⟨named, ?_⟩
    rw [AttlistDecl.setPart, eq, modifyLast_concat]
    exact typed before isTyped
  | fixedDefault =>
    obtain ⟨named, others, last, eq, before, isTyped⟩ := holds
    refine ⟨named, others, { last with defaultValue := some parameter }, ?_, before, isTyped⟩
    rw [AttlistDecl.setPart, eq, modifyLast_concat]

private theorem EntitySlot.Holds.setPart {slot next : EntitySlot} {decl : EntityDecl}
    (holds : slot.Holds decl) (fills : slot.Fills kind next)
    (announced : ∀ keyword, kind.announces? = some keyword → parameter.value = keyword) :
    next.Holds (decl.setPart kind parameter) := by
  cases fills with
  | percent => exact holds
  | name => exact ⟨rfl, holds.2⟩
  | value => exact ⟨holds.1, .inl holds.2.2⟩
  | publicKeyword =>
    refine ⟨holds.1, holds.2.1, ?_, holds.2.2.2⟩
    rw [EntityDecl.setPart, Option.map_some, announced _ rfl, decide_eq_true rfl]
  | systemKeyword =>
    refine ⟨holds.1, holds.2.1, false, ?_, holds.2.2.2⟩
    rw [EntityDecl.setPart, Option.map_some, announced _ rfl, decide_eq_false (by decide)]
  | publicId => exact ⟨holds.1, holds.2.1, true, holds.2.2.1, rfl, holds.2.2.2.2⟩
  | systemId =>
    obtain ⟨named, noValue, isPublic, keyword, publicId, -⟩ := holds
    exact ⟨named, .inr ⟨noValue, isPublic, keyword, publicId, rfl⟩⟩

end Slots

/-! ### Records are consistent -/

/-- Whether the parts of a reference fit together. -/
structure ExternalId.Fits (id : ExternalId) : Prop where
  publicId : id.publicId.isSome = true → id.keyword.map (·.value) = some Keyword.publicId
  systemId : id.systemId.isSome = true → id.keyword.isSome = true
  publicSystemId : id.systemId.isSome = true →
    id.keyword.map (·.value) = some Keyword.publicId → id.publicId.isSome = true

namespace ExternalId.Has

variable {id : ExternalId} {isPublic : Option Bool} {publicId systemId : Bool}

private theorem value_eq_iff (has : id.Has isPublic publicId systemId) :
    id.keyword.map (·.value) = some Keyword.publicId ↔ isPublic = some true := by
  rw [← has.1]
  cases id.keyword with
  | none => simp
  | some keyword => simp

/-- A system identifier comes behind the keyword, and behind a public identifier if that is the
keyword. -/
private theorem fits (has : id.Has isPublic publicId systemId)
    (behindPublic : publicId = true → isPublic = some true)
    (behindSystem : systemId = true → isPublic = some publicId) : id.Fits where
  publicId isSome := has.value_eq_iff.2 (behindPublic (has.2.1 ▸ isSome))
  systemId isSome := by
    have known := has.1.trans (behindSystem (has.2.2 ▸ isSome))
    cases keyword : id.keyword with
    | none => rw [keyword] at known; cases known
    | some => rfl
  publicSystemId isSome isKeyword := by
    have known := behindSystem (has.2.2 ▸ isSome)
    rw [has.value_eq_iff.1 isKeyword, Option.some.injEq] at known
    rw [has.2.1, ← known]

private theorem publicId_eq_none (has : id.Has isPublic false systemId) : id.publicId = none := by
  rw [← Option.not_isSome_iff_eq_none, has.2.1]
  exact Bool.false_ne_true

private theorem systemId_eq_none (has : id.Has isPublic publicId false) : id.systemId = none := by
  rw [← Option.not_isSome_iff_eq_none, has.2.2]
  exact Bool.false_ne_true

private theorem eq_none (has : id.Has none false false) :
    id.keyword = none ∧ id.publicId = none ∧ id.systemId = none :=
  ⟨Option.map_eq_none_iff.1 has.1, has.publicId_eq_none, has.systemId_eq_none⟩

end ExternalId.Has

private theorem DoctypeSlot.Holds.fits {slot : DoctypeSlot} {d : Doctype} (holds : slot.Holds d) :
    d.externalId.Fits := by
  cases slot with
  | nothing =>
    obtain ⟨-, isPublic, has⟩ := holds
    exact has.fits (fun isTrue ↦ isTrue ▸ rfl) fun _ ↦ rfl
  | publicSystemId => exact holds.2.fits (by decide) (by decide)
  | _ => exact holds.2.fits (by decide) (by decide)

private theorem EntitySlot.Holds.fits {slot : EntitySlot} {decl : EntityDecl}
    (holds : slot.Holds decl) : decl.externalId.Fits := by
  cases slot with
  | nothing =>
    rcases holds.2 with has | ⟨-, isPublic, has⟩
    · exact has.fits (by decide) (by decide)
    · exact has.fits (fun isTrue ↦ isTrue ▸ rfl) fun _ ↦ rfl
  | systemId =>
    obtain ⟨-, -, isPublic, has⟩ := holds
    exact has.fits (fun isTrue ↦ isTrue ▸ rfl) fun isTrue ↦ absurd isTrue Bool.false_ne_true
  | _ => exact holds.2.2.fits (by decide) (by decide)

/-- Without a name nothing else of a document type is set. -/
private theorem DoctypeSlot.Holds.of_unnamed {slot : DoctypeSlot} {d : Doctype}
    (holds : slot.Holds d) (unnamed : d.name = none) : d.externalId.Has none false false := by
  cases slot with
  | name => exact holds.2
  | _ => cases unnamed ▸ holds.1

private theorem EntitySlot.Holds.of_unnamed {slot : EntitySlot} {decl : EntityDecl}
    (holds : slot.Holds decl) (unnamed : decl.name = none) :
    decl.value = none ∧ decl.externalId.Has none false false := by
  cases slot with
  | name => exact holds.2
  | _ => cases unnamed ▸ holds.1

/-- A value and a keyword exclude each other. -/
private theorem EntitySlot.Holds.keyword_eq_none {slot : EntitySlot} {decl : EntityDecl}
    (holds : slot.Holds decl) (hasValue : decl.value.isSome = true) :
    decl.externalId.keyword = none := by
  cases slot with
  | nothing =>
    rcases holds.2 with has | ⟨noValue, -⟩
    · exact has.eq_none.1
    · cases noValue ▸ hasValue
  | _ => cases holds.2.1 ▸ hasValue

private theorem ElementSlot.Holds.content_eq_none {slot : ElementSlot} {decl : ElementDecl}
    (holds : slot.Holds decl) (hasCategory : decl.category.isSome = true) :
    decl.content = none := by
  cases slot with
  | nothing =>
    refine holds.2.resolve_left fun noCategory ↦ ?_
    cases noCategory ▸ hasCategory
  | _ => exact holds.2.2

private theorem ElementSlot.Holds.of_unnamed {slot : ElementSlot} {decl : ElementDecl}
    (holds : slot.Holds decl) (unnamed : decl.name = none) :
    decl.category = none ∧ decl.content = none := by
  cases slot with
  | name => exact holds.2
  | _ => cases unnamed ▸ holds.1

private theorem AttlistSlot.Holds.of_unnamed {slot : AttlistSlot} {decl : AttlistDecl}
    (holds : slot.Holds decl) (unnamed : decl.elementName = none) : decl.attributes = [] := by
  cases slot with
  | element => exact holds.2
  | _ => cases unnamed ▸ holds.1

/-- Only the attribute named last may lack a type, and it then has no default. -/
private theorem AttlistSlot.Holds.typed {slot : AttlistSlot} {decl : AttlistDecl}
    (holds : slot.Holds decl) :
    (∀ attr ∈ decl.attributes, attr.defaultValue.isSome = true → attr.type.isSome = true) ∧
      ∀ attr ∈ decl.attributes.dropLast, attr.type.isSome = true := by
  cases slot with
  | element =>
    rw [holds.2]
    exact ⟨List.forall_mem_nil _, List.forall_mem_nil _⟩
  | name =>
    exact ⟨fun attr mem _ ↦ holds.2 attr mem,
      fun attr mem ↦ holds.2 attr (List.dropLast_subset _ mem)⟩
  | type =>
    obtain ⟨-, others, last, eq, before, noDefault⟩ := holds
    rw [eq, List.dropLast_concat]
    refine ⟨fun attr mem hasDefault ↦ ?_, before⟩
    rcases List.mem_append.1 mem with mem | mem
    · exact before attr mem
    · rw [List.mem_singleton.1 mem, noDefault] at hasDefault
      cases hasDefault
  | defaultValue =>
    obtain ⟨-, others, last, eq, before, isTyped⟩ := holds
    rw [eq, List.dropLast_concat]
    refine ⟨fun attr mem _ ↦ ?_, before⟩
    rcases List.mem_append.1 mem with mem | mem
    · exact before attr mem
    · rw [List.mem_singleton.1 mem]
      exact isTyped

private theorem DoctypeSlot.Holds.consistent {slot : DoctypeSlot} {d : Doctype}
    (holds : slot.Holds d) (lists : NodeKind.Lists (.doctype d)) :
    NodeKind.Consistent (.doctype d) := by
  have fits := holds.fits
  constructor
  case publicId => exact fits.publicId
  case systemId => exact fits.systemId
  case publicSystemId => exact fits.publicSystemId
  case definition | content =>
    intro isSome
    cases isSome
  case named =>
    intro unnamed
    obtain ⟨keyword, publicId, systemId⟩ := (holds.of_unnamed unnamed).eq_none
    refine ⟨fun field ↦ ?_, rfl⟩
    cases field with
    | name => exact unnamed
    | keyword => exact keyword
    | publicId => exact publicId
    | systemId => exact systemId
    | _ => rfl
  case typed | untyped => exact List.forall_mem_nil _
  case lists => exact lists

private theorem ElementSlot.Holds.consistent {slot : ElementSlot} {decl : ElementDecl}
    (holds : slot.Holds decl) (lists : NodeKind.Lists (.elementDecl decl)) :
    NodeKind.Consistent (.elementDecl decl) := by
  constructor
  case publicId | systemId | publicSystemId | definition =>
    intro isSome
    cases isSome
  case content => exact holds.content_eq_none
  case named =>
    intro unnamed
    obtain ⟨category, content⟩ := holds.of_unnamed unnamed
    refine ⟨fun field ↦ ?_, rfl⟩
    cases field with
    | name => exact unnamed
    | category => exact category
    | content => exact content
    | _ => rfl
  case typed | untyped => exact List.forall_mem_nil _
  case lists => exact lists

private theorem AttlistSlot.Holds.consistent {slot : AttlistSlot} {decl : AttlistDecl}
    (holds : slot.Holds decl) (lists : NodeKind.Lists (.attlistDecl decl)) :
    NodeKind.Consistent (.attlistDecl decl) := by
  constructor
  case publicId | systemId | publicSystemId | definition | content =>
    intro isSome
    cases isSome
  case named =>
    intro unnamed
    have attributes := holds.of_unnamed unnamed
    refine ⟨fun field ↦ ?_, attributes⟩
    cases field with
    | name => exact unnamed
    | listed index =>
      rw [NodeKind.field, attributes]
      rfl
    | _ => rfl
  case typed => exact holds.typed.1
  case untyped => exact holds.typed.2
  case lists => exact lists

private theorem EntitySlot.Holds.consistent {slot : EntitySlot} {decl : EntityDecl}
    (holds : slot.Holds decl) (lists : NodeKind.Lists (.entityDecl decl)) :
    NodeKind.Consistent (.entityDecl decl) := by
  have fits := holds.fits
  constructor
  case publicId => exact fits.publicId
  case systemId => exact fits.systemId
  case publicSystemId => exact fits.publicSystemId
  case definition => exact holds.keyword_eq_none
  case content =>
    intro isSome
    cases isSome
  case named =>
    intro unnamed
    obtain ⟨value, has⟩ := holds.of_unnamed unnamed
    obtain ⟨keyword, publicId, systemId⟩ := has.eq_none
    refine ⟨fun field ↦ ?_, rfl⟩
    cases field with
    | name => exact unnamed
    | keyword => exact keyword
    | publicId => exact publicId
    | systemId => exact systemId
    | value => exact value
    | _ => rfl
  case typed | untyped => exact List.forall_mem_nil _
  case lists => exact lists

/-- What was read so far of a record fits together. -/
theorem Scanner.State.Holds.consistent {state : Scanner.State} {kind : NodeKind}
    (holds : state.Holds kind) (lists : kind.Lists) : kind.Consistent := by
  cases holds with
  | doctype holds => exact holds.consistent lists
  | elementDecl holds => exact holds.consistent lists
  | attlistDecl holds => exact holds.consistent lists
  | entityDecl holds => exact holds.consistent lists

/-! ### Parts go to fields that are not set -/

section Slots

variable {kind : TokenKind} {field : Field}

private theorem DoctypeSlot.Holds.field_eq_none {slot next : DoctypeSlot} {d : Doctype}
    (holds : slot.Holds d) (fills : slot.Fills kind next)
    (isField : kind.field? 0 = some field) : (NodeKind.doctype d).field field = none := by
  cases fills with
  | name =>
    cases isField
    exact holds.1
  | publicKeyword | systemKeyword =>
    cases isField
    exact holds.2.eq_none.1
  | publicId =>
    cases isField
    exact holds.2.publicId_eq_none
  | systemId | publicSystemId =>
    cases isField
    exact holds.2.systemId_eq_none

private theorem ElementSlot.Holds.field_eq_none {slot next : ElementSlot} {decl : ElementDecl}
    (holds : slot.Holds decl) (fills : slot.Fills kind next)
    (isField : kind.field? 0 = some field) : (NodeKind.elementDecl decl).field field = none := by
  cases fills with
  | name =>
    cases isField
    exact holds.1
  | category =>
    cases isField
    exact holds.2.1
  | content =>
    cases isField
    exact holds.2.2

private theorem AttlistSlot.Holds.field_eq_none {slot next : AttlistSlot} {decl : AttlistDecl}
    (holds : slot.Holds decl) (fills : slot.Fills kind next)
    (isField : kind.field? decl.attributes.length = some field) :
    (NodeKind.attlistDecl decl).field field = none := by
  cases fills with
  | element =>
    cases isField
    exact holds.1
  | name | nextName =>
    cases isField
    exact congrArg (Option.map _) (List.getElem?_eq_none (Nat.le_refl decl.attributes.length))
  | type | notationType | defaultValue | fixedDefault => cases isField

private theorem EntitySlot.Holds.field_eq_none {slot next : EntitySlot} {decl : EntityDecl}
    (holds : slot.Holds decl) (fills : slot.Fills kind next)
    (isField : kind.field? 0 = some field) : (NodeKind.entityDecl decl).field field = none := by
  cases fills with
  | percent => cases isField
  | name =>
    cases isField
    exact holds.1
  | value =>
    cases isField
    exact holds.2.1
  | publicKeyword | systemKeyword =>
    cases isField
    exact holds.2.2.eq_none.1
  | publicId =>
    cases isField
    exact holds.2.2.publicId_eq_none
  | systemId =>
    cases isField
    obtain ⟨-, -, isPublic, has⟩ := holds
    exact has.systemId_eq_none

end Slots

/-! ### What tokens write -/

/-- A change of the last attribute that keeps its name keeps all names. -/
private theorem AttributeDecl.name_modifyLast {change : AttributeDecl → AttributeDecl}
    (same : ∀ attr, (change attr).name = attr.name) (attributes : List AttributeDecl)
    (index : Nat) : (modifyLast change attributes)[index]?.map (·.name) =
      attributes[index]?.map (·.name) := by
  rw [← List.getElem?_map, ← List.getElem?_map]
  congr 1
  rcases List.eq_nil_or_concat attributes with rfl | ⟨others, last, rfl⟩
  · rfl
  · rw [List.concat_eq_append, modifyLast_concat, List.map_append, List.map_append]
    simp [same]

/-- The name of an attribute that is listed behind others. -/
private theorem AttributeDecl.name_concat (attributes : List AttributeDecl) (attr : AttributeDecl)
    (index : Nat) : (attributes ++ [attr])[index]?.map (·.name) =
      if attributes.length = index then some attr.name else attributes[index]?.map (·.name) := by
  split
  · next isLast => rw [← isLast, List.getElem?_concat_length, Option.map_some]
  · next differ =>
    rcases Nat.lt_or_gt_of_ne differ with behind | before
    · rw [List.getElem?_eq_none (by simp; omega), List.getElem?_eq_none (by omega)]
    · rw [List.getElem?_append_left before]

section Tokens

variable {b : Builder} {token : Token} {kind : NodeKind} {field : Field}

/-- A parameter that is taken is listed, and nothing else is recognised. -/
private theorem NodeKind.Lists.takes {kind' : NodeKind} {parameter : Parameter} (lists : kind.Lists)
    (parts : ∀ part ∈ kind'.parts, part = parameter ∨ part ∈ kind.parts)
    (parameters : kind'.parameters = kind.parameters ++ [parameter]) : kind'.Lists := by
  intro part mem
  rw [parameters, List.mem_append, List.mem_singleton]
  rcases parts part mem with isParameter | mem
  · exact .inr isParameter
  · exact .inl (lists part mem)

theorem AttributeDecl.parts_modifyLast {change : AttributeDecl → AttributeDecl}
    {parameter : Parameter}
    (parts : ∀ attr : AttributeDecl, ∀ part ∈ (change attr).parts,
      part = parameter ∨ part ∈ attr.parts) {attributes : List AttributeDecl} :
    ∀ part ∈ (modifyLast change attributes).flatMap AttributeDecl.parts,
      part = parameter ∨ part ∈ attributes.flatMap AttributeDecl.parts := by
  intro part mem
  rcases List.eq_nil_or_concat attributes with rfl | ⟨others, last, rfl⟩
  · cases mem
  · rw [List.concat_eq_append, modifyLast_concat, List.flatMap_append, List.mem_append,
      List.flatMap_singleton] at mem
    rw [List.concat_eq_append, List.flatMap_append, List.mem_append, List.flatMap_singleton]
    rcases mem with mem | mem
    · exact .inr (.inl mem)
    · exact (parts last part mem).imp_right .inr

theorem Doctype.parts_setPart (d : Doctype) (kind : TokenKind) (parameter : Parameter) :
    ∀ part ∈ NodeKind.parts (.doctype (d.setPart kind parameter)),
      part = parameter ∨ part ∈ NodeKind.parts (.doctype d) := by
  intro part mem
  simp only [NodeKind.parts, ExternalId.parts, List.mem_append, Option.mem_toList] at mem ⊢
  unfold Doctype.setPart at mem
  split at mem <;> grind

theorem ElementDecl.parts_setPart (decl : ElementDecl) (kind : TokenKind) (parameter : Parameter) :
    ∀ part ∈ NodeKind.parts (.elementDecl (decl.setPart kind parameter)),
      part = parameter ∨ part ∈ NodeKind.parts (.elementDecl decl) := by
  intro part mem
  simp only [NodeKind.parts, List.mem_append, Option.mem_toList] at mem ⊢
  unfold ElementDecl.setPart at mem
  split at mem <;> grind

theorem EntityDecl.parts_setPart (decl : EntityDecl) (kind : TokenKind) (parameter : Parameter) :
    ∀ part ∈ NodeKind.parts (.entityDecl (decl.setPart kind parameter)),
      part = parameter ∨ part ∈ NodeKind.parts (.entityDecl decl) := by
  intro part mem
  simp only [NodeKind.parts, ExternalId.parts, List.mem_append, Option.mem_toList] at mem ⊢
  unfold EntityDecl.setPart at mem
  split at mem <;> grind

theorem AttlistDecl.parts_setPart (decl : AttlistDecl) (kind : TokenKind) (parameter : Parameter) :
    ∀ part ∈ NodeKind.parts (.attlistDecl (decl.setPart kind parameter)),
      part = parameter ∨ part ∈ NodeKind.parts (.attlistDecl decl) := by
  intro part mem
  simp only [NodeKind.parts, List.mem_append, Option.mem_toList] at mem ⊢
  unfold AttlistDecl.setPart at mem
  split at mem
  · grind
  · simp only [List.flatMap_append, List.mem_append, List.flatMap_singleton, AttributeDecl.parts,
      Option.toList_none, List.append_nil, List.mem_singleton] at mem
    grind
  · refine mem.elim (fun isName ↦ .inr (.inl isName)) fun mem ↦ ?_
    refine (AttributeDecl.parts_modifyLast (fun attr part mem ↦ ?_) part mem).imp_right .inr
    simp only [AttributeDecl.parts, List.mem_cons, List.mem_append, Option.mem_toList] at mem ⊢
    grind
  · refine mem.elim (fun isName ↦ .inr (.inl isName)) fun mem ↦ ?_
    refine (AttributeDecl.parts_modifyLast (fun attr part mem ↦ ?_) part mem).imp_right .inr
    simp only [AttributeDecl.parts, List.mem_cons, List.mem_append, Option.mem_toList] at mem ⊢
    grind
  · exact .inr mem

/-- Whatever a token is, all that is recognised then is among the parameters. -/
theorem NodeKind.Lists.rewrite (lists : kind.Lists) (b : Builder) (token : Token) :
    (b.rewrite token kind).Lists := by
  have doctype (d : Doctype) (before : NodeKind.Lists (.doctype d)) :
      NodeKind.Lists (.doctype (d.take token)) :=
    before.takes (d.parts_setPart token.kind token.parameter) rfl
  have taken : (kind.takeParameter token).Lists := by
    cases kind with
    | doctype d =>
      rw [takeParameter]
      split
      · exact doctype d lists
      · exact lists
    | elementDecl decl => exact lists.takes (decl.parts_setPart token.kind token.parameter) rfl
    | attlistDecl decl => exact lists.takes (decl.parts_setPart token.kind token.parameter) rfl
    | entityDecl decl => exact lists.takes (decl.parts_setPart token.kind token.parameter) rfl
    | _ => exact lists
  unfold Builder.rewrite
  cases token.kind with
  | doctypeName | doctypePublic | doctypeSystem | doctypePublicId | doctypeSystemId =>
    cases kind with
    | doctype d => exact doctype d lists
    | _ => exact lists
  | elementDeclName | elementDeclCategory | elementDeclContent | attlistElement | attlistName
  | attlistType | attlistDefault | entityPercent | entityName | entityValue | entityPublic
  | entitySystem | entityPublicId | entitySystemId | unrecognized => exact taken
  | _ => cases kind <;> exact lists

/-- A token that is no part leaves the fields as they are. -/
theorem Builder.field_rewrite_of_not_isPart (b : Builder) (notPart : token.kind.isPart = false)
    (kind : NodeKind) (field : Field) : (b.rewrite token kind).field field = kind.field field := by
  unfold rewrite
  cases isKind : token.kind with
  | unrecognized =>
    cases kind with
    | doctype d =>
      simp only [NodeKind.takeParameter, isKind, ↓reduceIte, Doctype.take, Doctype.setPart]
      cases field <;> rfl
    | elementDecl decl | attlistDecl decl | entityDecl decl =>
      simp only [NodeKind.takeParameter, NodeKind.take, isKind]
      cases field <;> rfl
    | _ => rfl
  | doctypeName | doctypePublic | doctypeSystem | doctypePublicId | doctypeSystemId
  | elementDeclName | elementDeclCategory | elementDeclContent | attlistElement | attlistName
  | attlistType | attlistDefault | entityPercent | entityName | entityValue | entityPublic
  | entitySystem | entityPublicId | entitySystemId =>
    rw [isKind] at notPart
    cases notPart
  | _ => cases kind <;> cases field <;> rfl

/-- What was told of a record stays so. -/
theorem Scanner.State.Holds.rewrite_of_not_isPart {state : Scanner.State}
    (holds : state.Holds kind) (b : Builder) (notPart : token.kind.isPart = false) :
    state.Holds (b.rewrite token kind) := by
  unfold Builder.rewrite
  cases isKind : token.kind with
  | unrecognized =>
    cases holds with
    | doctype holds =>
      simp only [NodeKind.takeParameter, isKind, ↓reduceIte, Doctype.take, Doctype.setPart]
      exact .doctype holds
    | elementDecl holds =>
      simp only [NodeKind.takeParameter, NodeKind.take, isKind]
      exact .elementDecl holds
    | attlistDecl holds =>
      simp only [NodeKind.takeParameter, NodeKind.take, isKind]
      exact .attlistDecl holds
    | entityDecl holds =>
      simp only [NodeKind.takeParameter, NodeKind.take, isKind]
      exact .entityDecl holds
  | doctypeName | doctypePublic | doctypeSystem | doctypePublicId | doctypeSystemId
  | elementDeclName | elementDeclCategory | elementDeclContent | attlistElement | attlistName
  | attlistType | attlistDefault | entityPercent | entityName | entityValue | entityPublic
  | entitySystem | entityPublicId | entitySystemId =>
    rw [isKind] at notPart
    cases notPart
  | subsetOpen | subsetClose =>
    cases holds with
    | doctype holds => exact .doctype holds
    | elementDecl holds => exact .elementDecl holds
    | attlistDecl holds => exact .attlistDecl holds
    | entityDecl holds => exact .entityDecl holds
  | _ => cases holds <;> constructor <;> assumption

end Tokens

namespace Scanner.Config

variable {config next : Config} {b : Builder} {kind : TokenKind} {taken : Text} {span : Span}
  {record : NodeKind}

/-- A part leads to what the slot behind it tells. -/
theorem Emits.holds_rewrite (emits : config.Emits kind taken next) (isPart : kind.isPart = true)
    (announced : ∀ keyword, kind.announces? = some keyword → taken = keyword)
    (holds : config.state.Holds record) :
    next.state.Holds (b.rewrite ⟨kind, span, taken⟩ record) := by
  cases emits with
  | @doctypePart _ _ slot next h fills =>
    rw [h] at holds
    cases holds with
    | @doctype _ d holds =>
      have filled : next.Holds (d.setPart kind ⟨span, taken⟩) := holds.setPart fills announced
      cases fills <;> exact .doctype filled
  | @elementPart _ _ slot next h fills =>
    rw [h] at holds
    cases holds with
    | @elementDecl _ decl holds =>
      have filled : next.Holds (decl.setPart kind ⟨span, taken⟩) := holds.setPart fills
      cases fills <;> exact .elementDecl filled
  | @attlistPart _ _ slot next h fills =>
    rw [h] at holds
    cases holds with
    | @attlistDecl _ decl holds =>
      have filled : next.Holds (decl.setPart kind ⟨span, taken⟩) := holds.setPart fills
      cases fills <;> exact .attlistDecl filled
  | @entityPart _ _ slot next h fills =>
    rw [h] at holds
    cases holds with
    | @entityDecl _ decl holds =>
      have filled : next.Holds (decl.setPart kind ⟨span, taken⟩) := holds.setPart fills announced
      cases fills <;> exact .entityDecl filled
  | _ => cases isPart

/-- A part sets the field that it goes to, and no other. -/
theorem Emits.field_rewrite (emits : config.Emits kind taken next) (isPart : kind.isPart = true)
    (holds : config.state.Holds record) (field : Field) :
    (b.rewrite ⟨kind, span, taken⟩ record).field field =
      if kind.field? record.listed.length = some field then some ⟨span, taken⟩
      else record.field field := by
  cases emits with
  | doctypePart h fills =>
    rw [h] at holds
    cases holds with
    | doctype holds => cases fills <;> cases field <;> rfl
  | elementPart h fills =>
    rw [h] at holds
    cases holds with
    | elementDecl holds => cases fills <;> cases field <;> rfl
  | attlistPart h fills =>
    rw [h] at holds
    cases holds with
    | @attlistDecl _ decl holds =>
      cases field with
      | listed index =>
        cases fills with
        | element => rfl
        | name | nextName =>
          simp only [TokenKind.field?, Option.some.injEq, Field.listed.injEq]
          exact AttributeDecl.name_concat decl.attributes _ index
        | type | notationType | defaultValue | fixedDefault =>
          refine (AttributeDecl.name_modifyLast ?_ decl.attributes index).trans rfl
          exact fun _ ↦ rfl
      | _ => cases fills <;> rfl
  | entityPart h fills =>
    rw [h] at holds
    cases holds with
    | entityDecl holds => cases fills <;> cases field <;> rfl
  | _ => cases isPart

/-- A part goes to a field that is not set. -/
theorem Emits.field_eq_none (emits : config.Emits kind taken next) (isPart : kind.isPart = true)
    (holds : config.state.Holds record) {field : Field}
    (isField : kind.field? record.listed.length = some field) : record.field field = none := by
  cases emits with
  | doctypePart h fills =>
    rw [h] at holds
    cases holds with
    | doctype holds => exact holds.field_eq_none fills isField
  | elementPart h fills =>
    rw [h] at holds
    cases holds with
    | elementDecl holds => exact holds.field_eq_none fills isField
  | attlistPart h fills =>
    rw [h] at holds
    cases holds with
    | attlistDecl holds => exact holds.field_eq_none fills isField
  | entityPart h fills =>
    rw [h] at holds
    cases holds with
    | entityDecl holds => exact holds.field_eq_none fills isField
  | _ => cases isPart

end Scanner.Config

end TolerantXml
