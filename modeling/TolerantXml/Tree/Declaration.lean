import TolerantXml.Markup.Delimiter
import TolerantXml.Text.Quoted
import TolerantXml.Token

/-!
# Declarations

The document type and the declarations of elements, attribute lists and entities. Each keeps all
its parameters in order, and the parts that were recognised among them.
-/

namespace TolerantXml

/-- A piece of a declaration, and where it stands. -/
structure Parameter where
  span : Span
  value : Text
  deriving DecidableEq, Repr

/-- A parameter without its quotation marks. -/
def Parameter.unquoted (parameter : Parameter) : Text := parameter.value.unquote

/-- The keyword of the declaration that starts at an offset, as the text has it. -/
def Parameter.keywordAt (source : Text) (start : Nat) (keyword : Text) : Parameter :=
  let span : Span := ⟨start + Delimiter.declOpen.byteSize,
    start + Delimiter.declOpen.byteSize + keyword.byteSize⟩
  ⟨span, span.text source⟩

/-- Behind the opening of a declaration stands its keyword. -/
theorem Parameter.keywordAt_eq {source passed keyword tail : Text}
    (split : source = passed ++ (Delimiter.declOpen ++ keyword ++ tail)) :
    keywordAt source passed.byteSize keyword =
      ⟨⟨passed.byteSize + Delimiter.declOpen.byteSize,
        passed.byteSize + Delimiter.declOpen.byteSize + keyword.byteSize⟩, keyword⟩ := by
  have cut : source = (passed ++ Delimiter.declOpen) ++ keyword ++ tail := by
    rw [split]
    simp only [List.append_assoc]
  have covers : Span.text ⟨(passed ++ Delimiter.declOpen).byteSize,
      (passed ++ Delimiter.declOpen).byteSize + keyword.byteSize⟩ source = keyword := by
    rw [cut]
    exact Span.text_eq
  rw [Text.byteSize_append] at covers
  rw [keywordAt, covers]

/-- A reference to text outside the document. -/
structure ExternalId where
  /-- The keyword `PUBLIC` or `SYSTEM`. -/
  keyword : Option Parameter := none
  publicId : Option Parameter := none
  systemId : Option Parameter := none
  deriving DecidableEq, Repr

/-- A document type declaration. -/
structure Doctype where
  name : Option Parameter := none
  externalId : ExternalId := {}
  /-- The offset of `[`. -/
  subsetStart : Option Nat := none
  /-- The offset of `]`. -/
  subsetStop : Option Nat := none
  parameters : List Parameter := []
  deriving DecidableEq, Repr

/-- The internal subset with its opening bracket. -/
def Doctype.internalSubset (doctype : Doctype) : Option Span := do
  return ⟨← doctype.subsetStart, ← doctype.subsetStop⟩

/-- The declaration of an element. -/
structure ElementDecl where
  keyword : Parameter
  name : Option Parameter := none
  category : Option Parameter := none
  content : Option Parameter := none
  parameters : List Parameter := []
  deriving DecidableEq, Repr

/-- The declaration of an attribute, as a part of an attribute list. -/
structure AttributeDecl where
  name : Parameter
  type : Option Parameter := none
  defaultValue : Option Parameter := none
  deriving DecidableEq, Repr

/-- The declaration of the attributes of an element. -/
structure AttlistDecl where
  keyword : Parameter
  elementName : Option Parameter := none
  attributes : List AttributeDecl := []
  parameters : List Parameter := []
  deriving DecidableEq, Repr

/-- The declaration of an entity. -/
structure EntityDecl where
  keyword : Parameter
  percent : Option Parameter := none
  name : Option Parameter := none
  value : Option Parameter := none
  externalId : ExternalId := {}
  parameters : List Parameter := []
  deriving DecidableEq, Repr

/-- Whether an entity is for use in declarations only. -/
def EntityDecl.isParameterEntity (decl : EntityDecl) : Bool := decl.percent.isSome

/-- Changes the last attribute of a list, if there is one. -/
def AttributeDecl.modifyLast (change : AttributeDecl → AttributeDecl) :
    List AttributeDecl → List AttributeDecl
  | [] => []
  | [last] => [change last]
  | first :: next :: rest => first :: modifyLast change (next :: rest)

/-- Fills the part of an element declaration that a token is. -/
def ElementDecl.setPart (decl : ElementDecl) (kind : TokenKind) (parameter : Parameter) :
    ElementDecl :=
  match kind with
  | .elementDeclName => { decl with name := some parameter }
  | .elementDeclCategory => { decl with category := some parameter }
  | .elementDeclContent => { decl with content := some parameter }
  | _ => decl

/-- Fills the part of an attribute list declaration that a token is; a name adds an attribute, and
types and defaults are those of the attribute added last. -/
def AttlistDecl.setPart (decl : AttlistDecl) (kind : TokenKind) (parameter : Parameter) :
    AttlistDecl :=
  match kind with
  | .attlistElement => { decl with elementName := some parameter }
  | .attlistName => { decl with attributes := decl.attributes ++ [{ name := parameter }] }
  | .attlistType =>
    { decl with
      attributes := AttributeDecl.modifyLast (fun a ↦ { a with type := some parameter })
        decl.attributes }
  | .attlistDefault =>
    { decl with
      attributes := AttributeDecl.modifyLast (fun a ↦ { a with defaultValue := some parameter })
        decl.attributes }
  | _ => decl

/-- Fills the part of an entity declaration that a token is. -/
def EntityDecl.setPart (decl : EntityDecl) (kind : TokenKind) (parameter : Parameter) :
    EntityDecl :=
  match kind with
  | .entityPercent => { decl with percent := some parameter }
  | .entityName => { decl with name := some parameter }
  | .entityValue => { decl with value := some parameter }
  | .entityPublic | .entitySystem =>
    { decl with externalId.keyword := some parameter }
  | .entityPublicId => { decl with externalId.publicId := some parameter }
  | .entitySystemId => { decl with externalId.systemId := some parameter }
  | _ => decl

end TolerantXml
