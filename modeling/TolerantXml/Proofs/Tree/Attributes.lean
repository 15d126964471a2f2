import TolerantXml.Proofs.Tree.AttributeList
import TolerantXml.Proofs.Tree.Spared

/-!
# The attributes of nodes

Two tokens change attributes: a name puts an attribute in the list of the current node
(`Builder.attributes_nameAttribute`), and a value goes to the attribute that waits for it
(`Builder.attributes_setAttributeValue`). Any other token leaves the attributes of all nodes, and
opens nodes without any (`Builder.attributes_apply`).
-/

namespace TolerantXml

/-- The attributes of a node in a document. -/
def Document.attributes (doc : Document) (id : Nat) : List Attribute :=
  (doc.node id).kind.attributes

namespace NodeKind

theorem attributes_modifyElement {change : Element → Element}
    (same : ∀ e, (change e).attributes = e.attributes) (kind : NodeKind) :
    (kind.modifyElement change).attributes = kind.attributes := by
  cases kind with
  | element e => exact same e
  | _ => rfl

theorem attributes_modifyInstruction {change : Instruction → Instruction}
    (same : ∀ i, (change i).attributes = i.attributes) (kind : NodeKind) :
    (kind.modifyInstruction change).attributes = kind.attributes := by
  cases kind with
  | instruction i => exact same i
  | _ => rfl

theorem attributes_modifyDoctype (change : Doctype → Doctype) (kind : NodeKind) :
    (kind.modifyDoctype change).attributes = kind.attributes := by
  cases kind <;> rfl

theorem attributes_modifyAttributes {kind : NodeKind} (has : kind.attributes?.isSome = true)
    (change : List Attribute → List Attribute) :
    (kind.modifyAttributes change).attributes = change kind.attributes := by
  cases kind with
  | element | instruction => rfl
  | _ => cases has

/-- A parameter is no attribute of a node. -/
theorem attributes_takeParameter (token : Token) (kind : NodeKind) :
    (kind.takeParameter token).attributes = kind.attributes := by
  cases kind with
  | doctype d =>
    rw [takeParameter]
    split
    · rfl
    · rfl
  | _ => rfl

end NodeKind

namespace Builder

variable {b : Builder} {token : Token} {index : Nat}

theorem attributes_setCurrentStop (b : Builder) (stop id : Nat) :
    (b.setCurrentStop stop).doc.attributes id = b.doc.attributes id :=
  congrArg NodeKind.attributes (kind_setStop b stop b.current id).1

/-! ### Names and values -/

/-- A builder whose current node got other attributes, and an attribute that waits for a value. -/
def withAttributes (b : Builder) (change : List Attribute → List Attribute)
    (pending : Option (Nat × Nat)) : Builder :=
  { b.modifyKind (.modifyAttributes change) with pending := pending }

section Has

variable (has : b.currentNode.kind.attributes?.isSome = true)
include has

private theorem nameAttribute_eq (token : Token) :
    b.nameAttribute token =
      (b.withAttributes (Attribute.put · (.named token.text token.span))
        (some (b.current,
          Attribute.indexOf (b.doc.attributes b.current) token.text))).setCurrentStop
          token.stop := by
  obtain ⟨attributes, hasAttributes⟩ := Option.isSome_iff_exists.1 has
  have isList : b.doc.attributes b.current = attributes := by
    rw [currentNode] at hasAttributes
    rw [Document.attributes, NodeKind.attributes, hasAttributes, Option.getD_some]
  simp only [nameAttribute, hasAttributes, isList]
  rfl

theorem attributes_withAttributes (linked : b.Linked) (change : List Attribute → List Attribute)
    (pending : Option (Nat × Nat)) (id : Nat) :
    (b.withAttributes change pending).doc.attributes id =
      if id = b.current then change (b.doc.attributes id) else b.doc.attributes id := by
  rw [Document.attributes, withAttributes]
  simp only [modifyKind]
  rw [Document.node_modify _ linked.current_lt]
  split
  · next isCurrent =>
    rw [isCurrent]
    exact NodeKind.attributes_modifyAttributes has change
  · rfl

/-- The name of an attribute is put in the list of the current node, without a value. -/
theorem attributes_nameAttribute (linked : b.Linked) (token : Token) (id : Nat) :
    (b.nameAttribute token).doc.attributes id =
      if id = b.current then
        Attribute.put (b.doc.attributes id) (.named token.text token.span)
      else b.doc.attributes id := by
  rw [nameAttribute_eq has, attributes_setCurrentStop,
    attributes_withAttributes has linked]

/-- The place of the attribute that was named last is remembered. -/
theorem pending_nameAttribute (token : Token) :
    (b.nameAttribute token).pending =
      some (b.current, Attribute.indexOf (b.doc.attributes b.current) token.text) := by
  rw [nameAttribute_eq has, pending_setCurrentStop]
  rfl

end Has

section Pending

variable (pending : b.pending = some (b.current, index))
include pending

private theorem setAttributeValue_eq (token : Token) :
    b.setAttributeValue token =
      (b.withAttributes (·.modify index (·.withValue token.text token.span)) none).setCurrentStop
        token.stop := by
  simp only [setAttributeValue, pending]
  rfl

/-- A value goes to the attribute of the current node that waits for it. -/
theorem attributes_setAttributeValue (has : b.currentNode.kind.attributes?.isSome = true)
    (linked : b.Linked) (token : Token) (id : Nat) :
    (b.setAttributeValue token).doc.attributes id =
      if id = b.current then
        (b.doc.attributes id).modify index (·.withValue token.text token.span)
      else b.doc.attributes id := by
  rw [setAttributeValue_eq pending, attributes_setCurrentStop,
    attributes_withAttributes has linked]

end Pending

/-! ### Other tokens -/

theorem attributes_rewrite (notName : token.kind ≠ .attributeName)
    (notValue : token.kind ≠ .attributeValue) (kind : NodeKind) :
    (b.rewrite token kind).attributes = kind.attributes := by
  unfold rewrite
  cases isKind : token.kind with
  | attributeName => exact absurd isKind notName
  | attributeValue => exact absurd isKind notValue
  | startTag | emptyTagClose | endTag | endTagClose =>
    refine NodeKind.attributes_modifyElement ?_ kind
    exact fun _ ↦ rfl
  | startTagClose => cases kind <;> rfl
  | comment | cdata => cases kind <;> rfl
  | prologTarget | instructionTarget | instructionData =>
    refine NodeKind.attributes_modifyInstruction ?_ kind
    exact fun _ ↦ rfl
  | doctypeName | doctypePublic | doctypeSystem | doctypePublicId | doctypeSystemId | subsetOpen
  | subsetClose => exact NodeKind.attributes_modifyDoctype _ kind
  | elementDeclName | elementDeclCategory | elementDeclContent | attlistElement | attlistName
  | attlistType | attlistDefault | entityPercent | entityName | entityValue | entityPublic
  | entitySystem | entityPublicId | entitySystemId | unrecognized =>
    exact NodeKind.attributes_takeParameter token kind
  | _ => rfl

theorem attributes_added (b : Builder) (token : Token) : (b.added token).attributes = [] := by
  unfold added
  cases token.kind <;> rfl

/-- A token that is neither the name nor the value of an attribute leaves all attributes. -/
theorem attributes_apply (linked : b.Linked) (notName : token.kind ≠ .attributeName)
    (notValue : token.kind ≠ .attributeValue) (id : Nat) :
    (b.apply token).doc.attributes id = b.doc.attributes id := by
  have records := records_apply linked token
  rw [Document.attributes, Document.attributes]
  rcases Nat.lt_or_ge id b.doc.count with old | new
  · rw [records.old id old]
    split
    · exact attributes_rewrite notName notValue _
    · rfl
  · rw [Document.node_of_count_le new]
    rcases Nat.lt_or_ge id (b.apply token).doc.count with lt | ge
    · rw [records.new id new lt]
      exact attributes_added b token
    · rw [Document.node_of_count_le ge]

end Builder

end TolerantXml
