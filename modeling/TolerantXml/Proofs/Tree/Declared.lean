import TolerantXml.Proofs.Print.Declaration
import TolerantXml.Proofs.Tree.Opened

/-!
# Building declarations one after another

A builder that took well-formed declarations has nothing but their nodes in the document type
(`Builder.declared`), and one more while it takes a declaration (`Builder.declaring`). The parts of
a declaration fill its fields (`foldl_take_tokensAt`).
-/

namespace TolerantXml

variable {text uri : Text} {nodes : List Node} {node : Node} {token : Token}

/-! ### The document of declarations -/

namespace Document

theorem count_ofDeclarations (text uri : Text) (nodes : List Node) :
    (ofDeclarations text uri nodes).count = 2 + nodes.length := by
  rw [count, ofDeclarations, List.size_toArray, List.length_cons, List.length_cons]
  omega

theorem node_ofDeclarations_doctype :
    (ofDeclarations text uri nodes).node 1 = declarationsType text nodes.length := rfl

theorem node_ofDeclarations {i : Nat} (isNode : nodes[i]? = some node) :
    (ofDeclarations text uri nodes).node (2 + i) = node := by
  rw [Document.node, ofDeclarations, Array.getD_eq_getD_getElem?, List.getElem?_toArray,
    Nat.add_comm]
  simp [isNode]

theorem path_ofDeclarations (text uri : Text) (nodes : List Node) :
    (ofDeclarations text uri nodes).path 1 = [1, root] := by
  have above : (ofDeclarations text uri nodes).ancestors 1 = root :: _ :=
    ancestors_of_parent (by rw [node_ofDeclarations_doctype]; rfl) Nat.one_pos
  rw [path, above, ancestors_of_none]
  rfl

/-- A node that is added to the document type comes last. -/
private theorem addChild_ofDeclarations (node : Node) :
    (ofDeclarations text uri nodes).addChild 1 node =
      ofDeclarations text uri (nodes ++ [{ node with parent := some 1 }]) := by
  have count := count_ofDeclarations text uri nodes
  have concat : List.range' 2 (nodes.length + 1) = List.range' 2 nodes.length ++
      [2 + nodes.length] := by
    rw [List.range'_concat, Nat.one_mul]
  simp only [addChild, count]
  simp only [modify, ofDeclarations, List.push_toArray, List.modify_toArray, List.cons_append,
    List.modify_succ_cons, List.modify_zero_cons, List.length_append, List.length_singleton,
    declarationsType, concat]

/-- A change of the last node. -/
private theorem modify_ofDeclarations (change : Node → Node) :
    (ofDeclarations text uri (nodes ++ [node])).modify (2 + nodes.length) change =
      ofDeclarations text uri (nodes ++ [change node]) := by
  have last : 2 + nodes.length = nodes.length + 1 + 1 := Nat.add_comm 2 nodes.length
  simp only [modify, ofDeclarations, last, List.modify_toArray, List.modify_succ_cons,
    modify_concat, List.length_append, List.length_singleton]

end Document

/-! ### Between declarations and inside them -/

namespace Builder

/-- A builder between declarations. -/
def declared (text uri : Text) (nodes : List Node) : Builder :=
  ⟨.ofDeclarations text uri nodes, 1, none, none, none⟩

/-- A builder inside a declaration. -/
def declaring (text uri : Text) (nodes : List Node) (node : Node) : Builder :=
  { declared text uri (nodes ++ [node]) with current := 2 + nodes.length }

theorem start_eq_declared (text uri : Text) : start text uri .dtd = declared text uri [] := by
  simp [start, declared, Document.ofDeclarations, Document.ofText, Document.addChild,
    Document.modify, Document.count, Document.root, Document.declarationsType]

private theorem currentNode_declaring :
    (declaring text uri nodes node).currentNode = node := by
  rw [currentNode, declaring]
  exact Document.node_ofDeclarations List.getElem?_concat_length

/-- Between declarations there is nothing to end. -/
private theorem returnToDoctype_declared (offset : Nat) :
    (declared text uri nodes).returnToDoctype offset = declared text uri nodes := by
  have path : (declared text uri nodes).doc.path (declared text uri nodes).current =
      [] ++ 1 :: [Document.root] := Document.path_ofDeclarations text uri nodes
  rw [returnToDoctype_eq path rfl (List.forall_mem_nil _)]
  rfl

theorem openDeclaration_declared (place : Nat) (keyword : Text) (kind : Parameter → NodeKind) :
    (declared text uri nodes).openDeclaration place keyword kind =
      declaring text uri nodes
        { kind := kind (.keywordAt text place keyword)
          start := place
          stop := text.byteSize
          parent := some 1 } := by
  have isDoctype : (declared text uri nodes).currentNode.kind.isDoctype = true := rfl
  simp only [openDeclaration, returnToDoctype_declared, isDoctype, ↓reduceIte]
  rw [openToEnd, openNode, declaring, declared]
  simp only [Document.count_ofDeclarations, Document.addChild_ofDeclarations]
  rfl

theorem closeIf_declaring {p : NodeKind → Bool} (isKind : p node.kind = true)
    (isChild : node.parent = some 1) (stop : Nat) :
    (declaring text uri nodes node).closeIf p stop =
      declared text uri (nodes ++ [{ node with closed := true, stop := stop }]) := by
  rw [closeIf, currentNode_declaring, if_pos isKind, close, currentNode_declaring, isChild]
  simp only [declaring, declared, Document.modify_ofDeclarations, isChild]

theorem finish_declared : (declared text uri nodes).finish = .ofDeclarations text uri nodes := by
  have path : (declared text uri nodes).doc.path (declared text uri nodes).current =
      [1, Document.root] := Document.path_ofDeclarations text uri nodes
  rw [finish, path]
  simp [setStop, declared, Document.root, Document.modify, Document.ofDeclarations,
    Document.declarationsType, Document.length]

end Builder

/-! ### The fields of a declaration -/

/-- Takes a parameter into a declaration. -/
def NodeKind.take (kind : NodeKind) (token : Token) : NodeKind :=
  match kind with
  | .elementDecl decl =>
    .elementDecl
      { decl.setPart token.kind token.parameter with
        parameters := decl.parameters ++ [token.parameter] }
  | .attlistDecl decl =>
    .attlistDecl
      { decl.setPart token.kind token.parameter with
        parameters := decl.parameters ++ [token.parameter] }
  | .entityDecl decl =>
    .entityDecl
      { decl.setPart token.kind token.parameter with
        parameters := decl.parameters ++ [token.parameter] }
  | kind => kind

theorem NodeKind.isDeclaration_take {kind : NodeKind} (isDecl : kind.isDeclaration = true)
    (token : Token) : (kind.take token).isDeclaration = true := by
  cases kind with
  | elementDecl | attlistDecl | entityDecl => rfl
  | _ => cases isDecl

theorem Builder.addParameter_declaring (isDecl : node.kind.isDeclaration = true) (token : Token) :
    (declaring text uri nodes node).addParameter token =
      declaring text uri nodes { node with kind := node.kind.take token } := by
  have kinds : ∀ change : NodeKind → NodeKind, change node.kind = node.kind.take token →
      (declaring text uri nodes node).modifyKind change =
        declaring text uri nodes { node with kind := node.kind.take token } := by
    intro change same
    simp only [modifyKind, declaring, declared, Document.modify_ofDeclarations, Node.modifyKind,
      same]
  apply kinds
  cases kind : node.kind with
  | elementDecl | attlistDecl | entityDecl => rfl
  | _ =>
    rw [kind] at isDecl
    cases isDecl

/-- A declaration of which only the keyword was read. -/
def DeclarationBody.openedKind (keyword : Parameter) : DeclarationBody → NodeKind
  | .element .. => .elementDecl { keyword }
  | .attlist .. => .attlistDecl { keyword }
  | .entity .. => .entityDecl { keyword }

theorem modifyLast_concat (change : AttributeDecl → AttributeDecl) (others : List AttributeDecl)
    (last : AttributeDecl) :
    AttributeDecl.modifyLast change (others ++ [last]) = others ++ [change last] := by
  induction others with
  | nil => rfl
  | cons first others ih =>
    cases others with
    | nil => rfl
    | cons next others =>
      rw [List.cons_append, List.cons_append, AttributeDecl.modifyLast, ← List.cons_append, ih]
      rfl

theorem Part.tokensAt_append (offset : Nat) (first second : List Part) :
    tokensAt offset (first ++ second) =
      tokensAt offset first ++ tokensAt (offset + (printAll first).byteSize) second := by
  induction first generalizing offset with
  | nil => rfl
  | cons part first ih =>
    rw [List.cons_append, tokensAt, tokensAt, ih, List.cons_append, printAll, printAll,
      List.flatMap_cons, Text.byteSize_append, Nat.add_assoc]

section Attributes

variable {keyword : Parameter} {elementName : Option Parameter} {parameters : List Parameter}

/-- The type of an attribute is what was read of it last. -/
private theorem foldl_take_type (others : List AttributeDecl) (last : AttributeDecl)
    (type : AttributeType) (gap : Text) (offset : Nat) :
    (Part.tokensAt offset (type.parts gap)).foldl NodeKind.take
        (.attlistDecl ⟨keyword, elementName, others ++ [last], parameters⟩) =
      .attlistDecl ⟨keyword, elementName,
        others ++ [{ last with
          type := ((Part.tokensAt offset (type.parts gap)).getLast?).map Token.parameter }],
        parameters ++ (Part.tokensAt offset (type.parts gap)).map Token.parameter⟩ := by
  cases type <;>
    simp [AttributeType.parts, Part.tokensAt, Part.tokenAt, NodeKind.take, AttlistDecl.setPart,
      modifyLast_concat]

/-- The default of an attribute is what was read of it last. -/
private theorem foldl_take_default (others : List AttributeDecl) (last : AttributeDecl)
    (default : AttributeDefault) (gap : Text) (offset : Nat) :
    (Part.tokensAt offset (default.parts gap)).foldl NodeKind.take
        (.attlistDecl ⟨keyword, elementName, others ++ [last], parameters⟩) =
      .attlistDecl ⟨keyword, elementName,
        others ++ [{ last with
          defaultValue :=
            ((Part.tokensAt offset (default.parts gap)).getLast?).map Token.parameter }],
        parameters ++ (Part.tokensAt offset (default.parts gap)).map Token.parameter⟩ := by
  cases default <;>
    simp [AttributeDefault.parts, Part.tokensAt, Part.tokenAt, NodeKind.take, AttlistDecl.setPart,
      modifyLast_concat]

/-- Attributes come behind those that were read before. -/
private theorem foldl_take_attributes (attributes : List AttributeDecl) (items : List AttributeItem)
    (offset : Nat) :
    (Part.tokensAt offset (items.flatMap AttributeItem.parts)).foldl NodeKind.take
        (.attlistDecl ⟨keyword, elementName, attributes, parameters⟩) =
      .attlistDecl ⟨keyword, elementName, attributes ++ AttributeItem.attributesAt offset items,
        parameters ++
          (Part.tokensAt offset (items.flatMap AttributeItem.parts)).map Token.parameter⟩ := by
  induction items generalizing attributes parameters offset with
  | nil => simp [Part.tokensAt, AttributeItem.attributesAt]
  | cons item items ih =>
    have named : NodeKind.take (.attlistDecl ⟨keyword, elementName, attributes, parameters⟩)
        (item.namePart.tokenAt offset) =
        .attlistDecl ⟨keyword, elementName,
          attributes ++ [{ name := (item.namePart.tokenAt offset).parameter }],
          parameters ++ [(item.namePart.tokenAt offset).parameter]⟩ := rfl
    have first : (Part.tokensAt offset item.parts).foldl NodeKind.take
        (.attlistDecl ⟨keyword, elementName, attributes, parameters⟩) =
        .attlistDecl ⟨keyword, elementName,
          attributes ++ AttributeItem.attributesAt offset [item],
          parameters ++ (Part.tokensAt offset item.parts).map Token.parameter⟩ := by
      rw [AttributeItem.parts, Part.tokensAt, Part.tokensAt_append, List.foldl_cons,
        List.foldl_append, named, foldl_take_type, foldl_take_default]
      simp [AttributeItem.attributesAt]
    rw [List.flatMap_cons, Part.tokensAt_append, List.foldl_append, first, ih]
    simp [AttributeItem.attributesAt]

end Attributes

/-- The parts of a declaration fill its fields. -/
theorem foldl_take_tokensAt (body : DeclarationBody) (offset : Nat) :
    let keywordStart := offset + Delimiter.declOpen.byteSize
    let keywordStop := keywordStart + body.keyword.byteSize
    (Part.tokensAt keywordStop body.parts).foldl NodeKind.take
        (body.openedKind ⟨⟨keywordStart, keywordStop⟩, body.keyword⟩) =
      body.kindAt offset := by
  intro keywordStart keywordStop
  cases body with
  | element nameGap name contentGap content =>
    cases content <;> rfl
  | attlist elementGap elementName attributes =>
    exact foldl_take_attributes [] attributes _
  | entity percentGap nameGap name definitionGap definition =>
    cases percentGap <;> cases definition <;> rfl

end TolerantXml
