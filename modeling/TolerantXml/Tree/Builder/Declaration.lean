import TolerantXml.Tree.Builder.Basic

/-!
# Building declarations

What a builder does with the tokens of the document type and of declarations. A declaration stands
in a document type; what is still open there ends before the next declaration or the end of the
document type.
-/

namespace TolerantXml.Builder

/-- Enters the internal subset at `[`. -/
def openSubset (b : Builder) (start : Nat) : Builder :=
  b.modifyKind <| .modifyDoctype fun d ↦ { d with subsetStart := some start }

/-- Leaves the internal subset at `]`. -/
def closeSubset (b : Builder) (start : Nat) : Builder :=
  (b.returnToDoctype start).modifyKind <| .modifyDoctype fun d ↦
    { d with subsetStop := some start }

/-- Ends the document type at `>`. -/
def closeDoctype (b : Builder) (span : Span) : Builder :=
  (b.returnToDoctype span.start).closeIf (·.isDoctype) span.stop

/-- Opens a declaration, if it stands in a document type. -/
def openDeclaration (b : Builder) (start : Nat) (keyword : Text)
    (kind : Parameter → NodeKind) : Builder :=
  let b := b.returnToDoctype start
  if b.currentNode.kind.isDoctype then
    b.openToEnd (kind (.keywordAt b.doc.text start keyword)) start
  else b

/-- Takes a parameter of the header of a document type. -/
def addDoctypeParameter (b : Builder) (token : Token)
    (set : Parameter → Doctype → Doctype) : Builder :=
  let parameter : Parameter := ⟨token.span, token.text⟩
  b.modifyKind <| .modifyDoctype fun d ↦
    set parameter { d with parameters := d.parameters ++ [parameter] }

/-- Takes a parameter of the current declaration. A document type takes those that have no place
in it. -/
def addParameter (b : Builder) (token : Token) : Builder :=
  let parameter : Parameter := ⟨token.span, token.text⟩
  b.modifyKind fun
    | .elementDecl decl =>
      .elementDecl
        { decl.setPart token.kind parameter with parameters := decl.parameters ++ [parameter] }
    | .attlistDecl decl =>
      .attlistDecl
        { decl.setPart token.kind parameter with parameters := decl.parameters ++ [parameter] }
    | .entityDecl decl =>
      .entityDecl
        { decl.setPart token.kind parameter with parameters := decl.parameters ++ [parameter] }
    | .doctype d =>
      if token.kind = .unrecognized then
        .doctype { d with parameters := d.parameters ++ [parameter] }
      else .doctype d
    | kind => kind

end TolerantXml.Builder
