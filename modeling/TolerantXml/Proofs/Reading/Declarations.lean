import TolerantXml.Proofs.Reading.Passes
import TolerantXml.Proofs.Scanner.ReadsDeclaration
import TolerantXml.Proofs.Tree.Declared

/-!
# Reading printed declarations

A part of a declaration is two tokens, the white space in front of it and the part
(`passes_part`), and a declaration is read to the node that it was printed from
(`passes_declaration`). So parsing undoes printing (`parse_printAll`).
-/

namespace TolerantXml

open Scanner

variable {config next last : Config} {b : Builder} {part : Part} {parts : List Part}
  {text uri tail passed gap : Text} {nodes : List Node} {node : Node}

/-! ### White space and parts -/

/-- White space makes no difference to the builder. -/
private theorem passes_spacing (offset : Nat) (b : Builder)
    (reads : gap ≠ [] → ∀ before, step config before (gap ++ tail) =
      .emit .whitespace gap config) :
    Passes gap tail config offset b config b := by
  by_cases empty : gap = []
  · subst empty
    exact .refl tail config offset b
  · exact passes_token empty (reads empty) offset b

/-- A part is read behind the white space in front of it. -/
theorem passes_part (isRead : part.Reads config next) (ends : part.EndsBefore tail) (offset : Nat)
    (b : Builder) :
    Passes part.print tail config offset b next (b.apply (part.tokenAt offset)) := by
  obtain ⟨-, isGap, isDecl, ⟨c, rest, isText, starts⟩, reads⟩ := isRead
  rw [Text.isGap, Bool.and_eq_true, bne_iff_ne] at isGap
  obtain ⟨nonempty, isSpacing⟩ := isGap
  rintro ⟨⟨config, cursor⟩, b⟩ ⟨rfl, rfl, ahead, rfl⟩
  have ahead : cursor.rest = part.gap ++ (part.text ++ tail) := by
    rw [← List.append_assoc]
    exact ahead
  have outside : ∀ d ∈ (part.text ++ tail).head?, isSpace d = false := by
    intro d head
    rw [isText] at head
    cases head
    simp only [startsPart, Bool.and_eq_true, Bool.not_eq_true'] at starts
    exact starts.1.1.1
  have space : Scanner.next ⟨config, cursor⟩ =
      (⟨.whitespace, ⟨cursor.offset, cursor.offset + part.gap.byteSize⟩, part.gap⟩,
        ⟨config, cursor.advance part.gap⟩) := by
    apply read_of_step
    · rw [ahead]
      exact List.append_ne_nil_of_left_ne_nil nonempty _
    · rw [ahead]
      exact step_declSpace isDecl nonempty isSpacing outside cursor.before
  have behind : (cursor.advance part.gap).rest = part.text ++ tail := by
    rw [Cursor.advance, ahead, List.drop_left]
  have spaced : ∀ d ∈ (cursor.advance part.gap).before.head?, isSpace d = true := by
    intro d head
    rw [Cursor.advance, List.reverseAux_eq,
      List.head?_append_of_ne_nil _ (List.reverse_ne_nil_iff.2 nonempty),
      List.head?_reverse] at head
    exact List.all_eq_true.1 isSpacing d (List.mem_of_getLast? head)
  have token : Scanner.next ⟨config, cursor.advance part.gap⟩ =
      (part.tokenAt cursor.offset, ⟨next, (cursor.advance part.gap).advance part.text⟩) := by
    apply read_of_step
    · rw [behind, isText]
      exact List.cons_ne_nil _ _
    · rw [behind]
      exact reads _ _ spaced ends
  have first : Reading.next ⟨⟨config, cursor⟩, b⟩ = ⟨⟨config, cursor.advance part.gap⟩, b⟩ := by
    rw [Reading.next, space]
    rfl
  have second : Reading.next ⟨⟨config, cursor.advance part.gap⟩, b⟩ =
      ⟨⟨next, (cursor.advance part.gap).advance part.text⟩,
        b.apply (part.tokenAt cursor.offset)⟩ := by
    rw [Reading.next, token]
  refine ⟨2, ?_⟩
  rw [Reading.after, Reading.after, Reading.after, first, second]
  refine ⟨rfl, ?_, ?_, rfl⟩
  · simp only [Cursor.advance, Part.print, Text.byteSize_append]
    omega
  · rw [Cursor.advance, behind, List.drop_left]

/-- Parts start with the white space in front of the first one. -/
private theorem PartsRead.isSpace_head (h : PartsRead parts config last) (nonempty : parts ≠ [])
    (tail : Text) : ∀ c ∈ (Part.printAll parts ++ tail).head?, isSpace c = true := by
  cases h with
  | nil => exact absurd rfl nonempty
  | @cons part others _ _ _ first =>
    have isGap := first.gap
    rw [Text.isGap, Bool.and_eq_true, bne_iff_ne] at isGap
    intro c head
    have split : Part.printAll (part :: others) ++ tail =
        part.gap ++ (part.text ++ (Part.printAll others ++ tail)) := by
      simp [Part.printAll, Part.print]
    rw [split, List.head?_append_of_ne_nil _ isGap.1] at head
    exact List.all_eq_true.1 isGap.2 c (List.mem_of_head? head)

/-- Parts are read one after another. -/
private theorem passes_parts (areRead : PartsRead parts config last)
    (ends : ∀ c ∈ tail.head?, endsPart c = true) (offset : Nat) (b : Builder) :
    Passes (Part.printAll parts) tail config offset b last
      (b.applyAll (Part.tokensAt offset parts)) := by
  induction areRead generalizing offset b with
  | nil => exact .refl tail _ offset b
  | @cons part parts config next last first others more ih =>
    have endsBefore : part.EndsBefore (Part.printAll parts ++ tail) := by
      by_cases isLast : parts = []
      · subst isLast
        exact ⟨ends, fun isPercent ↦ absurd rfl (more isPercent)⟩
      · have spaced := others.isSpace_head isLast tail
        refine ⟨fun c head ↦ ?_, fun _ ↦ spaced⟩
        rw [endsPart, spaced c head]
        rfl
    exact (passes_part first endsBefore offset b).append (ih _ _)

/-! ### Declarations -/

private theorem Builder.apply_of_isParameter {token : Token}
    (isParameter : token.kind.isParameter = true) (b : Builder) :
    b.apply token = b.addParameter token := by
  cases kind : token.kind <;> first
    | (simp only [apply, kind]; done)
    | (rw [kind] at isParameter; cases isParameter)

/-- The parts of a declaration fill its node. -/
private theorem Builder.applyAll_declaring (areRead : PartsRead parts config last)
    (isDecl : node.kind.isDeclaration = true) (offset : Nat) :
    (declaring text uri nodes node).applyAll (Part.tokensAt offset parts) =
      declaring text uri nodes
        { node with kind := (Part.tokensAt offset parts).foldl NodeKind.take node.kind } := by
  induction areRead generalizing node offset with
  | nil => rfl
  | @cons part parts _ _ _ first _ _ ih =>
    have isParameter : (part.tokenAt offset).kind.isParameter = true := first.isParameter
    rw [Part.tokensAt, applyAll, List.foldl_cons, apply_of_isParameter isParameter,
      addParameter_declaring isDecl, ← applyAll, ih (NodeKind.isDeclaration_take isDecl _)]
    rfl

private theorem Builder.apply_declOpen (body : DeclarationBody) (passed tail : Text)
    (split : text = passed ++ (Delimiter.declOpen ++ body.keyword ++ tail)) (stop : Nat) :
    let keywordStart := passed.byteSize + Delimiter.declOpen.byteSize
    (declared text uri nodes).apply ⟨body.openKind, ⟨passed.byteSize, stop⟩,
        Delimiter.declOpen ++ body.keyword⟩ =
      declaring text uri nodes
        { kind := body.openedKind
            ⟨⟨keywordStart, keywordStart + body.keyword.byteSize⟩, body.keyword⟩
          start := passed.byteSize
          stop := text.byteSize
          parent := some 1 } := by
  intro keywordStart
  rw [← Parameter.keywordAt_eq split,
    ← openDeclaration_declared passed.byteSize body.keyword fun keyword ↦ body.openedKind keyword]
  cases body <;> rfl

private theorem Builder.closeIf_declaration {node : Node} (isDecl : node.kind.isDeclaration = true)
    (isChild : node.parent = some 1) (place : Span) (token : Text) :
    (declaring text uri nodes node).apply ⟨.declClose, place, token⟩ =
      declared text uri (nodes ++ [{ node with closed := true, stop := place.stop }]) :=
  closeIf_declaring isDecl isChild place.stop

private theorem DeclarationBody.isDeclaration_openedKind (body : DeclarationBody)
    (keyword : Parameter) : (body.openedKind keyword).isDeclaration = true := by
  cases body <;> rfl

private theorem DeclarationBody.isDeclaration_kindAt (body : DeclarationBody) (offset : Nat) :
    (body.kindAt offset).isDeclaration = true := by
  cases body <;> rfl

/-- The opening of a declaration is read to a node that has the keyword only. -/
private theorem passes_declOpen (body : DeclarationBody) (inSubset : config.state = .subset)
    (split : text = passed ++ (Delimiter.declOpen ++ body.keyword ++ tail)) :
    let keywordStart := passed.byteSize + Delimiter.declOpen.byteSize
    Passes (Delimiter.declOpen ++ body.keyword) tail config passed.byteSize
      (.declared text uri nodes) (config.moveTo body.firstState)
      (.declaring text uri nodes
        { kind := body.openedKind
            ⟨⟨keywordStart, keywordStart + body.keyword.byteSize⟩, body.keyword⟩
          start := passed.byteSize
          stop := text.byteSize
          parent := some 1 }) := by
  have token := passes_token (List.append_ne_nil_of_left_ne_nil (by decide) _)
    (fun before ↦ step_declOpen inSubset body before tail) passed.byteSize
    (.declared text uri nodes)
  rwa [Builder.apply_declOpen body passed tail split] at token

/-- The parts of a declaration are read to the fields of its node. -/
private theorem passes_fields {body : DeclarationBody} (areRead : PartsRead body.parts config last)
    (ends : ∀ c ∈ tail.head?, endsPart c = true) {offset : Nat}
    (isOpened : let keywordStart := offset + Delimiter.declOpen.byteSize
      node.kind = body.openedKind
        ⟨⟨keywordStart, keywordStart + body.keyword.byteSize⟩, body.keyword⟩) :
    Passes (Part.printAll body.parts) tail config
      (offset + (Delimiter.declOpen ++ body.keyword).byteSize) (.declaring text uri nodes node)
      last (.declaring text uri nodes { node with kind := body.kindAt offset }) := by
  let keywordStop := offset + Delimiter.declOpen.byteSize + body.keyword.byteSize
  have isDecl : node.kind.isDeclaration = true := by
    rw [isOpened]
    exact body.isDeclaration_openedKind _
  have kinds : (Part.tokensAt keywordStop body.parts).foldl NodeKind.take node.kind =
      body.kindAt offset := by
    rw [isOpened]
    exact foldl_take_tokensAt body offset
  rw [Text.byteSize_append, ← Nat.add_assoc, ← kinds, ← Builder.applyAll_declaring areRead isDecl]
  exact passes_parts areRead ends keywordStop _

/-- The end of a declaration closes its node. -/
private theorem passes_declEnd (inDecl : config.state.isDecl = true)
    (isSpacing : gap.isSpacing = true) (isDecl : node.kind.isDeclaration = true)
    (isChild : node.parent = some 1) (offset : Nat) :
    Passes (gap ++ ['>']) tail config offset (.declaring text uri nodes node)
      (config.moveTo .subset) (.declared text uri
        (nodes ++ [{ node with closed := true, stop := offset + (gap ++ ['>']).byteSize }])) := by
  have outside : ∀ c ∈ (['>'] ++ tail).head?, isSpace c = false := by
    intro c head
    cases head
    rfl
  have space := passes_spacing offset (.declaring text uri nodes node) fun nonempty ↦
    step_declSpace inDecl nonempty isSpacing outside
  have closing := passes_token (List.cons_ne_nil '>' [])
    (fun before ↦ step_declClose inDecl before tail) (offset + gap.byteSize)
    (.declaring text uri nodes node)
  rw [Builder.closeIf_declaration isDecl isChild, Nat.add_assoc, ← Text.byteSize_append] at closing
  exact space.append closing

/-- The character behind the parts of a declaration ends the last one. -/
private theorem endsPart_head (isSpacing : gap.isSpacing = true) (tail : Text) :
    ∀ c ∈ (gap ++ ['>'] ++ tail).head?, endsPart c = true := by
  intro c head
  rw [List.append_assoc] at head
  by_cases empty : gap = []
  · rw [empty] at head
    cases head
    rfl
  · rw [List.head?_append_of_ne_nil _ empty] at head
    rw [endsPart, List.all_eq_true.1 isSpacing c (List.mem_of_head? head)]
    rfl

/-- A declaration is read to the node that it was printed from. -/
theorem passes_declaration {declaration : Declaration} (isDecl : declaration.isWellFormed = true)
    (inSubset : config.state = .subset)
    (split : text = passed ++ (declaration.print ++ tail)) :
    Passes declaration.print tail config passed.byteSize (.declared text uri nodes) config
      (.declared text uri (nodes ++ [declaration.nodeAt passed.byteSize])) := by
  obtain ⟨gap, body, endGap⟩ := declaration
  simp only [Declaration.isWellFormed, Bool.and_eq_true] at isDecl
  obtain ⟨⟨-, isBody⟩, isSpacing⟩ := isDecl
  obtain ⟨last, isLast, areRead⟩ := partsRead_body config isBody
  have print : Declaration.print ⟨gap, body, endGap⟩ =
      Delimiter.declOpen ++ body.keyword ++ (Part.printAll body.parts ++ (endGap ++ ['>'])) := by
    simp only [Declaration.print, Declaration.opening, List.append_assoc]
  rw [print] at split ⊢
  have cut : text = passed ++ (Delimiter.declOpen ++ body.keyword ++
      (Part.printAll body.parts ++ (endGap ++ ['>']) ++ tail)) := by
    rw [split]
    simp only [List.append_assoc]
  have opening : Passes _ _ _ _ (.declared text uri nodes) _ _ :=
    passes_declOpen body inSubset cut
  have returns : (config.moveTo last).moveTo .subset = config := Config.moveTo_self inSubset
  have isKind := body.isDeclaration_kindAt passed.byteSize
  have whole := opening.append
    ((passes_fields areRead (endsPart_head isSpacing tail) rfl).append
      (passes_declEnd isLast isSpacing isKind rfl _))
  rw [returns] at whole
  rw [Declaration.nodeAt, print]
  simpa only [Text.byteSize_append, Nat.add_assoc] using whole

/-! ### Texts of declarations -/

theorem Declaration.print_eq_cons (declaration : Declaration) :
    ∃ rest, declaration.print = '<' :: rest := ⟨_, rfl⟩

theorem Declaration.printAll_cons (first : Declaration) (others : List Declaration) :
    printAll (first :: others) = first.gap ++ first.print ++ printAll others :=
  List.flatMap_cons

theorem Declaration.printAll_append (first second : List Declaration) :
    printAll (first ++ second) = printAll first ++ printAll second :=
  List.flatMap_append

/-- Declarations one behind the other are read to their nodes. -/
private theorem passes_printAll {declarations : List Declaration}
    (areDecls : declarations.all (·.isWellFormed) = true) (inSubset : config.state = .subset)
    (split : text = passed ++ (Declaration.printAll declarations ++ tail)) :
    Passes (Declaration.printAll declarations) tail config passed.byteSize
      (.declared text uri nodes) config
      (.declared text uri (nodes ++ Declaration.nodesAt passed.byteSize declarations)) := by
  induction declarations generalizing passed nodes with
  | nil =>
    rw [Declaration.nodesAt, List.append_nil]
    exact .refl tail config _ _
  | cons declaration others ih =>
    rw [List.all_cons, Bool.and_eq_true] at areDecls
    obtain ⟨isDecl, areDecls⟩ := areDecls
    have isSpacing : declaration.gap.isSpacing = true := by
      rw [Declaration.isWellFormed, Bool.and_eq_true, Bool.and_eq_true] at isDecl
      exact isDecl.1.1
    let behind := Declaration.printAll others ++ tail
    have split : text = passed ++ declaration.gap ++ (declaration.print ++ behind) := by
      rw [split, Declaration.printAll_cons]
      simp only [List.append_assoc, behind]
    have split' : text = passed ++ (declaration.gap ++ declaration.print) ++ behind := by
      rw [split]
      simp only [List.append_assoc]
    have outside : ∀ c ∈ (declaration.print ++ behind).head?, isSpace c = false := by
      obtain ⟨rest, eq⟩ := declaration.print_eq_cons
      intro c head
      rw [eq] at head
      cases head
      rfl
    have space := passes_spacing passed.byteSize (.declared text uri nodes) fun nonempty ↦
      step_subsetSpace inSubset nonempty isSpacing outside
    have first : Passes declaration.print behind config (passed ++ declaration.gap).byteSize
        (.declared text uri nodes) config _ := passes_declaration isDecl inSubset split
    have rest : Passes (Declaration.printAll others) tail config _ (.declared text uri
        (nodes ++ [declaration.nodeAt (passed ++ declaration.gap).byteSize])) config _ :=
      ih areDecls split'
    rw [List.append_assoc, List.singleton_append, Text.byteSize_append _ declaration.gap,
      Text.byteSize_append] at rest
    rw [Text.byteSize_append] at first
    rw [Declaration.printAll_cons, Declaration.nodesAt]
    exact (space.append first).append rest

/-- The node of a declaration among those of others. -/
private theorem Declaration.getElem?_nodesAt {declarations : List Declaration} {i : Nat}
    {declaration : Declaration} (isDecl : declarations[i]? = some declaration) (offset : Nat) :
    (nodesAt offset declarations)[i]? = some (declaration.nodeAt
      (offset + (printAll (declarations.take i) ++ declaration.gap).byteSize)) := by
  induction declarations generalizing i offset with
  | nil => simp at isDecl
  | cons first others ih =>
    cases i with
    | zero =>
      obtain rfl : first = declaration := by simpa using isDecl
      rfl
    | succ i =>
      rw [List.getElem?_cons_succ] at isDecl
      rw [nodesAt, List.getElem?_cons_succ, ih isDecl, List.take_succ_cons, printAll_cons,
        List.append_assoc _ (printAll _), Text.byteSize_append (_ ++ _) (_ ++ _), Nat.add_assoc]

private theorem Declaration.length_nodesAt (offset : Nat) (declarations : List Declaration) :
    (nodesAt offset declarations).length = declarations.length := by
  induction declarations generalizing offset with
  | nil => rfl
  | cons first others ih => rw [nodesAt, List.length_cons, ih, List.length_cons]

/-- Parsing undoes printing. The document of printed declarations has one node for each of them in
its document type, in order, and no other. The node stands where the declaration was printed and
covers just its text, is closed, and holds its parts. -/
theorem parse_printAll {declarations : List Declaration} {trailing : Text}
    (areDecls : declarations.all (·.isWellFormed) = true)
    (isSpacing : trailing.isSpacing = true) (uri : Text) :
    let text := Declaration.printAll declarations ++ trailing
    let doc := Document.parse text uri .dtd
    doc = .ofDeclarations text uri (Declaration.nodesAt 0 declarations) ∧
      doc.count = 2 + declarations.length ∧
      doc.children 1 = List.range' 2 declarations.length ∧
      ∀ i declaration, declarations[i]? = some declaration →
        doc.node (2 + i) = declaration.nodeAt
            (Declaration.printAll (declarations.take i) ++ declaration.gap).byteSize ∧
          doc.nodeText (2 + i) = declaration.print := by
  intro text doc
  let b := Builder.declared text uri (Declaration.nodesAt 0 declarations)
  have inSubset : (Config.initial .dtd).state = .subset := rfl
  have split : text = [] ++ (Declaration.printAll declarations ++ (trailing ++ [])) := by
    rw [List.append_nil, List.nil_append]
  have outside : ∀ c ∈ List.head? [], isSpace c = false := nofun
  have declarationsRead : Passes _ _ _ _ (.declared text uri []) _ _ :=
    passes_printAll areDecls inSubset split
  have trailingRead := passes_spacing (0 + (Declaration.printAll declarations).byteSize) b
    fun nonempty ↦ step_subsetSpace inSubset nonempty isSpacing outside
  have atStart : (Reading.start text uri .dtd).At (.initial .dtd) 0 (text ++ [])
      (.declared text uri []) :=
    ⟨rfl, rfl, (List.append_nil _).symm, Builder.start_eq_declared text uri⟩
  obtain ⟨n, atEnd⟩ := declarationsRead.append trailingRead _ atStart
  have isDoc : doc = .ofDeclarations text uri (Declaration.nodesAt 0 declarations) := by
    have isFinished : doc = b.finish := by
      rw [← atEnd.builder_eq]
      exact Reading.parse_eq_finish atEnd.rest_eq
    rw [isFinished, Builder.finish_declared]
  have length := Declaration.length_nodesAt 0 declarations
  rw [isDoc]
  refine ⟨rfl, ?_, ?_, ?_⟩
  · rw [Document.count_ofDeclarations, length]
  · rw [Document.children, Document.node_ofDeclarations_doctype, Document.declarationsType, length]
  · intro i declaration isDecl
    have node : Document.node (.ofDeclarations text uri (Declaration.nodesAt 0 declarations))
        (2 + i) = _ := Document.node_ofDeclarations (Declaration.getElem?_nodesAt isDecl 0)
    rw [Nat.zero_add] at node
    refine ⟨node, ?_⟩
    have cut : text = (Declaration.printAll (declarations.take i) ++ declaration.gap) ++
        declaration.print ++ (Declaration.printAll (declarations.drop (i + 1)) ++ trailing) := by
      obtain ⟨lt, eq⟩ := List.getElem?_eq_some_iff.1 isDecl
      have whole :
          declarations = declarations.take i ++ declaration :: declarations.drop (i + 1) := by
        rw [← eq, ← List.drop_eq_getElem_cons lt, List.take_append_drop]
      show Declaration.printAll declarations ++ trailing = _
      rw [congrArg Declaration.printAll whole, Declaration.printAll_append,
        Declaration.printAll_cons]
      simp only [List.append_assoc]
    rw [Document.nodeText, node, Document.textOf]
    show Span.text _ text = _
    rw [cut]
    exact Span.text_eq

/-- An element, an attribute of it with a group and a fixed default, and a parameter entity. -/
theorem parse_printAll_note :
    let declarations : List Declaration :=
      [⟨[], .element [' '] ['p'] [' '] (.group ['(', 'a', ')', '|', 'b'] (some '*')), []⟩,
        ⟨['\n'], .attlist [' '] ['p']
          [⟨[' '], ['k'], ['\t'], .notations [' '] ['x', '|', 'y'], [' '],
            .fixed [' '] ⟨Text.singleQuote, ['>']⟩⟩], [' ']⟩,
        ⟨['\n'], .entity (some [' ']) [' '] ['e'] [' ']
          (.systemId [' '] ⟨Text.doubleQuote, ['<', ']']⟩), []⟩]
    declarations.all (·.isWellFormed) = true ∧ Text.isSpacing ['\n'] = true ∧
      (Document.parse (Declaration.printAll declarations ++ ['\n']) [] .dtd).count = 5 := by
  intro declarations
  have areDecls : declarations.all (·.isWellFormed) = true := by decide
  have isSpacing : Text.isSpacing ['\n'] = true := by decide
  exact ⟨areDecls, isSpacing, (parse_printAll areDecls isSpacing []).2.1⟩

end TolerantXml
