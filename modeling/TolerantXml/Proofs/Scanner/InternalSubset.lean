import TolerantXml.Proofs.Scanner.Inside

/-!
# Declarations in an internal subset

The text of a document type with an internal subset around declarations (`Text.inSubset`), and the
tokens in front of the declarations (`tokens_subsetOpening`) and behind them
(`tokens_subsetEnding`).
-/

namespace TolerantXml

/-- The opening of a document type up to its internal subset. -/
def Text.subsetOpening : Text := Delimiter.doctypeOpen ++ [' ', 'x', ' ', '[']

/-- The end of an internal subset and of its document type. -/
def Text.subsetEnding : Text := [']', '>']

/-- A document type with a text as its internal subset. -/
def Text.inSubset (text : Text) : Text := subsetOpening ++ text ++ subsetEnding

namespace Scanner

/-- The tokens of the opening of a document type. -/
def subsetOpeningTokens : List Token :=
  [⟨.doctypeOpen, ⟨0, 9⟩, Delimiter.doctypeOpen⟩, ⟨.whitespace, ⟨9, 10⟩, [' ']⟩,
    ⟨.doctypeName, ⟨10, 11⟩, ['x']⟩, ⟨.whitespace, ⟨11, 12⟩, [' ']⟩,
    ⟨.subsetOpen, ⟨12, 13⟩, ['[']⟩]

/-- The tokens from the end of an internal subset to the end of the text. -/
def subsetEndingTokens (offset : Nat) : List Token :=
  [⟨.subsetClose, ⟨offset, offset + 1⟩, [']']⟩,
    ⟨.doctypeClose, ⟨offset + 1, offset + 2⟩, ['>']⟩, ⟨.eos, ⟨offset + 2, offset + 2⟩, []⟩]

/-- The scanner at the start of an internal subset. -/
def atSubset (rest : Text) : Scanner where
  config := ⟨.xml, .subset, .subset, false, false⟩
  cursor := ⟨Text.subsetOpening.reverse, rest, Text.subsetOpening.byteSize⟩

/-- A token that a step reads comes before those behind it. -/
private theorem tokens_of_step {config next : Config} {cursor : Cursor} {kind : TokenKind}
    {taken : Text} (ahead : cursor.rest ≠ [])
    (reads : step config cursor.before cursor.rest = .emit kind taken next) :
    tokens ⟨config, cursor⟩ =
      ⟨kind, ⟨cursor.offset, cursor.offset + taken.byteSize⟩, taken⟩ ::
        tokens ⟨next, cursor.advance taken⟩ := by
  have scans : Scanner.next ⟨config, cursor⟩ = _ := read_of_step ahead reads
  rw [tokens_of_rest_ne_nil ahead, scans]

private theorem after_of_step {config next : Config} {cursor : Cursor} {kind : TokenKind}
    {taken : Text} (ahead : cursor.rest ≠ [])
    (reads : step config cursor.before cursor.rest = .emit kind taken next) (n : Nat) :
    after ⟨config, cursor⟩ (n + 1) = after ⟨next, cursor.advance taken⟩ n := by
  have scans : Scanner.next ⟨config, cursor⟩ = _ := read_of_step ahead reads
  rw [after, scans]

/-- The tokens in front of the declarations. -/
theorem tokens_subsetOpening (rest : Text) :
    tokenize (Text.subsetOpening ++ rest) .xml =
        subsetOpeningTokens ++ (atSubset rest).tokens ∧
      (start (Text.subsetOpening ++ rest) .xml).after 5 = atSubset rest := by
  let header (slot : DoctypeSlot) : Config := ⟨.xml, .doctype slot, .content, false, false⟩
  have opening : ∀ before, step (.initial .xml) before (Text.subsetOpening ++ rest) =
      .emit .doctypeOpen Delimiter.doctypeOpen (header .name) := fun _ ↦ rfl
  have space : ∀ before, step (header .name) before (' ' :: 'x' :: ' ' :: '[' :: rest) =
      .emit .whitespace [' '] (header .name) := fun _ ↦ rfl
  have name : ∀ before, step (header .name) before ('x' :: ' ' :: '[' :: rest) =
      .emit .doctypeName ['x'] (header .keyword) := fun _ ↦ rfl
  have space' : ∀ before, step (header .keyword) before (' ' :: '[' :: rest) =
      .emit .whitespace [' '] (header .keyword) := fun _ ↦ rfl
  have bracket : ∀ before, step (header .keyword) before ('[' :: rest) =
      .emit .subsetOpen ['['] ⟨.xml, .subset, .subset, false, false⟩ := fun _ ↦ rfl
  constructor
  · rw [tokenize, start, tokens_of_step (List.cons_ne_nil _ _) (opening _),
      tokens_of_step (List.cons_ne_nil _ _) (space _),
      tokens_of_step (List.cons_ne_nil _ _) (name _),
      tokens_of_step (List.cons_ne_nil _ _) (space' _),
      tokens_of_step (List.cons_ne_nil _ _) (bracket _)]
    rfl
  · rw [start, after_of_step (List.cons_ne_nil _ _) (opening _),
      after_of_step (List.cons_ne_nil _ _) (space _),
      after_of_step (List.cons_ne_nil _ _) (name _),
      after_of_step (List.cons_ne_nil _ _) (space' _),
      after_of_step (List.cons_ne_nil _ _) (bracket _)]
    rfl

/-- The tokens behind the declarations. -/
theorem tokens_subsetEnding {scanner : Scanner} (mode : scanner.config.mode = .xml)
    (state : scanner.config.state = .subset)
    (ahead : scanner.cursor.rest = Text.subsetEnding) :
    scanner.tokens = subsetEndingTokens scanner.cursor.offset := by
  obtain ⟨⟨_, _, markupReturn, spaceSeen, inProlog⟩, ⟨before, _, offset⟩⟩ := scanner
  subst mode state ahead
  have bracket : step ⟨.xml, .subset, markupReturn, spaceSeen, inProlog⟩ before
      Text.subsetEnding =
        .emit .subsetClose [']'] ⟨.xml, .afterSubset, .content, spaceSeen, inProlog⟩ := rfl
  have close : step ⟨.xml, .afterSubset, .content, spaceSeen, inProlog⟩ (']' :: before) ['>'] =
      .emit .doctypeClose ['>'] ⟨.xml, .content, .content, spaceSeen, inProlog⟩ := rfl
  rw [tokens_of_step (by nofun) bracket, tokens_of_step (by nofun) close, tokens_of_rest_nil rfl,
    next_of_rest_nil rfl]
  rfl

/-- At the end of a text a scanner is where it is behind all tokens. -/
theorem after_eq_of_atEnd {scanner : Scanner} {n : Nat}
    (atEnd : (scanner.after n).cursor.rest = []) :
    scanner.after n = scanner.after scanner.tokens.length := by
  induction n generalizing scanner with
  | zero =>
    rw [after] at atEnd
    rw [tokens_of_rest_nil atEnd, List.length_singleton, after, after, after,
      next_of_rest_nil atEnd]
  | succ n ih =>
    rw [after] at atEnd ⊢
    by_cases ahead : scanner.cursor.rest = []
    · rw [next_of_rest_nil ahead] at atEnd ⊢
      exact ih atEnd
    · rw [ih atEnd, tokens_of_rest_ne_nil ahead, List.length_cons, after]

end Scanner

end TolerantXml
