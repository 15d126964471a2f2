import TolerantXml.Proofs.Scanner.Lexeme
import TolerantXml.Scanner.Step

/-!
# Steps of the scanner on well-formed text

What the scanner reads in each state where the text ahead starts with a lexeme that belongs there:
that lexeme, in front of any other text that does not continue it.
-/

namespace TolerantXml.Scanner

open Lexeme

variable {config : Config} {before taken tail content : Text} {kind : TokenKind} {next : Config}
  {otherwise : Step} {c : Char}

theorem attempt_nil (kind : TokenKind) (next : Config) (otherwise : Step) :
    attempt [] kind next otherwise = otherwise := rfl

theorem attempt_of_ne_nil (nonempty : taken ≠ []) (kind : TokenKind) (next : Config)
    (otherwise : Step) : attempt taken kind next otherwise = .emit kind taken next := by
  rw [attempt, List.isEmpty_eq_false_iff.2 nonempty]
  rfl

theorem ne_nil_of_isName (isName : taken.isName = true) : taken ≠ [] := by
  rintro rfl
  cases isName

/-! ### Element content -/

/-- Lower case makes letters only, so another character is its own origin. -/
private theorem toLower_ne {d : Char} (notLower : d.val < 97) (differ : c ≠ d) : c.toLower ≠ d := by
  intro eq
  by_cases upper : 65 ≤ c.val ∧ c.val ≤ 90
  · have lower : c.toLower.val = c.val + 32 := congrArg Char.val (dif_pos upper)
    rw [eq] at lower
    grind
  · have same : c.toLower = c := dif_neg upper
    exact differ (same.symm.trans eq)

/-- Comments, character data sections and document types start with an exclamation mark. -/
private theorem notBang_nil (notBang : c ≠ '!') (tail : Text) :
    literal Delimiter.commentOpen ('<' :: c :: tail) = [] ∧
      literal Delimiter.cdataOpen ('<' :: c :: tail) = [] ∧
      literalAnyCase Delimiter.doctypeOpen ('<' :: c :: tail) = [] := by
  refine ⟨literal_cons_cons_of_ne notBang.symm, literal_cons_cons_of_ne notBang.symm, ?_⟩
  rw [literalAnyCase]
  simp only [Delimiter.doctypeOpen, List.length_cons, List.take_succ_cons, List.map_cons]
  rw [if_neg]
  intro same
  exact toLower_ne (by decide) notBang (List.cons.inj (List.cons.inj same).2).1

theorem step_commentOpen (h : config.state = .content) (before tail : Text) :
    step config before (Delimiter.commentOpen ++ tail) =
      .emit .commentOpen Delimiter.commentOpen (config.enterMarkup .comment) := by
  simp only [step, h, stepContent, literal_append]
  exact attempt_of_ne_nil (by decide) _ _ _

theorem step_cdataOpen (h : config.state = .content) (before tail : Text) :
    step config before (Delimiter.cdataOpen ++ tail) =
      .emit .cdataOpen Delimiter.cdataOpen (config.moveTo .cdata) := by
  have notComment : literal Delimiter.commentOpen (Delimiter.cdataOpen ++ tail) = [] := by
    rw [literal, if_neg]
    simp [Delimiter.commentOpen, Delimiter.cdataOpen]
  simp only [step, h, stepContent, notComment, attempt_nil, literal_append]
  exact attempt_of_ne_nil (by decide) _ _ _

theorem step_instructionOpen (h : config.state = .content) (before tail : Text) :
    step config before (Delimiter.instructionOpen ++ tail) =
      .emit .instructionOpen Delimiter.instructionOpen
        (config.enterMarkup .instructionTarget) := by
  obtain ⟨notComment, notCdata, notDoctype⟩ := notBang_nil (c := '?') (by decide) tail
  have notEndTag : literal Delimiter.endTagOpen ('<' :: '?' :: tail) = [] :=
    literal_cons_cons_of_ne (by decide)
  have ahead : Delimiter.instructionOpen ++ tail = '<' :: '?' :: tail := rfl
  rw [step, h]
  simp only [stepContent]
  rw [literal_append, ahead]
  simp only [notComment, notCdata, notDoctype, notEndTag, attempt_nil]
  exact attempt_of_ne_nil (by decide) _ _ _

theorem step_endTagOpen (h : config.state = .content) (before tail : Text) :
    step config before (Delimiter.endTagOpen ++ tail) =
      .emit .endTagOpen Delimiter.endTagOpen (config.moveTo .endTagName) := by
  obtain ⟨notComment, notCdata, notDoctype⟩ := notBang_nil (c := '/') (by decide) tail
  have ahead : Delimiter.endTagOpen ++ tail = '<' :: '/' :: tail := rfl
  rw [step, h]
  simp only [stepContent]
  rw [literal_append, ahead]
  simp only [notComment, notCdata, notDoctype, attempt_nil]
  exact attempt_of_ne_nil (by decide) _ _ _

theorem step_startTagOpen (h : config.state = .content) (isName : taken.isName = true)
    (before tail : Text) :
    step config before (['<'] ++ (taken ++ tail)) =
      .emit .startTagOpen ['<'] { config with state := .startTagName, spaceSeen := false } := by
  cases taken with
  | nil => cases isName
  | cons c rest =>
    rw [Text.isName, Bool.and_eq_true] at isName
    have differ : ∀ d, isNameStart d = false → c ≠ d := by
      rintro d notStart rfl
      rw [isName.1] at notStart
      cases notStart
    obtain ⟨notComment, notCdata, notDoctype⟩ :=
      notBang_nil (differ '!' (by decide)) (rest ++ tail)
    have notEndTag : literal Delimiter.endTagOpen ('<' :: c :: (rest ++ tail)) = [] :=
      literal_cons_cons_of_ne (differ '/' (by decide)).symm
    have notInstruction : literal Delimiter.instructionOpen ('<' :: c :: (rest ++ tail)) = [] :=
      literal_cons_cons_of_ne (differ '?' (by decide)).symm
    have ahead : ['<'] ++ (c :: rest ++ tail) = '<' :: c :: (rest ++ tail) := rfl
    rw [step, h]
    simp only [stepContent]
    rw [literal_append, ahead]
    simp only [notComment, notCdata, notDoctype, notEndTag, notInstruction, attempt_nil]
    exact attempt_of_ne_nil (by decide) _ _ _

/-- Text reaches up to the next angle bracket. -/
theorem step_content (h : config.state = .content) (nonempty : taken ≠ [])
    (inside : '<' ∉ taken) (outside : ∀ c ∈ tail.head?, c = '<') (before : Text) :
    step config before (taken ++ tail) = .emit .content taken config := by
  have isRun : run (· != '<') (taken ++ tail) = taken := by
    apply run_append
    · intro c mem
      exact bne_iff_ne.2 fun eq ↦ inside (eq ▸ mem)
    · intro c head
      rw [outside c head]
      rfl
  cases taken with
  | nil => exact absurd rfl nonempty
  | cons c rest =>
    have notBracket : '<' ≠ c := fun eq ↦ inside (eq ▸ List.mem_cons_self)
    have notDoctype : literalAnyCase Delimiter.doctypeOpen (c :: rest ++ tail) = [] := by
      rw [literalAnyCase, if_neg]
      intro same
      exact toLower_ne (by decide) notBracket.symm (List.cons.inj same).1
    have notMarkup : ∀ pattern, literal ('<' :: pattern) (c :: rest ++ tail) = [] :=
      fun pattern ↦ literal_cons_of_ne notBracket
    simp only [step, h, stepContent, Delimiter.commentOpen, Delimiter.cdataOpen, notDoctype,
      Delimiter.endTagOpen, Delimiter.instructionOpen, notMarkup, attempt_nil, isRun]

/-! ### Tags -/

theorem step_startTag (h : config.state = .startTagName) (isName : taken.isName = true)
    (outside : ∀ c ∈ tail.head?, isNameChar c = false) (before : Text) :
    step config before (taken ++ tail) = .emit .startTag taken (config.moveTo .tag) := by
  simp only [step, h, stepStartTagName, name_append isName outside]
  exact attempt_of_ne_nil (ne_nil_of_isName isName) _ _ _

/-- One space sets off what is not white space. -/
theorem space_append (outside : ∀ c ∈ tail.head?, isSpace c = false) :
    space ([' '] ++ tail) = [' '] := by
  have inside : List.all [' '] isSpace = true := by decide
  exact run_append (List.all_eq_true.1 inside) outside

theorem step_tagSpace (h : config.state = .tag) (outside : ∀ c ∈ tail.head?, isSpace c = false)
    (before : Text) :
    step config before ([' '] ++ tail) =
      .emit .whitespace [' '] { config with spaceSeen := true } := by
  simp only [step, h, stepTag, space_append outside]
  exact attempt_of_ne_nil (by decide) _ _ _

theorem step_attributeName (h : config.state = .tag) (noProlog : config.inProlog = false)
    (spaceSeen : config.spaceSeen = true) (nonempty : taken ≠ [])
    (inside : taken.all (isAttributeNameChar false) = true)
    (outside : ∀ c ∈ tail.head?, isAttributeNameChar false c = false) (before : Text) :
    step config before (taken ++ tail) =
      .emit .attributeName taken { config with state := .assign, spaceSeen := false } := by
  have isRun : attributeName false (taken ++ tail) = taken :=
    run_append (List.all_eq_true.1 inside) outside
  have notSpace : space (taken ++ tail) = [] := by
    cases taken with
    | nil => exact absurd rfl nonempty
    | cons c rest =>
      apply run_cons_of_neg
      exact isSpace_of_isAttributeNameChar (List.all_eq_true.1 inside c List.mem_cons_self)
  simp only [step, h, stepTag, notSpace, attempt_nil, noProlog, Bool.false_eq_true, ↓reduceIte,
    spaceSeen, isRun]
  exact attempt_of_ne_nil nonempty _ _ _

theorem step_assign (h : config.state = .assign) (before tail : Text) :
    step config before (['='] ++ tail) =
      .emit .assign ['='] (config.moveTo .attributeValue) := by
  have notSpace : space (['='] ++ tail) = [] := run_cons_of_neg (by decide)
  simp only [step, h, stepAssign, notSpace, attempt_nil, literal_append]
  exact attempt_of_ne_nil (by decide) _ _ _

theorem step_attributeValue (h : config.state = .attributeValue)
    (inside : Text.doubleQuote ∉ content) (before tail : Text) :
    step config before (Text.quote Text.doubleQuote content ++ tail) =
      .emit .attributeValue (Text.quote Text.doubleQuote content)
        { config with state := .tag, spaceSeen := false } := by
  have isQuoted := quoted_append Text.doubleQuote (by decide) inside tail
  have ahead : Text.quote Text.doubleQuote content ++ tail =
      Text.doubleQuote :: (content ++ [Text.doubleQuote] ++ tail) := rfl
  have notSpace : space (Text.quote Text.doubleQuote content ++ tail) = [] := by
    rw [ahead]
    exact run_cons_of_neg (by decide)
  have notBare : bareValue (Text.quote Text.doubleQuote content ++ tail) = [] := by
    have noRun : run isBareValueChar (Text.quote Text.doubleQuote content ++ tail) = [] := by
      rw [ahead]
      exact run_cons_of_neg (by decide)
    rw [bareValue, noRun]
    rfl
  simp only [step, h, stepAttributeValue, notSpace, notBare, attempt_nil, isQuoted]
  exact attempt_of_ne_nil (by simp [Text.quote]) _ _ _

theorem step_emptyTagClose (h : config.state = .tag) (noProlog : config.inProlog = false)
    (before tail : Text) :
    step config before (Delimiter.emptyTagClose ++ tail) =
      .emit .emptyTagClose Delimiter.emptyTagClose config.leaveTag := by
  have notSpace : space (Delimiter.emptyTagClose ++ tail) = [] := run_cons_of_neg (by decide)
  have notName : attributeName false (Delimiter.emptyTagClose ++ tail) = [] :=
    run_cons_of_neg (by decide)
  simp only [step, h, stepTag, notSpace, attempt_nil, noProlog, Bool.false_eq_true, ↓reduceIte,
    notName, ite_self, literal_append]
  exact attempt_of_ne_nil (by decide) _ _ _

theorem step_startTagClose (h : config.state = .tag) (noProlog : config.inProlog = false)
    (before tail : Text) :
    step config before (['>'] ++ tail) = .emit .startTagClose ['>'] config.leaveTag := by
  have notSpace : space (['>'] ++ tail) = [] := run_cons_of_neg (by decide)
  have notName : attributeName false (['>'] ++ tail) = [] := run_cons_of_neg (by decide)
  have notEmpty : literal Delimiter.emptyTagClose (['>'] ++ tail) = [] :=
    literal_cons_of_ne (by decide)
  simp only [step, h, stepTag, notSpace, attempt_nil, noProlog, Bool.false_eq_true, ↓reduceIte,
    notName, ite_self, notEmpty, literal_append]
  exact attempt_of_ne_nil (by decide) _ _ _

theorem step_endTag (h : config.state = .endTagName) (isName : taken.isName = true)
    (outside : ∀ c ∈ tail.head?, isNameChar c = false) (before : Text) :
    step config before (taken ++ tail) = .emit .endTag taken (config.moveTo .endTag) := by
  simp only [step, h, stepEndTagName, name_append isName outside]
  exact attempt_of_ne_nil (ne_nil_of_isName isName) _ _ _

theorem step_endTagClose (h : config.state = .endTag) (before tail : Text) :
    step config before (['>'] ++ tail) =
      .emit .endTagClose ['>'] (config.moveTo .content) := by
  have notSpace : space (['>'] ++ tail) = [] := run_cons_of_neg (by decide)
  simp only [step, h, stepEndTag, notSpace, attempt_nil, literal_append]
  exact attempt_of_ne_nil (by decide) _ _ _

/-! ### Comments, character data sections and instructions -/

/-- Text that is free of the delimiter that ends it is read up to that delimiter. -/
theorem attempt_upTo {front : Text} {last : Char} (notFront : last ∉ front)
    (free : ¬ (front ++ [last]) <:+: content) (nonempty : content ≠ []) (tail : Text)
    (closing kind : TokenKind) (closed config : Config) :
    attempt (literal (front ++ [last]) (content ++ (front ++ [last] ++ tail))) closing closed
        (.emit kind (upTo (front ++ [last]) (content ++ (front ++ [last] ++ tail))) config) =
      .emit kind content config := by
  rw [literal_eq_nil (not_prefix_append notFront free nonempty tail), attempt_nil,
    upTo_append notFront free tail]

theorem step_comment (h : config.state = .comment) (nonempty : content ≠ [])
    (free : ¬ Delimiter.commentClose <:+: content) (before tail : Text) :
    step config before (content ++ (Delimiter.commentClose ++ tail)) =
      .emit .comment content config := by
  have notFront : '>' ∉ ['-', '-'] := by decide
  simp only [step, h, stepComment]
  exact attempt_upTo notFront free nonempty tail _ _ _ _

theorem step_commentClose (h : config.state = .comment) (before tail : Text) :
    step config before (Delimiter.commentClose ++ tail) =
      .emit .commentClose Delimiter.commentClose config.leaveMarkup := by
  simp only [step, h, stepComment, literal_append]
  exact attempt_of_ne_nil (by decide) _ _ _

theorem step_cdata (h : config.state = .cdata) (nonempty : content ≠ [])
    (free : ¬ Delimiter.cdataClose <:+: content) (before tail : Text) :
    step config before (content ++ (Delimiter.cdataClose ++ tail)) =
      .emit .cdata content config := by
  have notFront : '>' ∉ [']', ']'] := by decide
  simp only [step, h, stepCdata]
  exact attempt_upTo notFront free nonempty tail _ _ _ _

theorem step_cdataClose (h : config.state = .cdata) (before tail : Text) :
    step config before (Delimiter.cdataClose ++ tail) =
      .emit .cdataClose Delimiter.cdataClose (config.moveTo .content) := by
  simp only [step, h, stepCdata, literal_append]
  exact attempt_of_ne_nil (by decide) _ _ _

theorem step_instructionTarget (h : config.state = .instructionTarget)
    (isName : taken.isName = true) (notProlog : taken ≠ Keyword.xml)
    (outside : ∀ c ∈ tail.head?, isNameChar c = false) (before : Text) :
    step config before (taken ++ tail) =
      .emit .instructionTarget taken (config.moveTo .instructionData) := by
  simp only [step, h, stepInstructionTarget, prologTarget_append isName notProlog outside,
    attempt_nil, name_append isName outside]
  exact attempt_of_ne_nil (ne_nil_of_isName isName) _ _ _

theorem step_instructionSpace (h : config.state = .instructionData)
    (outside : ∀ c ∈ tail.head?, isSpace c = false) (before : Text) :
    step config before ([' '] ++ tail) = .emit .whitespace [' '] config := by
  simp only [step, h, stepInstructionData, space_append outside]
  exact attempt_of_ne_nil (by decide) _ _ _

theorem step_instructionData (h : config.state = .instructionData) (nonempty : content ≠ [])
    (notSpace : ∀ c ∈ content.head?, isSpace c = false)
    (free : ¬ Delimiter.instructionClose <:+: content) (before tail : Text) :
    step config before (content ++ (Delimiter.instructionClose ++ tail)) =
      .emit .instructionData content config := by
  have notFront : '>' ∉ ['?'] := by decide
  have noSpace : space (content ++ (Delimiter.instructionClose ++ tail)) = [] := by
    cases content with
    | nil => exact absurd rfl nonempty
    | cons c rest => exact run_cons_of_neg (notSpace c rfl)
  simp only [step, h, stepInstructionData, noSpace, attempt_nil]
  exact attempt_upTo notFront free nonempty tail _ _ _ _

theorem step_instructionClose (h : config.state = .instructionData) (before tail : Text) :
    step config before (Delimiter.instructionClose ++ tail) =
      .emit .instructionClose Delimiter.instructionClose config.leaveMarkup := by
  have noSpace : space (Delimiter.instructionClose ++ tail) = [] := run_cons_of_neg (by decide)
  simp only [step, h, stepInstructionData, noSpace, attempt_nil, literal_append]
  exact attempt_of_ne_nil (by decide) _ _ _

end TolerantXml.Scanner
