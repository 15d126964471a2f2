import TolerantXml.Proofs.Print.Declaration
import TolerantXml.Proofs.Scanner.Reads
import TolerantXml.Proofs.Scanner.Transition

/-!
# Steps of the scanner on well-formed declarations

What the scanner reads of a declaration: every part behind white space, in front of white space or
the end of the declaration (`Part.Reads`). The parts of a well-formed declaration are read one after
another, from its first slot on (`PartsRead`, `partsRead_body`).
-/

namespace TolerantXml

/-- Whether a character may come right behind a part of a declaration. -/
def endsPart (c : Char) : Bool := isSpace c || c == '>'

/-- Whether a character may start a part of a declaration, whatever is lacking. -/
def startsPart (c : Char) : Bool := !isSpace c && c != '<' && c != '>' && c != ']'

namespace Lexeme

variable {taken tail content before : Text} {c : Char} {depth : Nat}

private theorem isWordBreak_of_endsPart (h : endsPart c = true) : isWordBreak c = true := by
  rw [endsPart, Bool.or_eq_true, beq_iff_eq] at h
  rcases h with space | rfl
  · simp [isWordBreak, space]
  · rfl

theorem isWordBreak_of_isSpace (h : isSpace c = true) : isWordBreak c = true := by
  simp [isWordBreak, h]

private theorem isNameChar_of_endsPart (h : endsPart c = true) : isNameChar c = false := by
  simp only [endsPart, isSpace, Bool.or_eq_true, beq_iff_eq] at h
  rcases h with (((rfl | rfl) | rfl) | rfl) | rfl <;> decide

private theorem startsPart_of_isWordBreak (h : isWordBreak c = false) : startsPart c = true := by
  simp only [isWordBreak, Bool.or_eq_false_iff] at h
  simp [startsPart, h, bne]

private theorem startsPart_of_isQuote (h : Text.isQuote c = true) : startsPart c = true := by
  rw [Text.isQuote, Bool.or_eq_true, beq_iff_eq, beq_iff_eq] at h
  rcases h with rfl | rfl <;> decide

/-! ### Lexemes of declarations in front of other text -/

private theorem isWordBreak_of_isWord (isWord : taken.isWord = true) :
    ∀ c ∈ taken, isWordBreak c = false := by
  rw [Text.isWord, Bool.and_eq_true] at isWord
  intro c mem
  simpa using List.all_eq_true.1 isWord.2 c mem

private theorem ne_nil_of_isWord (isWord : taken.isWord = true) : taken ≠ [] := by
  rintro rfl
  cases isWord

theorem word_append (isWord : taken.isWord = true) (ends : ∀ c ∈ tail.head?, endsPart c = true) :
    word (taken ++ tail) = taken := by
  apply run_append
  · intro c mem
    rw [isWordBreak_of_isWord isWord c mem]
    rfl
  · intro c head
    rw [isWordBreak_of_endsPart (ends c head)]
    rfl

/-- Behind a character that ends words the last word is the one that was read last. -/
theorem lastWord_reverseAux (isWord : taken.isWord = true)
    (parted : ∀ c ∈ before.head?, isWordBreak c = true) :
    lastWord (taken.reverseAux before) = taken := by
  have isRun : run (fun c ↦ !isWordBreak c) (taken.reverse ++ before) = taken.reverse := by
    apply run_append
    · intro c mem
      rw [isWordBreak_of_isWord isWord c (List.mem_reverse.1 mem)]
      rfl
    · intro c head
      rw [parted c head]
      rfl
  rw [lastWord, List.reverseAux_eq, ← run, isRun, List.reverse_reverse]

/-- No group is ahead of a word. -/
theorem group_append_of_isWord (isWord : taken.isWord = true) (tail : Text) :
    group (taken ++ tail) = [] := by
  cases taken with
  | nil => cases isWord
  | cons c rest =>
    have notBreak := isWordBreak_of_isWord isWord c List.mem_cons_self
    have notOpen : c ≠ '(' := by
      rintro rfl
      cases notBreak
    rw [List.cons_append, group, if_neg notOpen]

theorem quoted_append_of_isWord (isWord : taken.isWord = true) (tail : Text) :
    quoted (taken ++ tail) = [] := by
  cases taken with
  | nil => cases isWord
  | cons c rest =>
    have notBreak := isWordBreak_of_isWord isWord c List.mem_cons_self
    have notQuote : ¬ Text.isQuote c = true := by
      intro isQuote
      simp [isWordBreak, isQuote] at notBreak
    rw [List.cons_append, quoted, if_neg notQuote]

/-- A group ends at the bracket that closes it. -/
theorem groupTail_append (balanced : content.isBalanced depth = true) (tail : Text) :
    groupTail depth (content ++ ')' :: tail) = content ++ [')'] := by
  induction content generalizing depth with
  | nil =>
    rw [Text.isBalanced, beq_iff_eq] at balanced
    subst balanced
    rfl
  | cons c content ih =>
    rw [Text.isBalanced] at balanced
    by_cases isOpen : c = '('
    · rw [if_pos isOpen] at balanced
      subst isOpen
      simp only [List.cons_append, groupTail, ↓reduceIte, Char.reduceEq, or_self, ih balanced]
    · rw [if_neg isOpen] at balanced
      by_cases isClose : c = ')'
      · rw [if_pos isClose, Bool.and_eq_true, bne_iff_ne] at balanced
        obtain ⟨notZero, balanced⟩ := balanced
        obtain ⟨less, rfl⟩ := Nat.exists_eq_succ_of_ne_zero notZero
        rw [Nat.succ_sub_one] at balanced
        subst isClose
        simp only [List.cons_append, groupTail, ↓reduceIte, Char.reduceEq, or_self, ih balanced]
      · rw [if_neg isClose] at balanced
        simp only [Bool.and_eq_true, bne_iff_ne] at balanced
        obtain ⟨⟨notLess, notGreater⟩, balanced⟩ := balanced
        simp only [List.cons_append, groupTail, notLess, notGreater, isOpen, isClose, or_self,
          ↓reduceIte, ih balanced]

theorem group_append (balanced : content.isBalanced 0 = true) (tail : Text) :
    group (printGroup content ++ tail) = printGroup content := by
  have ahead : printGroup content ++ tail = '(' :: (content ++ ')' :: tail) := by
    simp [printGroup]
  rw [ahead, group, if_pos rfl, groupTail_append balanced]
  rfl

theorem contentModel_append {mark : Option Char} (balanced : content.isBalanced 0 = true)
    (isMark : mark.all (fun c ↦ c == '?' || c == '*' || c == '+') = true)
    (ends : ∀ c ∈ tail.head?, endsPart c = true) :
    contentModel (printGroup content ++ mark.toList ++ tail) =
      printGroup content ++ mark.toList := by
  have isGroup : group (printGroup content ++ mark.toList ++ tail) =
      '(' :: (content ++ [')']) := by
    rw [List.append_assoc]
    exact group_append balanced _
  have behind : (printGroup content ++ mark.toList ++ tail).drop
      ((content ++ [')']).length + 1) = mark.toList ++ tail := by
    rw [List.append_assoc]
    exact List.drop_left' (by simp [printGroup])
  rw [contentModel, isGroup]
  simp only [behind]
  cases mark with
  | some c =>
    have isMark : (c == '?' || c == '*' || c == '+') = true := isMark
    simp [printGroup, run, isMark]
  | none =>
    cases tail with
    | nil => simp [printGroup, run]
    | cons c tail =>
      have notMark : (c == '?' || c == '*' || c == '+') = false := by
        have := ends c rfl
        simp only [endsPart, isSpace, Bool.or_eq_true, beq_iff_eq] at this
        rcases this with (((rfl | rfl) | rfl) | rfl) | rfl <;> decide
      simp [printGroup, run, notMark]

theorem keyword_append (pattern : Text) (ends : ∀ c ∈ tail.head?, endsPart c = true) :
    keyword pattern (pattern ++ tail) = pattern := by
  rw [keyword, if_pos]
  rw [Bool.and_eq_true, List.drop_left]
  refine ⟨List.isPrefixOf_iff_prefix.2 (List.prefix_append pattern tail), ?_⟩
  cases tail with
  | nil => rfl
  | cons c tail => simp [isNameChar_of_endsPart (ends c rfl)]

private theorem keyword_eq_nil {pattern rest : Text} (differ : ¬ pattern <+: rest) :
    keyword pattern rest = [] := by
  rw [keyword, if_neg]
  intro isAhead
  rw [Bool.and_eq_true] at isAhead
  exact differ (List.isPrefixOf_iff_prefix.1 isAhead.1)

/-- The percent sign of a parameter entity is set off from the name. -/
theorem percentSign_append (spaced : ∀ c ∈ tail.head?, isSpace c = true) :
    Scanner.percentSign (['%'] ++ tail) = ['%'] := by
  cases tail with
  | nil => rfl
  | cons c tail => simp [Scanner.percentSign, spaced c rfl]

private theorem percentSign_eq_nil {rest : Text} (differ : rest.head? ≠ some '%') :
    Scanner.percentSign rest = [] := by
  rw [Scanner.percentSign, if_neg fun h ↦ differ h.1]

end Lexeme

/-! ### Parts of a declaration -/

/-- Whether tokens of a kind are parts of a declaration that have a place in it. -/
def TokenKind.isParameter : TokenKind → Bool
  | .elementDeclName | .elementDeclCategory | .elementDeclContent | .attlistElement
  | .attlistName | .attlistType | .attlistDefault | .entityPercent | .entityName
  | .entityValue | .entityPublic | .entitySystem | .entityPublicId | .entitySystemId => true
  | _ => false

/-- Whether a text may come right behind a part, which is white space or, but for a percent sign,
the end of the declaration. -/
def Part.EndsBefore (part : Part) (tail : Text) : Prop :=
  (∀ c ∈ tail.head?, endsPart c = true) ∧
    (part.kind = .entityPercent → ∀ c ∈ tail.head?, isSpace c = true)

/-- Whether the scanner reads a part in a configuration, which leads to another: the part is set off
by white space, and it is read behind white space and in front of what may end it. -/
structure Part.Reads (part : Part) (config next : Scanner.Config) : Prop where
  isParameter : part.kind.isParameter = true
  gap : part.gap.isGap = true
  isDecl : config.state.isDecl = true
  starts : ∃ c rest, part.text = c :: rest ∧ startsPart c = true
  reads : ∀ before tail, (∀ c ∈ before.head?, isSpace c = true) → part.EndsBefore tail →
    Scanner.step config before (part.text ++ tail) = .emit part.kind part.text next

/-- Whether the scanner reads parts one after another, where a percent sign is not the last. -/
inductive PartsRead : List Part → Scanner.Config → Scanner.Config → Prop where
  | nil {config} : PartsRead [] config config
  | cons {part parts config next last} (first : part.Reads config next)
    (others : PartsRead parts next last) (more : part.kind = .entityPercent → parts ≠ []) :
    PartsRead (part :: parts) config last

/-- The state in which the parts of a declaration are read. -/
def DeclarationBody.firstState : DeclarationBody → Scanner.State
  | .element .. => .elementDecl .name
  | .attlist .. => .attlistDecl .element
  | .entity .. => .entityDecl .name

/-- What the opening of a declaration is read to. -/
def DeclarationBody.openKind : DeclarationBody → TokenKind
  | .element .. => .elementDeclOpen
  | .attlist .. => .attlistOpen
  | .entity .. => .entityOpen

/-- The last part is read. -/
private theorem Part.Reads.last {part : Part} {config next : Scanner.Config}
    (h : part.Reads config next) (notPercent : part.kind ≠ .entityPercent) :
    PartsRead [part] config next :=
  .cons h .nil fun isPercent ↦ absurd isPercent notPercent

theorem PartsRead.append {first second : List Part} {config next last : Scanner.Config}
    (isFirst : PartsRead first config next) (isSecond : PartsRead second next last) :
    PartsRead (first ++ second) config last := by
  induction isFirst with
  | nil => exact isSecond
  | cons first _ more ih =>
    exact .cons first (ih isSecond) fun isPercent ↦
      List.append_ne_nil_of_left_ne_nil (more isPercent) second

namespace Scanner

open Lexeme

variable {config : Config} {before taken tail content gap : Text} {c : Char} {literal : Literal}

/-- A part of a declaration is neither white space nor the end of it. -/
theorem stepDecl_part (starts : startsPart c = true) (config : Config) (tail : Text)
    (parts : Step → Step) :
    stepDecl config (c :: tail) parts =
      parts (.emit .unrecognized (unrecognized (c :: tail)) config) := by
  simp only [startsPart, Bool.and_eq_true, bne_iff_ne, Bool.not_eq_true'] at starts
  obtain ⟨⟨⟨notSpace, notLess⟩, notGreater⟩, notBracket⟩ := starts
  have noSpace : space (c :: tail) = [] := run_cons_of_neg notSpace
  have noClose : Lexeme.literal ['>'] (c :: tail) = [] := literal_cons_of_ne notGreater.symm
  have stays : abandonsDecl config (c :: tail) = false := by
    simp [abandonsDecl, atMarkup, notLess, notBracket]
  simp only [stepDecl, noSpace, noClose, attempt_nil, stays, Bool.false_eq_true, ↓reduceIte]

theorem exists_startsPart_of_isWord (isWord : taken.isWord = true) :
    ∃ c rest, taken = c :: rest ∧ startsPart c = true := by
  cases taken with
  | nil => cases isWord
  | cons c rest =>
    exact ⟨c, rest, rfl, startsPart_of_isWordBreak
      (isWordBreak_of_isWord isWord c List.mem_cons_self)⟩

private theorem exists_startsPart_of_literal (isLiteral : literal.isWellFormed = true) :
    ∃ c rest, literal.print = c :: rest ∧ startsPart c = true := by
  rw [Literal.isWellFormed, Bool.and_eq_true] at isLiteral
  exact ⟨literal.mark, _, rfl, startsPart_of_isQuote isLiteral.1⟩

private theorem quoted_literal (isLiteral : literal.isWellFormed = true) (tail : Text) :
    quoted (literal.print ++ tail) = literal.print := by
  rw [Literal.isWellFormed, Bool.and_eq_true] at isLiteral
  exact quoted_append literal.mark isLiteral.1 (by simpa using isLiteral.2) tail

/-- A part that is read by an alternative of its slot. -/
private theorem reads_of_slot {part : Part} {next : Config} {slots : Text → Text → Step → Step}
    (isParameter : part.kind.isParameter = true) (isGap : part.gap.isGap = true)
    (isDecl : config.state.isDecl = true)
    (starts : ∃ c rest, part.text = c :: rest ∧ startsPart c = true)
    (isSlot : ∀ before rest, step config before rest = stepDecl config rest (slots before rest))
    (reads : ∀ before tail otherwise, (∀ c ∈ before.head?, isSpace c = true) →
      part.EndsBefore tail →
      slots before (part.text ++ tail) otherwise = .emit part.kind part.text next) :
    part.Reads config next where
  isParameter := isParameter
  gap := isGap
  isDecl := isDecl
  starts := starts
  reads before tail spaced ends := by
    obtain ⟨c, rest, eq, starts⟩ := starts
    have isPart := stepDecl_part starts config (rest ++ tail)
      (slots before (part.text ++ tail))
    rw [← List.cons_append, ← eq] at isPart
    rw [isSlot, isPart, reads before tail _ spaced ends]

section FirstAlternative

variable {kind : TokenKind} {next : Config} {slots : Text → Text → Step → Step}

/-- A word is read by a slot that takes words before anything else. -/
private theorem reads_word (isParameter : kind.isParameter = true) (isGap : gap.isGap = true)
    (isWord : taken.isWord = true) (isDecl : config.state.isDecl = true)
    (isSlot : ∀ before rest, step config before rest = stepDecl config rest (slots before rest))
    (first : ∀ before rest otherwise, ∃ other,
      slots before rest otherwise = attempt (word rest) kind next other) :
    Part.Reads ⟨gap, kind, taken⟩ config next := by
  apply reads_of_slot isParameter isGap isDecl (exists_startsPart_of_isWord isWord) isSlot
  intro before tail otherwise _ ends
  obtain ⟨other, eq⟩ := first before (taken ++ tail) otherwise
  rw [eq, word_append isWord ends.1]
  exact attempt_of_ne_nil (ne_nil_of_isWord isWord) _ _ _

/-- A literal is read by a slot that takes literals before anything else. -/
private theorem reads_literal (isParameter : kind.isParameter = true) (isGap : gap.isGap = true)
    (isLiteral : literal.isWellFormed = true) (isDecl : config.state.isDecl = true)
    (isSlot : ∀ before rest, step config before rest = stepDecl config rest (slots before rest))
    (first : ∀ before rest otherwise, ∃ other,
      slots before rest otherwise = attempt (quoted rest) kind next other) :
    Part.Reads ⟨gap, kind, literal.print⟩ config next := by
  apply reads_of_slot isParameter isGap isDecl (exists_startsPart_of_literal isLiteral) isSlot
  intro before tail otherwise _ _
  obtain ⟨other, eq⟩ := first before (literal.print ++ tail) otherwise
  rw [eq, quoted_literal isLiteral]
  exact attempt_of_ne_nil (List.cons_ne_nil _ _) _ _ _

end FirstAlternative

/-! ### Element declarations -/

private theorem reads_elementName (config : Config) (isGap : gap.isGap = true)
    (isName : taken.isWord = true) :
    Part.Reads ⟨gap, .elementDeclName, taken⟩ (config.moveTo (.elementDecl .name))
      (config.moveTo (.elementDecl .content)) :=
  reads_word rfl isGap isName rfl (fun _ _ ↦ rfl) fun _ _ _ ↦ ⟨_, rfl⟩

private theorem reads_elementContent (config : Config) {content : ContentSpec}
    (isGap : gap.isGap = true) (isContent : content.isWellFormed = true) :
    Part.Reads ⟨gap, content.kind, content.print⟩ (config.moveTo (.elementDecl .content))
      (config.moveTo (.elementDecl .nothing)) := by
  cases content with
  | empty =>
    apply reads_of_slot rfl isGap rfl ⟨_, _, rfl, by decide⟩ fun _ _ ↦ rfl
    intro before tail otherwise _ ends
    simp only [stepElementSlot, ContentSpec.print, keyword_append _ ends.1]
    exact attempt_of_ne_nil (by decide) _ _ _
  | any =>
    apply reads_of_slot rfl isGap rfl ⟨_, _, rfl, by decide⟩ fun _ _ ↦ rfl
    intro before tail otherwise _ ends
    have notEmpty : keyword Keyword.empty (Keyword.any ++ tail) = [] :=
      keyword_eq_nil fun isPrefix ↦ absurd (List.cons_prefix_cons.1 isPrefix).1 (by decide)
    simp only [stepElementSlot, ContentSpec.print, notEmpty, attempt_nil, keyword_append _ ends.1]
    exact attempt_of_ne_nil (by decide) _ _ _
  | group content mark =>
    apply reads_of_slot rfl isGap rfl ⟨_, _, rfl, by decide⟩ fun _ _ ↦ rfl
    intro before tail otherwise _ ends
    rw [ContentSpec.isWellFormed, Bool.and_eq_true] at isContent
    have noKeyword : ∀ d rest, d ≠ '(' →
        keyword (d :: rest) (printGroup content ++ mark.toList ++ tail) = [] := fun d rest differ ↦
      keyword_eq_nil fun isPrefix ↦ differ (List.cons_prefix_cons.1 isPrefix).1
    have notEmpty := noKeyword 'E' ['M', 'P', 'T', 'Y'] (by decide)
    have notAny := noKeyword 'A' ['N', 'Y'] (by decide)
    simp only [stepElementSlot, ContentSpec.print, Keyword.empty, Keyword.any, notEmpty, notAny,
      attempt_nil, contentModel_append isContent.1 isContent.2 ends.1]
    exact attempt_of_ne_nil (by simp [printGroup]) _ _ _

/-! ### Attribute list declarations -/

private theorem reads_attlistElement (config : Config) (isGap : gap.isGap = true)
    (isName : taken.isWord = true) :
    Part.Reads ⟨gap, .attlistElement, taken⟩ (config.moveTo (.attlistDecl .element))
      (config.moveTo (.attlistDecl .name)) :=
  reads_word rfl isGap isName rfl (fun _ _ ↦ rfl) fun _ _ _ ↦ ⟨_, rfl⟩

private theorem reads_attlistName (config : Config) (isGap : gap.isGap = true)
    (isName : taken.isWord = true) :
    Part.Reads ⟨gap, .attlistName, taken⟩ (config.moveTo (.attlistDecl .name))
      (config.moveTo (.attlistDecl .type)) :=
  reads_word rfl isGap isName rfl (fun _ _ ↦ rfl) fun _ _ _ ↦ ⟨_, rfl⟩

/-- A word fills the slot of a type unless it is the one that a group of notations follows. -/
private theorem reads_typeWord (config : Config) (isGap : gap.isGap = true)
    (isWord : taken.isWord = true) :
    Part.Reads ⟨gap, .attlistType, taken⟩ (config.moveTo (.attlistDecl .type))
      (if taken = Keyword.notationType then config.moveTo (.attlistDecl .type)
        else config.moveTo (.attlistDecl .defaultValue)) := by
  apply reads_of_slot rfl isGap rfl (exists_startsPart_of_isWord isWord) fun _ _ ↦ rfl
  intro before tail otherwise spaced ends
  have isLast : lastWord (taken.reverseAux before) = taken :=
    lastWord_reverseAux isWord fun c head ↦ isWordBreak_of_isSpace (spaced c head)
  simp only [stepAttlistSlot, group_append_of_isWord isWord, attempt_nil, word_append isWord ends.1,
    isLast]
  exact attempt_of_ne_nil (ne_nil_of_isWord isWord) _ _ _

private theorem reads_typeGroup (config : Config) (isGap : gap.isGap = true)
    (balanced : content.isBalanced 0 = true) :
    Part.Reads ⟨gap, .attlistType, printGroup content⟩ (config.moveTo (.attlistDecl .type))
      (config.moveTo (.attlistDecl .defaultValue)) := by
  apply reads_of_slot rfl isGap rfl ⟨_, _, rfl, by decide⟩ fun _ _ ↦ rfl
  intro before tail otherwise _ ends
  simp only [stepAttlistSlot, group_append balanced]
  exact attempt_of_ne_nil (by simp [printGroup]) _ _ _

private theorem reads_defaultLiteral (config : Config) (isGap : gap.isGap = true)
    (isLiteral : literal.isWellFormed = true) :
    Part.Reads ⟨gap, .attlistDefault, literal.print⟩ (config.moveTo (.attlistDecl .defaultValue))
      (config.moveTo (.attlistDecl .name)) :=
  reads_literal rfl isGap isLiteral rfl (fun _ _ ↦ rfl) fun _ _ _ ↦ ⟨_, rfl⟩

/-- A word behind a number sign fills the slot of a default unless it is the one that a literal
follows. -/
private theorem reads_defaultWord (config : Config) (isGap : gap.isGap = true)
    (isWord : Text.isWord ('#' :: taken) = true) :
    Part.Reads ⟨gap, .attlistDefault, '#' :: taken⟩ (config.moveTo (.attlistDecl .defaultValue))
      (if '#' :: taken = Keyword.fixed then config.moveTo (.attlistDecl .defaultValue)
        else config.moveTo (.attlistDecl .name)) := by
  apply reads_of_slot rfl isGap rfl (exists_startsPart_of_isWord isWord) fun _ _ ↦ rfl
  intro before tail otherwise spaced ends
  have isHash : ('#' :: taken ++ tail).head? = some '#' := rfl
  have isLast : lastWord (('#' :: taken).reverseAux before) = '#' :: taken :=
    lastWord_reverseAux isWord fun c head ↦ isWordBreak_of_isSpace (spaced c head)
  simp only [stepAttlistSlot, quoted_append_of_isWord isWord, attempt_nil, isHash, ↓reduceIte,
    word_append isWord ends.1, isLast]
  exact attempt_of_ne_nil (List.cons_ne_nil _ _) _ _ _

private theorem partsRead_type (config : Config) (isGap : gap.isGap = true) {type : AttributeType}
    (isType : type.isWellFormed = true) :
    PartsRead (type.parts gap) (config.moveTo (.attlistDecl .type))
      (config.moveTo (.attlistDecl .defaultValue)) := by
  cases type with
  | word text =>
    rw [AttributeType.isWellFormed, Bool.and_eq_true, bne_iff_ne] at isType
    have reads := reads_typeWord config isGap isType.1
    rw [if_neg isType.2] at reads
    exact reads.last nofun
  | group content => exact (reads_typeGroup config isGap isType).last nofun
  | notations groupGap content =>
    rw [AttributeType.isWellFormed, Bool.and_eq_true] at isType
    have isWord : Keyword.notationType.isWord = true := by decide
    have reads := reads_typeWord config isGap isWord
    rw [if_pos rfl] at reads
    exact .cons reads ((reads_typeGroup config isType.1 isType.2).last nofun) nofun

private theorem partsRead_default (config : Config) (isGap : gap.isGap = true)
    {default : AttributeDefault} (isDefault : default.isWellFormed = true) :
    PartsRead (default.parts gap) (config.moveTo (.attlistDecl .defaultValue))
      (config.moveTo (.attlistDecl .name)) := by
  cases default with
  | required =>
    have isWord : AttributeDefault.requiredWord.isWord = true := by decide
    exact (reads_defaultWord config isGap isWord).last nofun
  | implied =>
    have isWord : AttributeDefault.impliedWord.isWord = true := by decide
    exact (reads_defaultWord config isGap isWord).last nofun
  | literal value => exact (reads_defaultLiteral config isGap isDefault).last nofun
  | fixed literalGap value =>
    rw [AttributeDefault.isWellFormed, Bool.and_eq_true] at isDefault
    have isWord : Keyword.fixed.isWord = true := by decide
    have reads := reads_defaultWord config isGap isWord
    exact .cons reads ((reads_defaultLiteral config isDefault.1 isDefault.2).last nofun) nofun

private theorem partsRead_attributes (config : Config) {items : List AttributeItem}
    (areItems : items.all (·.isWellFormed) = true) :
    PartsRead (items.flatMap AttributeItem.parts) (config.moveTo (.attlistDecl .name))
      (config.moveTo (.attlistDecl .name)) := by
  induction items with
  | nil => exact .nil
  | cons item items ih =>
    rw [List.all_cons, Bool.and_eq_true] at areItems
    obtain ⟨isItem, areItems⟩ := areItems
    simp only [AttributeItem.isWellFormed, Bool.and_eq_true] at isItem
    obtain ⟨⟨⟨⟨⟨nameGap, isName⟩, typeGap⟩, isType⟩, defaultGap⟩, isDefault⟩ := isItem
    have type := partsRead_type config typeGap isType
    have default := partsRead_default config defaultGap isDefault
    rw [List.flatMap_cons]
    exact .append (.cons (reads_attlistName config nameGap isName) (type.append default) nofun)
      (ih areItems)

/-! ### Entity declarations -/

private theorem reads_entityPercent (config : Config) (isGap : gap.isGap = true) :
    Part.Reads ⟨gap, .entityPercent, ['%']⟩ (config.moveTo (.entityDecl .name))
      (config.moveTo (.entityDecl .name)) := by
  apply reads_of_slot rfl isGap rfl ⟨_, _, rfl, by decide⟩ fun _ _ ↦ rfl
  intro before tail otherwise _ ends
  simp only [stepEntitySlot, percentSign_append (ends.2 rfl)]
  exact attempt_of_ne_nil (by decide) _ _ _

private theorem reads_entityName (config : Config) (isGap : gap.isGap = true)
    (isName : taken.isWord = true) (notPercent : taken.head? ≠ some '%') :
    Part.Reads ⟨gap, .entityName, taken⟩ (config.moveTo (.entityDecl .name))
      (config.moveTo (.entityDecl .definition)) := by
  apply reads_of_slot rfl isGap rfl (exists_startsPart_of_isWord isName) fun _ _ ↦ rfl
  intro before tail otherwise _ ends
  have notSign : percentSign (taken ++ tail) = [] := by
    apply percentSign_eq_nil
    rwa [List.head?_append_of_ne_nil _ (ne_nil_of_isWord isName)]
  simp only [stepEntitySlot, notSign, attempt_nil, word_append isName ends.1]
  exact attempt_of_ne_nil (ne_nil_of_isWord isName) _ _ _

private theorem reads_entityValue (config : Config) (isGap : gap.isGap = true)
    (isLiteral : literal.isWellFormed = true) :
    Part.Reads ⟨gap, .entityValue, literal.print⟩ (config.moveTo (.entityDecl .definition))
      (config.moveTo (.entityDecl .nothing)) :=
  reads_literal rfl isGap isLiteral rfl (fun _ _ ↦ rfl) fun _ _ _ ↦ ⟨_, rfl⟩

private theorem reads_entityPublic (config : Config) (isGap : gap.isGap = true) :
    Part.Reads ⟨gap, .entityPublic, Keyword.publicId⟩ (config.moveTo (.entityDecl .definition))
      (config.moveTo (.entityDecl .publicId)) := by
  apply reads_of_slot rfl isGap rfl ⟨_, _, rfl, by decide⟩ fun _ _ ↦ rfl
  intro before tail otherwise _ ends
  have notQuoted : quoted (Keyword.publicId ++ tail) = [] :=
    quoted_append_of_isWord (by decide) tail
  simp only [stepEntitySlot, notQuoted, attempt_nil, keyword_append _ ends.1]
  exact attempt_of_ne_nil (by decide) _ _ _

private theorem reads_entitySystem (config : Config) (isGap : gap.isGap = true) :
    Part.Reads ⟨gap, .entitySystem, Keyword.systemId⟩ (config.moveTo (.entityDecl .definition))
      (config.moveTo (.entityDecl .systemId)) := by
  apply reads_of_slot rfl isGap rfl ⟨_, _, rfl, by decide⟩ fun _ _ ↦ rfl
  intro before tail otherwise _ ends
  have notQuoted : quoted (Keyword.systemId ++ tail) = [] :=
    quoted_append_of_isWord (by decide) tail
  have notPublic : keyword Keyword.publicId (Keyword.systemId ++ tail) = [] :=
    keyword_eq_nil fun isPrefix ↦ absurd (List.cons_prefix_cons.1 isPrefix).1 (by decide)
  simp only [stepEntitySlot, notQuoted, notPublic, attempt_nil, keyword_append _ ends.1]
  exact attempt_of_ne_nil (by decide) _ _ _

private theorem reads_entityPublicId (config : Config) (isGap : gap.isGap = true)
    (isLiteral : literal.isWellFormed = true) :
    Part.Reads ⟨gap, .entityPublicId, literal.print⟩ (config.moveTo (.entityDecl .publicId))
      (config.moveTo (.entityDecl .systemId)) :=
  reads_literal rfl isGap isLiteral rfl (fun _ _ ↦ rfl) fun _ _ _ ↦ ⟨_, rfl⟩

private theorem reads_entitySystemId (config : Config) (isGap : gap.isGap = true)
    (isLiteral : literal.isWellFormed = true) :
    Part.Reads ⟨gap, .entitySystemId, literal.print⟩ (config.moveTo (.entityDecl .systemId))
      (config.moveTo (.entityDecl .nothing)) :=
  reads_literal rfl isGap isLiteral rfl (fun _ _ ↦ rfl) fun _ _ _ ↦ ⟨_, rfl⟩

private theorem partsRead_definition (config : Config) (isGap : gap.isGap = true)
    {definition : EntityDefinition} (isDefinition : definition.isWellFormed = true) :
    PartsRead (definition.parts gap) (config.moveTo (.entityDecl .definition))
      (config.moveTo (.entityDecl .nothing)) := by
  cases definition with
  | value literal => exact (reads_entityValue config isGap isDefinition).last nofun
  | publicId publicGap first systemGap second =>
    simp only [EntityDefinition.isWellFormed, Bool.and_eq_true] at isDefinition
    obtain ⟨⟨⟨publicGap, isFirst⟩, systemGap⟩, isSecond⟩ := isDefinition
    have system := (reads_entitySystemId config systemGap isSecond).last nofun
    exact .cons (reads_entityPublic config isGap)
      (.cons (reads_entityPublicId config publicGap isFirst) system nofun) nofun
  | systemId systemGap literal =>
    rw [EntityDefinition.isWellFormed, Bool.and_eq_true] at isDefinition
    exact .cons (reads_entitySystem config isGap)
      ((reads_entitySystemId config isDefinition.1 isDefinition.2).last nofun) nofun

/-! ### Whole declarations -/

/-- The parts of a well-formed declaration are read one after another. -/
theorem partsRead_body (config : Config) {body : DeclarationBody}
    (isBody : body.isWellFormed = true) :
    ∃ last, last.isDecl = true ∧
      PartsRead body.parts (config.moveTo body.firstState) (config.moveTo last) := by
  cases body with
  | element nameGap name contentGap content =>
    simp only [DeclarationBody.isWellFormed, Bool.and_eq_true] at isBody
    obtain ⟨⟨⟨nameGap, isName⟩, contentGap⟩, isContent⟩ := isBody
    have content := (reads_elementContent config contentGap isContent).last
      (by cases content <;> nofun)
    exact ⟨.elementDecl .nothing, rfl,
      .cons (reads_elementName config nameGap isName) content nofun⟩
  | attlist elementGap elementName attributes =>
    simp only [DeclarationBody.isWellFormed, Bool.and_eq_true] at isBody
    obtain ⟨⟨elementGap, isName⟩, areItems⟩ := isBody
    exact ⟨.attlistDecl .name, rfl, .cons (reads_attlistElement config elementGap isName)
      (partsRead_attributes config areItems) nofun⟩
  | entity percentGap nameGap name definitionGap definition =>
    simp only [DeclarationBody.isWellFormed, Bool.and_eq_true, bne_iff_ne] at isBody
    obtain ⟨⟨⟨⟨⟨isGap, nameGap⟩, isName⟩, notPercent⟩, definitionGap⟩, isDefinition⟩ := isBody
    have named : PartsRead _ _ _ := .cons (reads_entityName config nameGap isName notPercent)
      (partsRead_definition config definitionGap isDefinition) nofun
    refine ⟨.entityDecl .nothing, rfl, ?_⟩
    cases percentGap with
    | none => exact named
    | some gap => exact .cons (reads_entityPercent config isGap) named nofun

/-! ### Between the parts -/

private theorem space_gap (isSpacing : gap.isSpacing = true)
    (outside : ∀ c ∈ tail.head?, isSpace c = false) : space (gap ++ tail) = gap :=
  run_append (List.all_eq_true.1 isSpacing) outside

theorem step_subsetSpace (h : config.state = .subset) (nonempty : gap ≠ [])
    (isSpacing : gap.isSpacing = true) (outside : ∀ c ∈ tail.head?, isSpace c = false)
    (before : Text) : step config before (gap ++ tail) = .emit .whitespace gap config := by
  simp only [step, h, stepSubset, space_gap isSpacing outside]
  exact attempt_of_ne_nil nonempty _ _ _

theorem step_declSpace (h : config.state.isDecl = true) (nonempty : gap ≠ [])
    (isSpacing : gap.isSpacing = true) (outside : ∀ c ∈ tail.head?, isSpace c = false)
    (before : Text) : step config before (gap ++ tail) = .emit .whitespace gap config := by
  have isSpace := space_gap isSpacing outside
  cases state : config.state with
  | elementDecl | attlistDecl | entityDecl =>
    simp only [step, state, stepDecl, isSpace]
    exact attempt_of_ne_nil nonempty _ _ _
  | _ => simp [state, State.isDecl] at h

theorem step_declClose (h : config.state.isDecl = true) (before tail : Text) :
    step config before (['>'] ++ tail) = .emit .declClose ['>'] (config.moveTo .subset) := by
  have notSpace : space (['>'] ++ tail) = [] := run_cons_of_neg (by decide)
  cases state : config.state with
  | elementDecl | attlistDecl | entityDecl =>
    simp only [step, state, stepDecl, notSpace, attempt_nil, literal_append]
    exact attempt_of_ne_nil (by decide) _ _ _
  | _ => simp [state, State.isDecl] at h

/-- Declarations are told by their keywords. -/
theorem step_declOpen (h : config.state = .subset) (body : DeclarationBody) (before tail : Text) :
    step config before (Delimiter.declOpen ++ body.keyword ++ tail) =
      .emit body.openKind (Delimiter.declOpen ++ body.keyword)
        (config.moveTo body.firstState) := by
  have notSpace : space (Delimiter.declOpen ++ body.keyword ++ tail) = [] :=
    run_cons_of_neg (by decide)
  have notClose : (if config.mode = .xml
      then Lexeme.literal [']'] (Delimiter.declOpen ++ body.keyword ++ tail) else []) = [] := by
    split
    · exact literal_cons_of_ne (by decide)
    · rfl
  have others : ∀ c d : Char, ∀ pattern rest : Text, c ≠ d →
      declOpen (c :: pattern) (Delimiter.declOpen ++ d :: rest) = [] := by
    intro c d pattern rest differ
    apply literal_eq_nil
    intro isPrefix
    simp [Delimiter.declOpen, differ] at isPrefix
  simp only [step, h, stepSubset, notSpace, notClose, attempt_nil]
  cases body with
  | element =>
    have isOpen : declOpen Keyword.element (Delimiter.declOpen ++ Keyword.element ++ tail) = _ :=
      literal_append _ tail
    simp only [DeclarationBody.keyword, isOpen]
    exact attempt_of_ne_nil (by decide) _ _ _
  | attlist =>
    have notElement : declOpen Keyword.element (Delimiter.declOpen ++ Keyword.attlist ++ tail) =
        [] := others 'E' 'A' _ _ (by decide)
    have isOpen : declOpen Keyword.attlist (Delimiter.declOpen ++ Keyword.attlist ++ tail) = _ :=
      literal_append _ tail
    simp only [DeclarationBody.keyword, notElement, attempt_nil, isOpen]
    exact attempt_of_ne_nil (by decide) _ _ _
  | entity =>
    have notElement : declOpen Keyword.element (Delimiter.declOpen ++ Keyword.entity ++ tail) =
        [] := by
      apply literal_eq_nil
      intro isPrefix
      simp [Delimiter.declOpen, Keyword.element, Keyword.entity] at isPrefix
    have notAttlist : declOpen Keyword.attlist (Delimiter.declOpen ++ Keyword.entity ++ tail) =
        [] := others 'A' 'E' _ _ (by decide)
    have isOpen : declOpen Keyword.entity (Delimiter.declOpen ++ Keyword.entity ++ tail) = _ :=
      literal_append _ tail
    simp only [DeclarationBody.keyword, notElement, notAttlist, attempt_nil, isOpen]
    exact attempt_of_ne_nil (by decide) _ _ _

end Scanner

end TolerantXml
