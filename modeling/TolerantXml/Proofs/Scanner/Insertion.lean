import TolerantXml.Proofs.Print.Forest
import TolerantXml.Proofs.Scanner.Between
import TolerantXml.Proofs.Scanner.Reads
import TolerantXml.Proofs.Scanner.Restart

/-!
# Comments and instructions between constructs

A comment or an instruction may be put between any two constructs, in element content and between
declarations (`Leaf.IsAside`). The scanner reads it and returns to the state in which it was
(`scans_aside`), so it reads all other tokens as if the comment or instruction were not there, those
behind it moved by its bytes (`tokenize_insert`).
-/

namespace TolerantXml

/-- Whether an item may stand between declarations as well as in element content. -/
def Leaf.IsAside : Leaf → Prop
  | .comment _ => True
  | .instruction _ data => data ≠ []
  | .text _ | .cdata _ => False

private theorem Leaf.IsAside.exists_print {leaf : Leaf} (isAside : leaf.IsAside) :
    ∃ rest, leaf.print = '<' :: rest := by
  cases leaf with
  | text | cdata => cases isAside
  | comment | instruction => exact ⟨_, rfl⟩

/-- The parts of an item, of which those that are empty are not read. -/
def Leaf.parts : Leaf → List (TokenKind × Text)
  | .text content => [(.content, content)]
  | .comment content =>
    [(.commentOpen, Delimiter.commentOpen), (.comment, content),
      (.commentClose, Delimiter.commentClose)]
  | .cdata content =>
    [(.cdataOpen, Delimiter.cdataOpen), (.cdata, content), (.cdataClose, Delimiter.cdataClose)]
  | .instruction target data =>
    [(.instructionOpen, Delimiter.instructionOpen), (.instructionTarget, target),
      (.whitespace, if data = [] then [] else [' ']), (.instructionData, data),
      (.instructionClose, Delimiter.instructionClose)]

/-- Parts of a text as tokens, one behind the other from an offset on. -/
def Token.row (offset : Nat) : List (TokenKind × Text) → List Token
  | [] => []
  | (kind, text) :: parts =>
    if text = [] then row offset parts
    else ⟨kind, ⟨offset, offset + text.byteSize⟩, text⟩ :: row (offset + text.byteSize) parts

/-- The tokens of an item that stands at an offset. -/
def Leaf.tokensAt (leaf : Leaf) (offset : Nat) : List Token := Token.row offset leaf.parts

namespace Scanner

variable {config next : Config} {before taken tail : Text} {offset : Nat} {kind : TokenKind}
  {parts : List (TokenKind × Text)} {scanner' : Scanner} {leaf : Leaf}

/-! ### Reading a comment or an instruction -/

/-- A part comes before those behind it, if it is not empty. -/
private theorem Scans.part
    (reads : taken ≠ [] → step config before (taken ++ tail) = .emit kind taken next)
    (stays : taken = [] → next = config)
    (behind : Scans ⟨next, ⟨taken.reverseAux before, tail, offset + taken.byteSize⟩⟩
      (Token.row (offset + taken.byteSize) parts) scanner') :
    Scans ⟨config, ⟨before, taken ++ tail, offset⟩⟩ (Token.row offset ((kind, taken) :: parts))
      scanner' := by
  rw [Token.row]
  split
  · next isNil =>
    obtain rfl := stays isNil
    subst isNil
    exact behind
  · next nonempty =>
    have ahead : taken ++ tail ≠ [] := List.append_ne_nil_of_left_ne_nil nonempty tail
    refine .of_step ahead (reads nonempty) ?_
    simpa only [Cursor.advance, List.drop_left] using behind

private theorem step_commentOpen_of_isBetween (between : config.state.isBetween = true)
    (before tail : Text) :
    step config before (Delimiter.commentOpen ++ tail) =
      .emit .commentOpen Delimiter.commentOpen (config.enterMarkup .comment) := by
  obtain ⟨mode, state, markupReturn, spaceSeen, inProlog⟩ := config
  cases state with
  | content => exact step_commentOpen rfl before tail
  | subset => cases mode <;> rfl
  | _ => cases between

private theorem step_instructionOpen_of_isBetween (between : config.state.isBetween = true)
    (before tail : Text) :
    step config before (Delimiter.instructionOpen ++ tail) =
      .emit .instructionOpen Delimiter.instructionOpen
        (config.enterMarkup .instructionTarget) := by
  obtain ⟨mode, state, markupReturn, spaceSeen, inProlog⟩ := config
  cases state with
  | content => exact step_instructionOpen rfl before tail
  | subset => cases mode <;> rfl
  | _ => cases between

/-- Behind markup that stands between constructs, the scanner is between constructs again. -/
private theorem leaveMarkup_enterMarkup (between : config.state.isBetween = true) (state : State) :
    (config.enterMarkup state).leaveMarkup = { config with markupReturn := config.state } := by
  obtain ⟨mode, state, markupReturn, spaceSeen, inProlog⟩ := config
  cases state with
  | content | subset => rfl
  | _ => cases between

/-- The scanner reads a comment or an instruction, and is back in the state in which it was. -/
theorem scans_aside (isAside : leaf.IsAside) (wellFormed : leaf.WellFormed)
    (between : config.state.isBetween = true) (before tail : Text) (offset : Nat) :
    Scans ⟨config, ⟨before, leaf.print ++ tail, offset⟩⟩ (leaf.tokensAt offset)
      ⟨{ config with markupReturn := config.state },
        ⟨leaf.print.reverseAux before, tail, offset + leaf.print.byteSize⟩⟩ := by
  cases leaf with
  | text | cdata => cases isAside
  | comment content =>
    simp only [Leaf.print, List.append_assoc]
    refine .part (fun _ ↦ step_commentOpen_of_isBetween between before _)
      (fun isNil ↦ by cases isNil) ?_
    refine .part (fun nonempty ↦ step_comment rfl nonempty wellFormed _ tail) (fun _ ↦ rfl) ?_
    refine .part (fun _ ↦ step_commentClose rfl _ tail) (fun isNil ↦ by cases isNil) ?_
    rw [leaveMarkup_enterMarkup between]
    simp [List.reverseAux_eq, Nat.add_assoc, Token.row, Scans.refl]
  | instruction target data =>
    obtain ⟨isName, notProlog, notSpace, free⟩ := wellFormed
    have spaced : Leaf.printData data = [' '] ++ data := if_neg isAside
    have setOff : (if data = [] then [] else [' ']) = [' '] := if_neg isAside
    have outside : ∀ c ∈ (data ++ (Delimiter.instructionClose ++ tail)).head?,
        isSpace c = false := by
      rw [List.head?_append_of_ne_nil _ isAside]
      exact notSpace
    simp only [Leaf.print, spaced, Leaf.tokensAt, Leaf.parts, setOff, List.append_assoc]
    refine .part (fun _ ↦ step_instructionOpen_of_isBetween between before _)
      (fun isNil ↦ by cases isNil) ?_
    refine .part (fun _ ↦ step_instructionTarget rfl isName notProlog ?_ _) ?_ ?_
    · rintro _ ⟨⟩
      rfl
    · exact fun isNil ↦ absurd isNil (ne_nil_of_isName isName)
    refine .part (fun _ ↦ step_instructionSpace rfl outside _) (fun isNil ↦ by cases isNil) ?_
    refine .part (fun _ ↦ step_instructionData rfl isAside notSpace free _ tail) (fun _ ↦ rfl) ?_
    refine .part (fun _ ↦ step_instructionClose rfl _ tail) (fun isNil ↦ by cases isNil) ?_
    have returns : ((config.enterMarkup .instructionTarget).moveTo .instructionData).leaveMarkup =
        { config with markupReturn := config.state } := leaveMarkup_enterMarkup between _
    rw [returns]
    simp [List.reverseAux_eq, Nat.add_assoc, Token.row, Scans.refl]

/-! ### Inserting it -/

private theorem Scans.sound {scanner : Scanner} {tokens : List Token}
    (scans : scanner.Scans tokens scanner') (sound : scanner.config.Sound) :
    scanner'.config.Sound :=
  scans.after_eq ▸ after_sound sound tokens.length

/-- A scanner that comes to a place between constructs reads what is put there, and then what it
would have read without it. -/
private theorem scans_insert {scanner : Scanner} {n : Nat} (sound : scanner.config.Sound)
    (within : n < scanner.tokens.length)
    (between : (scanner.after n).config.state.isBetween = true) (isAside : leaf.IsAside)
    (wellFormed : leaf.WellFormed) :
    ∃ x scanner', scanner.cursor.rest = x ++ (scanner.after n).cursor.rest ∧
      (scanner.facing (x ++ leaf.print ++ (scanner.after n).cursor.rest)).Scans
        (scanner.tokens.take n ++ leaf.tokensAt (scanner.after n).cursor.offset) scanner' ∧
      scanner'.config.state = (scanner.after n).config.state ∧
      scanner'.tokens = (scanner.tokens.drop n).map (·.moved leaf.print.byteSize) := by
  obtain ⟨x, source, -, scans⟩ := scans_facing within between
  obtain ⟨behind, print⟩ := isAside.exists_print
  have aside := scans_aside isAside wellFormed between (scanner.after n).cursor.before
    (scanner.after n).cursor.rest (scanner.after n).cursor.offset
  have opening := scans (behind ++ (scanner.after n).cursor.rest)
  rw [← List.cons_append, ← print, ← List.append_assoc] at opening
  have whole := opening.append aside
  refine ⟨x, _, source, whole, rfl, ?_⟩
  rw [← tokens_after within]
  exact (Agrees.of_isBetween between (after_sound sound n) (whole.sound sound) rfl rfl rfl
    rfl).tokens_eq

/-- A comment or an instruction is read where it is put between constructs, and does not change what
else is read: the tokens in front of it are the same, those behind it are moved by its bytes, and
the scanner is in the same state behind it as in front of it. -/
theorem tokenize_insert (text : Text) (mode : Mode) (n : Nat)
    (within : n < (tokenize text mode).length)
    (between : ((start text mode).after n).config.state = .content ∨
      ((start text mode).after n).config.state = .subset)
    (leaf : Leaf) (isAside : leaf.IsAside) (wellFormed : leaf.WellFormed) :
    let place := ((start text mode).after n).cursor.offset
    ∃ first last, text.splitAt? place = some (first, last) ∧
      tokenize (first ++ leaf.print ++ last) mode =
        (tokenize text mode).take n ++ leaf.tokensAt place ++
          ((tokenize text mode).drop n).map (·.moved leaf.print.byteSize) ∧
      ((start (first ++ leaf.print ++ last) mode).after
          (n + (leaf.tokensAt place).length)).config.state =
        ((start text mode).after n).config.state := by
  intro place
  have isBetween : ((start text mode).after n).config.state.isBetween = true := by
    rcases between with eq | eq <;> rw [eq] <;> rfl
  have stands : ((start text mode).after n).cursor.StandsIn text :=
    after_standsIn (Cursor.atStart_standsIn text) n
  obtain ⟨first, scanner', source, scans, state, tokens⟩ :=
    scans_insert (Config.initial_sound mode) within isBetween isAside wellFormed
  have first_eq : ((start text mode).after n).cursor.before.reverse = first :=
    List.append_cancel_right (stands.text_eq.trans source)
  have count : ((tokenize text mode).take n ++ leaf.tokensAt place).length =
      n + (leaf.tokensAt place).length := by
    rw [List.length_append, List.length_take, Nat.min_eq_left (Nat.le_of_lt within)]
  refine ⟨first, ((start text mode).after n).cursor.rest, ?_, ?_, ?_⟩
  · rw [Text.splitAt?_eq_some_iff, ← first_eq, Text.byteSize_reverse]
    exact ⟨stands.text_eq.symm, stands.offset_eq.symm⟩
  · exact scans.tokens_eq.trans (congrArg _ tokens)
  · have after := scans.after_eq
    rw [← state, ← after, ← count]
    rfl

/-- An instruction in an internal subset that is empty without it. -/
theorem tokenize_insert_inSubset :
    let opening : Text := ['<', '!', 'D', 'O', 'C', 'T', 'Y', 'P', 'E', ' ', 'a', '[']
    let ending : Text := [']', '>']
    let leaf : Leaf := .instruction ['p'] ['d']
    ((start (opening ++ ending) .xml).after 4).config.state = .subset ∧
      tokenize (opening ++ leaf.print ++ ending) .xml =
        (tokenize (opening ++ ending) .xml).take 4 ++ leaf.tokensAt 12 ++
          ((tokenize (opening ++ ending) .xml).drop 4).map (·.moved 7) ∧
      ((start (opening ++ leaf.print ++ ending) .xml).after 9).config.state = .subset := by
  intro opening ending leaf
  have within : 4 < (tokenize (opening ++ ending) .xml).length := by decide +kernel
  have state : ((start (opening ++ ending) .xml).after 4).config.state = .subset := by
    decide +kernel
  have place : ((start (opening ++ ending) .xml).after 4).cursor.offset = 12 := by decide +kernel
  have notSpace : ∀ c ∈ List.head? ['d'], isSpace c = false := by
    rintro _ ⟨⟩
    rfl
  have wellFormed : leaf.WellFormed :=
    ⟨rfl, by decide, notSpace, fun isInfix ↦ absurd isInfix.length_le (by decide)⟩
  obtain ⟨first, last, cut, tokens, returns⟩ :=
    tokenize_insert (opening ++ ending) .xml 4 within (.inr state) leaf
      (List.cons_ne_nil 'd' []) wellFormed
  rw [place] at cut tokens returns
  obtain ⟨rfl, rfl⟩ : opening = first ∧ ending = last := by
    have split : (opening ++ ending).splitAt? 12 = some (opening, ending) := by decide +kernel
    simpa using split.symm.trans cut
  exact ⟨state, tokens, returns.trans state⟩

end Scanner

end TolerantXml
