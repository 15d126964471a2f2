import Mathlib.Data.List.TakeWhile
import TolerantXml.Proofs.Scanner.ReadsDeclaration
import TolerantXml.Proofs.Scanner.Restart
import TolerantXml.Proofs.Scanner.SilentSteps

/-!
# Words of attribute lists

Which part of an attribute list comes next is told by the word that was read last, and that word is
found by a search backwards from its end. The search stops where the word starts if no word runs
over that place (`WordEdge`). Whatever is read in an attribute list ends at such a place
(`stepAttlist_atEdge`), so only a word right behind the opening of the declaration may run into what
is in front of it. Every other word is its own last word, and the word alone tells what it is and
whether its slot stays open (`lastWord_of_reached`).
-/

namespace TolerantXml

/-! ### Words by themselves -/

namespace AttlistSlot

/-- What a word is in a slot of an attribute list. In place of a default it is one behind a number
sign, and otherwise the name of the next attribute. -/
def wordKind (taken : Text) : AttlistSlot → TokenKind
  | .element => .attlistElement
  | .name => .attlistName
  | .type => .attlistType
  | .defaultValue => if taken.head? = some '#' then .attlistDefault else .attlistName

/-- The slot behind a word, by the word alone: `NOTATION` leaves the slot of the type open, and
`#FIXED` that of the default. -/
def afterWord (taken : Text) : AttlistSlot → AttlistSlot
  | .element => .name
  | .name => .type
  | .type => if taken = Keyword.notationType then .type else .defaultValue
  | .defaultValue =>
    if taken.head? = some '#' then
      if taken = Keyword.fixed then .defaultValue else .name
    else .type

private theorem afterWord_type_iff {taken : Text} :
    afterWord taken .type = .type ↔ taken = Keyword.notationType := by
  simp [afterWord]

private theorem afterWord_defaultValue_iff {taken : Text} (hash : taken.head? = some '#') :
    afterWord taken .defaultValue = .defaultValue ↔ taken = Keyword.fixed := by
  simp [afterWord, hash]

end AttlistSlot

namespace Lexeme

variable {taken rest before : Text} {p : Char → Bool}

/-! ### Where words end -/

/-- Whether no word runs from one text into the next: on one side of the place between them there
is a character that ends words, or nothing at all. -/
def WordEdge (first rest : Text) : Prop :=
  (∀ c ∈ first.getLast?, isWordBreak c = true) ∨ ∀ c ∈ rest.head?, isWordBreak c = true

/-- Only what stands right in front of a place tells whether a word runs over it. -/
theorem WordEdge.append (edge : WordEdge taken rest) (nonempty : taken ≠ []) (first : Text) :
    WordEdge (first ++ taken) rest := by
  rwa [WordEdge, List.getLast?_append_of_ne_nil _ nonempty]

theorem wordEdge_nil (rest : Text) : WordEdge [] rest := .inl nofun

private theorem wordEdge_space (rest : Text) :
    WordEdge (space rest) (rest.drop (space rest).length) := by
  refine .inl fun c last ↦ isWordBreak_of_isSpace ?_
  exact List.mem_takeWhile_imp (List.mem_of_getLast? last)

/-- A run that takes in all characters of words ends where words end. -/
private theorem wordEdge_run (breaks : ∀ c, p c = false → isWordBreak c = true) (rest : Text) :
    WordEdge (run p rest) (rest.drop (run p rest).length) :=
  .inr fun c head ↦ breaks c (eq_of_mem_head?_drop_run head)

private theorem wordEdge_word (rest : Text) : WordEdge (word rest) (rest.drop (word rest).length) :=
  wordEdge_run (fun _ outside ↦ by simpa using outside) rest

private theorem wordEdge_unrecognized (rest : Text) :
    WordEdge (unrecognized rest) (rest.drop (unrecognized rest).length) := by
  cases rest with
  | nil => exact wordEdge_nil _
  | cons c rest =>
    refine .inr fun d head ↦ ?_
    rw [unrecognized, List.length_cons, List.drop_succ_cons] at head
    have outside := eq_of_mem_head?_drop_run head
    simp only [Bool.and_eq_false_iff, Bool.not_eq_false', bne_eq_false_iff_eq] at outside
    rcases outside with (((isSpace | rfl) | rfl) | rfl) | rfl
    · exact isWordBreak_of_isSpace isSpace
    all_goals rfl

/-- A quoted text ends with its quotation mark, or it runs to the end of the text. -/
private theorem wordEdge_quoted (rest : Text) :
    WordEdge (quoted rest) (rest.drop (quoted rest).length) := by
  cases rest with
  | nil => exact wordEdge_nil _
  | cons mark rest =>
    rw [quoted]
    split
    · next isQuote =>
      have stops {c : Char} := @eq_of_mem_head?_drop_run (· != mark) rest c
      cases behind : rest.drop (run (· != mark) rest).length with
      | nil => exact .inr fun c head ↦ by simp [behind] at head
      | cons d tail =>
        have isMark : d = mark := by simpa using stops (by rw [behind]; rfl)
        refine .inl fun c last ↦ ?_
        simp only [behind, isMark, List.take_succ_cons, List.take_zero, ← List.cons_append,
          List.getLast?_concat, Option.mem_def, Option.some.injEq] at last
        simp [isWordBreak, ← last, isQuote]
    · exact wordEdge_nil _

/-- The rest of a group ends with a bracket, or in front of an angle bracket or the end of the
text. -/
private theorem getLast?_groupTail (depth : Nat) (rest : Text) :
    (groupTail depth rest).getLast? = some ')' ∨
      ∀ c ∈ (rest.drop (groupTail depth rest).length).head?, c = '<' ∨ c = '>' := by
  fun_induction groupTail depth rest with
  | case1 => exact .inr fun c head ↦ by cases head
  | case2 depth c rest angle =>
    refine .inr fun d head ↦ ?_
    cases head
    exact angle
  | case4 => exact .inl rfl
  | case3 _ _ _ ih | case5 _ _ _ _ ih | case6 _ _ _ _ _ _ ih =>
    exact ih.imp_left fun last ↦ by rw [List.getLast?_cons, last, Option.getD_some]

private theorem wordEdge_group (rest : Text) :
    WordEdge (group rest) (rest.drop (group rest).length) := by
  cases rest with
  | nil => exact wordEdge_nil _
  | cons c rest =>
    rw [group]
    split
    · rcases getLast?_groupTail 0 rest with last | ends
      · refine .inl fun d isLast ↦ ?_
        rw [List.getLast?_cons, last, Option.getD_some, Option.mem_some_iff] at isLast
        rw [← isLast]
        rfl
      · refine .inr fun d head ↦ ?_
        rcases ends d head with rfl | rfl <;> rfl
    · exact wordEdge_nil _

/-! ### The last word -/

private theorem isWord_word (ahead : word rest ≠ []) : (word rest).isWord = true := by
  rw [Text.isWord, Bool.and_eq_true, bne_iff_ne]
  exact ⟨ahead, List.all_eq_true.2 fun c mem ↦
    List.mem_takeWhile_imp (p := fun c ↦ !isWordBreak c) mem⟩

/-- Where a word is ahead, it is set off by what is in front of it. -/
private theorem WordEdge.parted (edge : WordEdge before.reverse rest) (ahead : word rest ≠ []) :
    ∀ c ∈ before.head?, isWordBreak c = true := by
  rcases edge with parted | ends
  · rwa [List.getLast?_reverse] at parted
  · cases rest with
    | nil => exact absurd rfl ahead
    | cons c rest => exact absurd (run_cons_of_neg (by simp [ends c rfl])) ahead

end Lexeme

namespace Scanner

open Lexeme

/-! ### One step -/

section Steps

variable {config next : Config} {before rest taken : Text} {kind : TokenKind} {otherwise : Step}
  {slot : AttlistSlot}

/-- Whether what a step reads of a text ends where words end. -/
def Step.AtEdge (rest : Text) : Step → Prop
  | .emit _ taken _ => WordEdge taken (rest.drop taken.length)
  | .rescan _ => True

private theorem attempt_atEdge (edge : WordEdge taken (rest.drop taken.length))
    (other : otherwise.AtEdge rest) : (attempt taken kind next otherwise).AtEdge rest := by
  unfold attempt
  split
  · exact other
  · exact edge

private theorem stepAttlistSlot_atEdge (other : otherwise.AtEdge rest) :
    (stepAttlistSlot config before rest slot otherwise).AtEdge rest := by
  cases slot with
  | element | name => exact attempt_atEdge (wordEdge_word rest) other
  | type =>
    exact attempt_atEdge (wordEdge_group rest) (attempt_atEdge (wordEdge_word rest) other)
  | defaultValue =>
    have hashed : WordEdge (if rest.head? = some '#' then word rest else [])
        (rest.drop (if rest.head? = some '#' then word rest else []).length) := by
      split
      · exact wordEdge_word rest
      · exact wordEdge_nil _
    exact attempt_atEdge (wordEdge_quoted rest)
      (attempt_atEdge hashed (attempt_atEdge (wordEdge_word rest) other))

/-- Whatever is read in an attribute list ends where words end. -/
theorem stepAttlist_atEdge (state : config.state = .attlistDecl slot) (before rest : Text) :
    (step config before rest).AtEdge rest := by
  simp only [step, state, stepDecl]
  refine attempt_atEdge (wordEdge_space rest) (attempt_atEdge ?_ ?_)
  · rw [literal]
    split
    · refine .inl fun c last ↦ ?_
      cases last
      rfl
    · exact wordEdge_nil _
  · split
    · trivial
    · exact stepAttlistSlot_atEdge (wordEdge_unrecognized rest)

/-- A word is read where one is ahead, and goes to the slot that it leads to by itself, unless it
runs into what is in front of it. -/
theorem step_word (state : config.state = .attlistDecl slot) (ahead : word rest ≠ [])
    (isLast : lastWord ((word rest).reverseAux before) = word rest) :
    step config before rest = .emit (slot.wordKind (word rest)) (word rest)
      (config.moveTo (.attlistDecl (slot.afterWord (word rest)))) := by
  obtain ⟨behind, split⟩ : word rest <+: rest := isPrefix_run _ rest
  have isWord := isWord_word ahead
  have noGroup := group_append_of_isWord isWord behind
  have notQuoted := quoted_append_of_isWord isWord behind
  obtain ⟨c, tail, isHead, starts⟩ := exists_startsPart_of_isWord isWord
  have cons : rest = c :: (tail ++ behind) := by rw [← List.cons_append, ← isHead, split]
  have sameHead : rest.head? = (word rest).head? := by
    rw [isHead, cons, List.head?_cons, List.head?_cons]
  have isPart := stepDecl_part starts config (tail ++ behind)
    (stepAttlistSlot config before rest slot)
  rw [← cons] at isPart
  rw [split] at noGroup notQuoted
  simp only [step, state, isPart]
  cases slot with
  | element | name => exact attempt_of_ne_nil ahead _ _ _
  | type =>
    simp only [stepAttlistSlot, noGroup, attempt_nil, isLast, attempt_of_ne_nil ahead,
      AttlistSlot.wordKind, AttlistSlot.afterWord]
    split
    · rw [Config.moveTo_self state]
    · rfl
  | defaultValue =>
    simp only [stepAttlistSlot, notQuoted, attempt_nil, isLast, sameHead, AttlistSlot.wordKind,
      AttlistSlot.afterWord]
    by_cases hash : (word rest).head? = some '#'
    · simp only [hash, if_true, attempt_of_ne_nil ahead]
      split
      · rw [Config.moveTo_self state]
      · rfl
    · simp only [hash, if_false, attempt_nil, attempt_of_ne_nil ahead]

/-- A token that leads to a slot of an attribute list, behind the name of the element, ends where
words end. -/
private theorem wordEdge_of_step (sound : config.Sound)
    (reads : step config before rest = .emit kind taken next)
    (state : next.state = .attlistDecl slot) (named : slot ≠ .element) :
    WordEdge taken (rest.drop taken.length) := by
  rcases (emits_of_step reads).asksWords_cases sound (by rw [state]; rfl) with asks | opened
  · cases within : config.state with
    | attlistDecl slot' =>
      have read := stepAttlist_atEdge within before rest
      rwa [reads] at read
    | _ =>
      rw [within] at asks
      cases asks
  · exact absurd (State.attlistDecl.inj (state.symm.trans opened.2)) named

end Steps

/-! ### Whole runs -/

variable {text : Text} {mode : Mode} {scanner : Scanner} {slot : AttlistSlot}

/-- Behind the name of its element, no word of an attribute list runs into what is in front of
it. -/
private theorem Reached.wordEdge (reached : Reached text mode scanner)
    (state : scanner.config.state = .attlistDecl slot) (named : slot ≠ .element) :
    WordEdge scanner.cursor.before.reverse scanner.cursor.rest := by
  obtain ⟨offset, path⟩ := reached
  cases path with
  | refl => cases mode <;> cases state
  | @tail earlier _ path last =>
    obtain ⟨sound, -⟩ := Reached.sound ⟨offset, path⟩
    cases last with
    | rescan ahead changes =>
      have other := (rescans_of_step changes).asksWords_eq_false sound
      rw [state] at other
      cases other
    | emit ahead reads =>
      obtain ⟨c, rest, split⟩ := List.exists_cons_of_ne_nil ahead
      have progress := step_progress earlier.config earlier.cursor.before c rest
      rw [← split, reads] at progress
      have edge := wordEdge_of_step sound reads state named
      have behind := edge.append progress.2.1 earlier.cursor.before.reverse
      simpa only [Cursor.advance, List.reverseAux_eq, List.reverse_append, List.reverse_reverse]
        using behind

/-- Behind the name of its element, every word of an attribute list is the last word of the text
read so far when it has been read itself. So the word alone tells what it is and which slot is next:
the slot of a type stays open behind exactly the word `NOTATION`, and of the words with a number
sign in place of a default exactly `#FIXED` leaves that slot open. -/
theorem lastWord_of_reached (reached : Reached text mode scanner)
    (state : scanner.config.state = .attlistDecl slot) (named : slot ≠ .element)
    (ahead : word scanner.cursor.rest ≠ []) :
    let token := scanner.next.1
    let behind := scanner.next.2
    token.text = word scanner.cursor.rest ∧ token.kind = slot.wordKind token.text ∧
      lastWord behind.cursor.before = token.text ∧
      behind.config = scanner.config.moveTo (.attlistDecl (slot.afterWord token.text)) ∧
      (slot = .type →
        (behind.config.state = .attlistDecl .type ↔ token.text = Keyword.notationType)) ∧
      (slot = .defaultValue → token.text.head? = some '#' →
        (behind.config.state = .attlistDecl .defaultValue ↔ token.text = Keyword.fixed)) := by
  intro token behind
  have parted := (reached.wordEdge state named).parted ahead
  have isLast := lastWord_reverseAux (isWord_word ahead) parted
  have nonempty : scanner.cursor.rest ≠ [] := by
    intro isNil
    rw [isNil] at ahead
    exact ahead rfl
  have isNext := read_of_step nonempty (step_word state ahead isLast)
  have isToken : token = _ := congrArg Prod.fst isNext
  have isBehind : behind = _ := congrArg Prod.snd isNext
  rw [isToken, isBehind]
  refine ⟨rfl, rfl, isLast, rfl, ?_, ?_⟩
  · rintro rfl
    simp only [Config.moveTo, State.attlistDecl.injEq]
    exact AttlistSlot.afterWord_type_iff
  · rintro rfl hash
    simp only [Config.moveTo, State.attlistDecl.injEq]
    exact AttlistSlot.afterWord_defaultValue_iff hash

/-- A default that follows the bracket of a group without white space is told from the group. -/
theorem lastWord_of_reached_behindGroup :
    let text : Text := ['<', '!', 'A', 'T', 'T', 'L', 'I', 'S', 'T', ' ', 'a', ' ', 'b', '(', 'c',
      ')', '#', 'F', 'I', 'X', 'E', 'D', '"', 'd', '"', '>']
    let scanner := (startAt text 0 .dtd).after 6
    Reached text .dtd scanner ∧ scanner.config.state = .attlistDecl .defaultValue ∧
      AttlistSlot.defaultValue ≠ .element ∧ word scanner.cursor.rest ≠ [] ∧
      scanner.next.1.text = Keyword.fixed ∧
      lastWord scanner.next.2.cursor.before = scanner.next.1.text ∧
      scanner.next.2.config.state = .attlistDecl .defaultValue := by
  intro text scanner
  have reached : Reached text .dtd scanner := (reached_startAt text 0 .dtd).after 6
  have state : ((startAt text 0 .dtd).after 6).config.state = .attlistDecl .defaultValue := by
    decide +kernel
  have named : AttlistSlot.defaultValue ≠ .element := by decide
  have isWord : word ((startAt text 0 .dtd).after 6).cursor.rest = Keyword.fixed := by
    decide +kernel
  have ahead : word ((startAt text 0 .dtd).after 6).cursor.rest ≠ [] := by
    rw [isWord]
    decide
  obtain ⟨token, -, isLast, -, -, stays⟩ := lastWord_of_reached reached state named ahead
  have isFixed : scanner.next.1.text = Keyword.fixed := token.trans isWord
  refine ⟨reached, state, named, ahead, isFixed, isLast, (stays rfl ?_).2 isFixed⟩
  rw [isFixed]
  rfl

/-- A word right behind the opening of the declaration runs into it. -/
example : lastWord ((startAt ['<', '!', 'A', 'T', 'T', 'L', 'I', 'S', 'T', 'a'] 0 .dtd).after
    2).cursor.before = ['!', 'A', 'T', 'T', 'L', 'I', 'S', 'T', 'a'] := by decide +kernel

end Scanner

end TolerantXml
