import TolerantXml.Proofs.Scanner.LongerText
import TolerantXml.Proofs.Scanner.TokenOrder

/-!
# Constructs that a fixed text ends

Comments, character data sections and processing instructions are read alike: whatever comes behind
the opening belongs to the construct, up to the first occurrence of the text that ends it
(`Scanner.ReadsEnclosed`). In an instruction a target and white space may come first, in which that
text does not start.
-/

namespace TolerantXml

/-- The constructs that a fixed text ends, wherever it comes first. -/
inductive Enclosed where
  | comment
  | cdata
  | instruction
  deriving DecidableEq, Repr

namespace Enclosed

/-- The text that opens a construct. -/
def opening : Enclosed → Text
  | .comment => Delimiter.commentOpen
  | .cdata => Delimiter.cdataOpen
  | .instruction => Delimiter.instructionOpen

/-- The text that ends a construct. -/
def closing : Enclosed → Text
  | .comment => Delimiter.commentClose
  | .cdata => Delimiter.cdataClose
  | .instruction => Delimiter.instructionClose

/-- The token of what stands between the delimiters. -/
def textKind : Enclosed → TokenKind
  | .comment => .comment
  | .cdata => .cdata
  | .instruction => .instructionData

/-- The token of the text that ends a construct. -/
def closingKind : Enclosed → TokenKind
  | .comment => .commentClose
  | .cdata => .cdataClose
  | .instruction => .instructionClose

end Enclosed

/-- The construct that a token opens. What is opened as an instruction may turn out to be the
prolog. -/
def TokenKind.encloses? : TokenKind → Option Enclosed
  | .commentOpen => some .comment
  | .cdataOpen => some .cdata
  | .instructionOpen => some .instruction
  | _ => none

namespace Lexeme

variable {pattern lead rest : Text}

/-- A fixed text occurs no earlier than the text before it ends. -/
theorem upTo_isPrefix_of_append (pattern earlier later : Text) :
    upTo pattern (earlier ++ pattern ++ later) <+: earlier := by
  induction earlier with
  | nil =>
    rw [List.nil_append]
    cases ahead : pattern ++ later with
    | nil => exact List.nil_prefix
    | cons c rest =>
      have isAhead : pattern.isPrefixOf (c :: rest) = true := by
        rw [List.isPrefixOf_iff_prefix, ← ahead]
        exact List.prefix_append pattern later
      rw [upTo, if_pos isAhead]
  | cons c earlier ih =>
    rw [List.cons_append, List.cons_append, upTo]
    split
    · exact List.nil_prefix
    · exact List.cons_prefix_cons.2 ⟨rfl, ih⟩

/-- A fixed text does not start where its first character does not stand. -/
theorem upTo_append_of_head {c : Char} (isHead : pattern.head? = some c) (free : c ∉ lead)
    (rest : Text) : upTo pattern (lead ++ rest) = lead ++ upTo pattern rest := by
  obtain ⟨pattern, rfl⟩ := List.head?_eq_some_iff.1 isHead
  induction lead with
  | nil => rfl
  | cons d lead ih =>
    rw [List.mem_cons, not_or] at free
    rw [List.cons_append, upTo, if_neg, ih free.2, List.cons_append]
    rw [List.isPrefixOf_iff_prefix, List.cons_prefix_cons]
    exact fun ahead ↦ free.1 ahead.1

/-- Neither white space nor a name has the question mark that ends an instruction. -/
theorem not_mem_space : '?' ∉ space rest := not_mem_run (by decide)

theorem not_mem_name : '?' ∉ name rest := by
  intro mem
  rw [name] at mem
  split at mem
  · exact not_mem_run (by decide) mem
  · cases mem

/-- Where no white space is read, there is none. -/
private theorem isSpace_of_space_eq_nil (noSpace : space rest = []) :
    ∀ c ∈ rest.head?, isSpace c = false := by
  intro c isHead
  apply eq_of_mem_head?_drop_run
  rw [← space, noSpace]
  exact isHead

end Lexeme

namespace Scanner

open Lexeme

/-- The construct that the scanner is in. -/
def State.enclosed? : State → Option Enclosed
  | .comment => some .comment
  | .cdata => some .cdata
  | .instructionTarget | .instructionData => some .instruction
  | _ => none

variable {config next : Config} {kind : TokenKind} {taken before rest : Text} {enclosed : Enclosed}

/-- What is read in a construct: its text or its end, and in an instruction the target and white
space. -/
inductive ReadsEnclosed (enclosed : Enclosed) (config : Config) (rest : Text) (kind : TokenKind)
    (taken : Text) (next : Config) : Prop where
  | text (isText : kind = enclosed.textKind) (isTaken : taken = upTo enclosed.closing rest)
    (stays : next = config) (notTarget : config.state ≠ .instructionTarget)
    (notSpace : enclosed = .instruction → ∀ c ∈ rest.head?, isSpace c = false)
  | closing (isClosing : kind = enclosed.closingKind) (isTaken : taken = enclosed.closing)
    (left : next.state.enclosed? = none)
  | space (isInstruction : enclosed = .instruction) (isSpace : kind = .whitespace)
    (isTaken : taken = Lexeme.space rest) (stays : next = config)
    (notTarget : config.state ≠ .instructionTarget)
  | target (isInstruction : enclosed = .instruction) (isTarget : kind = .instructionTarget)
    (isTaken : taken = name rest) (before : config.state = .instructionTarget)
    (behind : next.state = .instructionData)
  | prolog (isInstruction : enclosed = .instruction) (isProlog : kind = .prologTarget)
    (left : next.state.enclosed? = none)

/-- In a construct the scanner reads nothing else. -/
theorem readsEnclosed_of_step (sound : config.Sound)
    (reads : step config before rest = .emit kind taken next)
    (inside : config.state.enclosed? = some enclosed) :
    ReadsEnclosed enclosed config rest kind taken next := by
  have left : config.leaveMarkup.state.enclosed? = none := by
    rcases sound.markupReturn with eq | eq <;> rw [Config.leaveMarkup, Config.moveTo, eq] <;> rfl
  cases state : config.state with
  | comment =>
    rw [state] at inside
    cases inside
    simp only [step, state, stepComment] at reads
    rcases cases_of_attempt_eq reads with ⟨isRead, rfl, rfl, rfl⟩ | ⟨-, reads⟩
    · exact .closing rfl (literal_eq_of_ne_nil isRead) left
    · cases reads
      exact .text rfl rfl rfl (by simp [state]) (by simp)
  | cdata =>
    rw [state] at inside
    cases inside
    simp only [step, state, stepCdata] at reads
    rcases cases_of_attempt_eq reads with ⟨isRead, rfl, rfl, rfl⟩ | ⟨-, reads⟩
    · exact .closing rfl (literal_eq_of_ne_nil isRead) rfl
    · cases reads
      exact .text rfl rfl rfl (by simp [state]) (by simp)
  | instructionTarget =>
    rw [state] at inside
    cases inside
    simp only [step, state, stepInstructionTarget] at reads
    rcases cases_of_attempt_eq reads with ⟨-, rfl, rfl, rfl⟩ | ⟨-, reads⟩
    · exact .prolog rfl rfl rfl
    · rcases cases_of_attempt_eq reads with ⟨-, rfl, rfl, rfl⟩ | ⟨-, reads⟩
      · exact .target rfl rfl rfl state rfl
      · cases reads
  | instructionData =>
    rw [state] at inside
    cases inside
    have notTarget : config.state ≠ .instructionTarget := by simp [state]
    simp only [step, state, stepInstructionData] at reads
    rcases cases_of_attempt_eq reads with ⟨-, rfl, rfl, rfl⟩ | ⟨noSpace, reads⟩
    · exact .space rfl rfl rfl rfl notTarget
    · rcases cases_of_attempt_eq reads with ⟨isRead, rfl, rfl, rfl⟩ | ⟨-, reads⟩
      · exact .closing rfl (literal_eq_of_ne_nil isRead) left
      · cases reads
        exact .text rfl rfl rfl notTarget fun _ ↦ isSpace_of_space_eq_nil noSpace
  | _ =>
    rw [state] at inside
    cases inside

namespace Config

/-- A construct is read from where it is opened. -/
theorem Emits.cases_of_enclosed_next (emits : config.Emits kind taken next) (sound : config.Sound)
    (inside : next.state.enclosed? = some enclosed) :
    kind.encloses? = some enclosed ∨ config.state.enclosed? = some enclosed := by
  cases emits with
  | commentOpen | cdataOpen | instructionOpen => exact .inl inside
  | instructionTarget eq =>
    rw [eq]
    exact .inr inside
  | comment | cdata | instructionData | space | tagSpace | content | tagUnknown | endTagUnknown
  | unrecognized => exact .inr inside
  | commentClose | instructionClose =>
    rcases sound.markupReturn with eq | eq <;>
      simp [leaveMarkup, moveTo, eq, State.enclosed?] at inside
  | prologClose | emptyTagClose | startTagClose =>
    rcases sound.state_leaveTag with eq | eq <;> simp [eq, State.enclosed?] at inside
  | _ => cases inside

/-- What is opened is read from its opening on. -/
theorem Emits.enclosed_of_encloses (emits : config.Emits kind taken next)
    (encloses : kind.encloses? = some enclosed) :
    config.state.enclosed? = none ∧ next.state.enclosed? = some enclosed ∧
      taken = enclosed.opening := by
  cases emits with
  | commentOpen eq | instructionOpen eq =>
    cases encloses
    rcases eq with eq | eq <;> rw [eq] <;> exact ⟨rfl, rfl, rfl⟩
  | cdataOpen eq =>
    cases encloses
    rw [eq]
    exact ⟨rfl, rfl, rfl⟩
  | doctypePart _ fills | elementPart _ fills | attlistPart _ fills | entityPart _ fills =>
    cases fills <;> cases encloses
  | _ => cases encloses

/-- Without a token the scanner neither enters nor leaves a construct, and goes on to no target. -/
theorem Rescans.enclosed?_eq (rescans : config.Rescans next) (sound : config.Sound) :
    next.state.enclosed? = config.state.enclosed? := by
  cases rescans with
  | tagLeft eq => rcases sound.state_leaveTag with left | left <;> rw [left, eq] <;> rfl
  | doctypeLeft eq => rcases eq with ⟨slot, eq⟩ | eq <;> rw [eq] <;> rfl
  | declLeft isDecl =>
    revert isDecl
    cases config.state <;> simp [State.isDecl, State.enclosed?, moveTo]
  | noStartTagName eq | noAssign eq | noAttributeValue eq | noEndTagName eq | endTagLeft eq
  | noTarget eq =>
    rw [eq]
    rfl

theorem Rescans.ne_instructionTarget (rescans : config.Rescans next) (sound : config.Sound) :
    next.state ≠ .instructionTarget := by
  cases rescans with
  | tagLeft => rcases sound.state_leaveTag with left | left <;> rw [left] <;> decide
  | _ => exact fun same ↦ by cases same

end Config

end Scanner

end TolerantXml
