import TolerantXml.Proofs.Scanner.Transition

/-!
# Reading in another mode

The mode decides only whether `]` ends a subset, so the scanner reads the same in both modes in
front of anything else (`read_inMode`).
-/

namespace TolerantXml.Scanner

open Lexeme

/-- A configuration in a document of some mode. -/
def Config.inMode (config : Config) (mode : Mode) : Config := { config with mode := mode }

/-- A step in a document of some mode. -/
def Step.inMode (mode : Mode) : Step → Step
  | .emit kind taken next => .emit kind taken (next.inMode mode)
  | .rescan next => .rescan (next.inMode mode)

section Modes

variable {config : Config} {mode : Mode} {before rest taken : Text} {kind : TokenKind}
  {next : Config} {otherwise : Step}

private theorem attempt_inMode : (attempt taken kind next otherwise).inMode mode =
    attempt taken kind (next.inMode mode) (otherwise.inMode mode) := by
  unfold attempt
  split <;> rfl

private theorem Config.ite_inMode {p : Prop} [Decidable p] {first second : Config} :
    (if p then first else second).inMode mode =
      if p then first.inMode mode else second.inMode mode := by
  split <;> rfl

private theorem stepDecl_inMode (notBracket : rest.head? ≠ some ']') {parts parts' : Step → Step}
    (slots : ∀ otherwise : Step, parts' (otherwise.inMode mode) = (parts otherwise).inMode mode) :
    stepDecl (config.inMode mode) rest parts' = (stepDecl config rest parts).inMode mode := by
  have abandons : abandonsDecl (config.inMode mode) rest = abandonsDecl config rest := by
    simp only [abandonsDecl, beq_eq_false_iff_ne.2 notBracket, Bool.false_and]
  unfold stepDecl
  rw [attempt_inMode, attempt_inMode, apply_ite (Step.inMode mode), abandons, ← slots]
  rfl

private theorem literal_bracket (notBracket : rest.head? ≠ some ']') : literal [']'] rest = [] := by
  cases rest with
  | nil => rfl
  | cons c rest =>
    have differ : ']' ≠ c := by
      rintro rfl
      exact notBracket rfl
    simp [literal, List.isPrefixOf, beq_eq_false_iff_ne.2 differ]

/-- Only in front of `]` the scanner asks for the mode. -/
theorem step_inMode (notBracket : rest.head? ≠ some ']') :
    step (config.inMode mode) before rest = (step config before rest).inMode mode := by
  obtain ⟨mode', state, markupReturn, spaceSeen, inProlog⟩ := config
  cases state with
  | content =>
    simp only [step, stepContent, attempt_inMode]
    rfl
  | startTagName =>
    simp only [step, stepStartTagName, attempt_inMode]
    rfl
  | tag =>
    simp only [step, stepTag, attempt_inMode, apply_ite (Step.inMode mode)]
    rfl
  | assign =>
    simp only [step, stepAssign, attempt_inMode]
    rfl
  | attributeValue =>
    simp only [step, stepAttributeValue, attempt_inMode]
    rfl
  | comment =>
    simp only [step, stepComment, attempt_inMode]
    rfl
  | cdata =>
    simp only [step, stepCdata, attempt_inMode]
    rfl
  | instructionTarget =>
    simp only [step, stepInstructionTarget, attempt_inMode]
    rfl
  | instructionData =>
    simp only [step, stepInstructionData, attempt_inMode]
    rfl
  | endTagName =>
    simp only [step, stepEndTagName, attempt_inMode]
    rfl
  | endTag =>
    simp only [step, stepEndTag, attempt_inMode, apply_ite (Step.inMode mode)]
    rfl
  | doctype slot =>
    simp only [step, stepDoctype, attempt_inMode, apply_ite (Step.inMode mode)]
    cases slot with
    | nothing => rfl
    | _ =>
      simp only [stepDoctypeSlot, attempt_inMode]
      rfl
  | subset =>
    show stepSubset _ _ = (stepSubset _ _).inMode mode
    rw [stepSubset, stepSubset, literal_bracket notBracket, ite_self, ite_self]
    simp only [attempt_inMode]
    rfl
  | afterSubset =>
    simp only [step, stepAfterSubset, attempt_inMode, apply_ite (Step.inMode mode)]
    rfl
  | elementDecl slot =>
    refine stepDecl_inMode notBracket fun otherwise ↦ ?_
    cases slot with
    | nothing => rfl
    | _ =>
      simp only [stepElementSlot, attempt_inMode]
      rfl
  | attlistDecl slot =>
    refine stepDecl_inMode notBracket fun otherwise ↦ ?_
    cases slot <;>
    · simp only [stepAttlistSlot, attempt_inMode, Config.ite_inMode]
      rfl
  | entityDecl slot =>
    refine stepDecl_inMode notBracket fun otherwise ↦ ?_
    cases slot with
    | nothing => rfl
    | _ =>
      simp only [stepEntitySlot, attempt_inMode]
      rfl

/-- The mode makes no difference to the token that is read in front of anything but `]`. -/
theorem read_inMode {cursor : Cursor} (notBracket : cursor.rest.head? ≠ some ']') :
    read (config.inMode mode) cursor =
      ((read config cursor).1,
        ⟨(read config cursor).2.config.inMode mode, (read config cursor).2.cursor⟩) := by
  fun_induction read config cursor with
  | case1 config atEnd => rw [read_of_rest_nil atEnd]
  | case2 config c rest ahead kind taken next reads after =>
    have reads' : step (config.inMode mode) cursor.before cursor.rest =
        .emit kind taken (next.inMode mode) := by
      rw [step_inMode notBracket, ahead, reads]
      rfl
    have notEnd : cursor.rest ≠ [] := ahead ▸ List.cons_ne_nil c rest
    rw [read_of_step notEnd reads']
    rfl
  | case3 config c rest ahead next rescans ih =>
    have rescans' : step (config.inMode mode) cursor.before cursor.rest =
        .rescan (next.inMode mode) := by
      rw [step_inMode notBracket, ahead, rescans]
      rfl
    have notEnd : cursor.rest ≠ [] := ahead ▸ List.cons_ne_nil c rest
    rw [read_of_rescan notEnd rescans', ih]

end Modes

end TolerantXml.Scanner
