import TolerantXml.Scanner.Step

/-!
# Progress of the scanner

Where text is ahead, every step makes progress: it reads a part of that text which is not empty,
or it goes to a state of lower rank (`step_progress`). So a token comes after finitely many
steps, in every configuration.
-/

namespace TolerantXml.Scanner

open Lexeme

/-- How many steps without a token may follow a state outside the prolog. -/
def State.rank : State → Nat
  | .content | .subset | .comment | .cdata | .instructionData => 0
  | .tag | .endTag | .instructionTarget | .doctype _ | .afterSubset => 1
  | .elementDecl _ | .attlistDecl _ | .entityDecl _ => 1
  | .startTagName | .assign | .attributeValue | .endTagName => 2

theorem State.rank_le (state : State) : state.rank ≤ 2 := by
  cases state <;> simp [State.rank]

/-- How many steps without a token may follow a configuration: leaving the prolog returns to any
state at most once. -/
def Config.rank (config : Config) : Nat :=
  config.state.rank + if config.inProlog then 3 else 0

/-- A step reads a part of the text ahead that is not empty, and not as the end token, or it goes
down in rank. -/
def Step.Progress (config : Config) (rest : Text) : Step → Prop
  | .emit kind taken _ => kind ≠ .eos ∧ taken ≠ [] ∧ taken <+: rest
  | .rescan next => next.rank < config.rank

private theorem attempt_progress {config next : Config} {rest taken : Text} {kind : TokenKind}
    {otherwise : Step} (notEnd : kind ≠ .eos) (starts : taken <+: rest)
    (other : taken = [] → otherwise.Progress config rest) :
    (attempt taken kind next otherwise).Progress config rest := by
  rw [attempt]
  split
  next h => exact other (List.isEmpty_iff.1 h)
  next h => exact ⟨notEnd, fun empty ↦ h (List.isEmpty_iff.2 empty), starts⟩

/-- A lexeme that is tried only under a condition is a prefix if the lexeme is. -/
private theorem isPrefix_ite {p : Prop} [Decidable p] {taken rest : Text} (h : taken <+: rest) :
    (if p then taken else []) <+: rest := by
  split
  next => exact h
  next => exact List.nil_prefix

private theorem run_ne_nil {p : Char → Bool} {c : Char} {rest : Text} (h : p c = true) :
    run p (c :: rest) ≠ [] := by
  simp [run, h]

private theorem upTo_ne_nil {pattern : Text} {c : Char} {rest : Text} (nonempty : pattern ≠ [])
    (absent : literal pattern (c :: rest) = []) : upTo pattern (c :: rest) ≠ [] := by
  rw [literal] at absent
  split at absent
  next => exact absurd absent nonempty
  next h => rw [upTo, if_neg h]; exact List.cons_ne_nil _ _

/-- Only the rank of the next state and whether the prolog is left decide the rank. -/
private theorem rank_moveTo_lt {config : Config} {state : State}
    (h : state.rank < config.state.rank) : (config.moveTo state).rank < config.rank := by
  exact Nat.add_lt_add_right h _

private theorem rank_leaveTag_lt {config : Config} (h : config.state = .tag) :
    config.leaveTag.rank < config.rank := by
  have := config.markupReturn.rank_le
  have tag : State.tag.rank = 1 := rfl
  simp only [Config.rank, Config.leaveTag, h, tag]
  cases config.inProlog with
  | false => simp [State.rank]
  | true => simp only [↓reduceIte, Bool.false_eq_true]; omega

private theorem stepContent_progress {config : Config} {c : Char} {rest : Text} :
    (stepContent config (c :: rest)).Progress config (c :: rest) := by
  refine attempt_progress nofun (isPrefix_literal _ _) fun _ ↦ ?_
  refine attempt_progress nofun (isPrefix_literal _ _) fun _ ↦ ?_
  refine attempt_progress nofun (isPrefix_literalAnyCase _ _) fun _ ↦ ?_
  refine attempt_progress nofun (isPrefix_literal _ _) fun _ ↦ ?_
  refine attempt_progress nofun (isPrefix_literal _ _) fun _ ↦ ?_
  refine attempt_progress nofun (isPrefix_literal _ _) fun noMarkup ↦
    ⟨nofun, run_ne_nil ?_, isPrefix_run _ _⟩
  simp only [bne_iff_ne, ne_eq]
  rintro rfl
  simp [literal] at noMarkup

private theorem stepStartTagName_progress {config : Config} {rest : Text}
    (h : config.state = .startTagName) :
    (stepStartTagName config rest).Progress config rest := by
  refine attempt_progress nofun (isPrefix_name _) fun _ ↦ ?_
  refine attempt_progress nofun (isPrefix_run _ _) fun _ ↦ ?_
  refine attempt_progress nofun (isPrefix_run _ _) fun _ ↦ ?_
  exact rank_moveTo_lt (by simp [h, State.rank])

private theorem stepTag_progress {config : Config} {c : Char} {rest : Text}
    (h : config.state = .tag) : (stepTag config (c :: rest)).Progress config (c :: rest) := by
  refine attempt_progress nofun (isPrefix_run _ _) fun _ ↦ ?_
  refine attempt_progress nofun (isPrefix_ite (isPrefix_literal _ _)) fun _ ↦ ?_
  refine attempt_progress nofun (isPrefix_ite (isPrefix_run _ _)) fun _ ↦ ?_
  refine attempt_progress nofun (isPrefix_literal _ _) fun _ ↦ ?_
  refine attempt_progress nofun (isPrefix_literal _ _) fun _ ↦ ?_
  split
  next => exact rank_leaveTag_lt h
  next => exact ⟨nofun, by simp [anyChar], isPrefix_anyChar _⟩

private theorem stepAssign_progress {config : Config} {rest : Text} (h : config.state = .assign) :
    (stepAssign config rest).Progress config rest := by
  refine attempt_progress nofun (isPrefix_run _ _) fun _ ↦ ?_
  refine attempt_progress nofun (isPrefix_literal _ _) fun _ ↦ ?_
  exact rank_moveTo_lt (by simp [h, State.rank])

private theorem stepAttributeValue_progress {config : Config} {rest : Text}
    (h : config.state = .attributeValue) :
    (stepAttributeValue config rest).Progress config rest := by
  refine attempt_progress nofun (isPrefix_run _ _) fun _ ↦ ?_
  refine attempt_progress nofun (isPrefix_bareValue _) fun _ ↦ ?_
  refine attempt_progress nofun (isPrefix_quoted _) fun _ ↦ ?_
  simp only [Step.Progress, Config.rank, h, State.rank]
  omega

private theorem stepEndTagName_progress {config : Config} {rest : Text}
    (h : config.state = .endTagName) :
    (stepEndTagName config rest).Progress config rest := by
  refine attempt_progress nofun (isPrefix_name _) fun _ ↦ ?_
  refine attempt_progress nofun (isPrefix_run _ _) fun _ ↦ ?_
  refine attempt_progress nofun (isPrefix_run _ _) fun _ ↦ ?_
  exact rank_moveTo_lt (by simp [h, State.rank])

private theorem stepEndTag_progress {config : Config} {c : Char} {rest : Text}
    (h : config.state = .endTag) :
    (stepEndTag config (c :: rest)).Progress config (c :: rest) := by
  refine attempt_progress nofun (isPrefix_run _ _) fun _ ↦ ?_
  refine attempt_progress nofun (isPrefix_literal _ _) fun _ ↦ ?_
  split
  next => exact rank_moveTo_lt (by simp [h, State.rank])
  next =>
    refine ⟨nofun, by simp [anyChar], ?_⟩
    exact List.cons_prefix_cons.2 ⟨rfl, isPrefix_run _ _⟩

private theorem stepComment_progress {config : Config} {c : Char} {rest : Text} :
    (stepComment config (c :: rest)).Progress config (c :: rest) :=
  attempt_progress nofun (isPrefix_literal _ _) fun open_ ↦
    ⟨nofun, upTo_ne_nil (by simp [Delimiter.commentClose]) open_, isPrefix_upTo _ _⟩

private theorem stepCdata_progress {config : Config} {c : Char} {rest : Text} :
    (stepCdata config (c :: rest)).Progress config (c :: rest) :=
  attempt_progress nofun (isPrefix_literal _ _) fun open_ ↦
    ⟨nofun, upTo_ne_nil (by simp [Delimiter.cdataClose]) open_, isPrefix_upTo _ _⟩

private theorem stepInstructionTarget_progress {config : Config} {rest : Text}
    (h : config.state = .instructionTarget) :
    (stepInstructionTarget config rest).Progress config rest := by
  refine attempt_progress nofun (isPrefix_prologTarget _) fun _ ↦ ?_
  refine attempt_progress nofun (isPrefix_name _) fun _ ↦ ?_
  exact rank_moveTo_lt (by simp [h, State.rank])

private theorem stepInstructionData_progress {config : Config} {c : Char} {rest : Text} :
    (stepInstructionData config (c :: rest)).Progress config (c :: rest) := by
  refine attempt_progress nofun (isPrefix_run _ _) fun _ ↦ ?_
  refine attempt_progress nofun (isPrefix_literal _ _) fun open_ ↦ ?_
  exact ⟨nofun, upTo_ne_nil (by simp [Delimiter.instructionClose]) open_, isPrefix_upTo _ _⟩

private theorem unrecognized_progress {config next : Config} {c : Char} {rest : Text} :
    (Step.emit .unrecognized (unrecognized (c :: rest)) next).Progress config (c :: rest) :=
  ⟨nofun, by simp [unrecognized], isPrefix_unrecognized _⟩

private theorem stepDoctypeSlot_progress {config : Config} {slot : DoctypeSlot} {rest : Text}
    {otherwise : Step} (other : otherwise.Progress config rest) :
    (stepDoctypeSlot config rest slot otherwise).Progress config rest := by
  cases slot with
  | name => exact attempt_progress nofun (isPrefix_run _ _) fun _ ↦ other
  | keyword =>
    exact attempt_progress nofun (isPrefix_keyword _ _) fun _ ↦
      attempt_progress nofun (isPrefix_keyword _ _) fun _ ↦ other
  | publicId => exact attempt_progress nofun (isPrefix_quoted _) fun _ ↦ other
  | systemId => exact attempt_progress nofun (isPrefix_quoted _) fun _ ↦ other
  | publicSystemId => exact attempt_progress nofun (isPrefix_quoted _) fun _ ↦ other
  | nothing => exact other

private theorem stepDoctype_progress {config : Config} {slot : DoctypeSlot} {c : Char} {rest : Text}
    (h : config.state = .doctype slot) :
    (stepDoctype config slot (c :: rest)).Progress config (c :: rest) := by
  refine attempt_progress nofun (isPrefix_run _ _) fun _ ↦ ?_
  refine attempt_progress nofun (isPrefix_literal _ _) fun _ ↦ ?_
  refine attempt_progress nofun (isPrefix_literal _ _) fun _ ↦ ?_
  split
  next => exact rank_moveTo_lt (by simp [h, State.rank])
  next => exact stepDoctypeSlot_progress unrecognized_progress

private theorem stepAfterSubset_progress {config : Config} {c : Char} {rest : Text}
    (h : config.state = .afterSubset) :
    (stepAfterSubset config (c :: rest)).Progress config (c :: rest) := by
  refine attempt_progress nofun (isPrefix_run _ _) fun _ ↦ ?_
  refine attempt_progress nofun (isPrefix_literal _ _) fun _ ↦ ?_
  split
  next => exact rank_moveTo_lt (by simp [h, State.rank])
  next => exact unrecognized_progress

private theorem stepSubset_progress {config : Config} {c : Char} {rest : Text} :
    (stepSubset config (c :: rest)).Progress config (c :: rest) := by
  refine attempt_progress nofun (isPrefix_run _ _) fun _ ↦ ?_
  refine attempt_progress nofun (isPrefix_ite (isPrefix_literal _ _)) fun _ ↦ ?_
  refine attempt_progress nofun (isPrefix_literal _ _) fun _ ↦ ?_
  refine attempt_progress nofun (isPrefix_literal _ _) fun _ ↦ ?_
  refine attempt_progress nofun (isPrefix_literal _ _) fun _ ↦ ?_
  refine attempt_progress nofun (isPrefix_literal _ _) fun _ ↦ ?_
  exact attempt_progress nofun (isPrefix_literal _ _) fun _ ↦ unrecognized_progress

private theorem stepElementSlot_progress {config : Config} {slot : ElementSlot} {rest : Text}
    {otherwise : Step} (other : otherwise.Progress config rest) :
    (stepElementSlot config rest slot otherwise).Progress config rest := by
  cases slot with
  | name => exact attempt_progress nofun (isPrefix_run _ _) fun _ ↦ other
  | content =>
    exact attempt_progress nofun (isPrefix_keyword _ _) fun _ ↦
      attempt_progress nofun (isPrefix_keyword _ _) fun _ ↦
        attempt_progress nofun (isPrefix_contentModel _) fun _ ↦ other
  | nothing => exact other

private theorem stepAttlistSlot_progress {config : Config} {slot : AttlistSlot} {before rest : Text}
    {otherwise : Step} (other : otherwise.Progress config rest) :
    (stepAttlistSlot config before rest slot otherwise).Progress config rest := by
  cases slot with
  | element => exact attempt_progress nofun (isPrefix_run _ _) fun _ ↦ other
  | name => exact attempt_progress nofun (isPrefix_run _ _) fun _ ↦ other
  | type =>
    exact attempt_progress nofun (isPrefix_group _) fun _ ↦
      attempt_progress nofun (isPrefix_run _ _) fun _ ↦ other
  | defaultValue =>
    exact attempt_progress nofun (isPrefix_quoted _) fun _ ↦
      attempt_progress nofun (isPrefix_ite (isPrefix_run _ _)) fun _ ↦
        attempt_progress nofun (isPrefix_run _ _) fun _ ↦ other

private theorem isPrefix_percentSign (rest : Text) : percentSign rest <+: rest := by
  rw [percentSign]
  split
  next h =>
    cases rest with
    | nil => simp at h
    | cons c rest =>
      simp only [List.head?_cons, Option.some.injEq] at h
      simp [h.1]
  next => exact List.nil_prefix

private theorem stepEntitySlot_progress {config : Config} {slot : EntitySlot} {rest : Text}
    {otherwise : Step} (other : otherwise.Progress config rest) :
    (stepEntitySlot config rest slot otherwise).Progress config rest := by
  cases slot with
  | name =>
    exact attempt_progress nofun (isPrefix_percentSign _) fun _ ↦
      attempt_progress nofun (isPrefix_run _ _) fun _ ↦ other
  | definition =>
    exact attempt_progress nofun (isPrefix_quoted _) fun _ ↦
      attempt_progress nofun (isPrefix_keyword _ _) fun _ ↦
        attempt_progress nofun (isPrefix_keyword _ _) fun _ ↦ other
  | publicId => exact attempt_progress nofun (isPrefix_quoted _) fun _ ↦ other
  | systemId => exact attempt_progress nofun (isPrefix_quoted _) fun _ ↦ other
  | nothing => exact other

private theorem stepDecl_progress {config : Config} {c : Char} {rest : Text} {parts : Step → Step}
    (h : config.state.rank = 1)
    (slots : ∀ otherwise : Step, otherwise.Progress config (c :: rest) →
      (parts otherwise).Progress config (c :: rest)) :
    (stepDecl config (c :: rest) parts).Progress config (c :: rest) := by
  refine attempt_progress nofun (isPrefix_run _ _) fun _ ↦ ?_
  refine attempt_progress nofun (isPrefix_literal _ _) fun _ ↦ ?_
  split
  next => exact rank_moveTo_lt (h ▸ Nat.one_pos)
  next => exact slots _ unrecognized_progress

/-- Every step makes progress where text is ahead. -/
theorem step_progress (config : Config) (before : Text) (c : Char) (rest : Text) :
    (step config before (c :: rest)).Progress config (c :: rest) := by
  rw [step]
  split
  next => exact stepContent_progress
  next h => exact stepStartTagName_progress h
  next h => exact stepTag_progress h
  next h => exact stepAssign_progress h
  next h => exact stepAttributeValue_progress h
  next => exact stepComment_progress
  next => exact stepCdata_progress
  next h => exact stepInstructionTarget_progress h
  next => exact stepInstructionData_progress
  next h => exact stepEndTagName_progress h
  next h => exact stepEndTag_progress h
  next slot h => exact stepDoctype_progress h
  next => exact stepSubset_progress
  next h => exact stepAfterSubset_progress h
  next slot h =>
    exact stepDecl_progress (by simp [h, State.rank]) fun _ ↦ stepElementSlot_progress
  next slot h =>
    exact stepDecl_progress (by simp [h, State.rank]) fun _ ↦ stepAttlistSlot_progress
  next slot h =>
    exact stepDecl_progress (by simp [h, State.rank]) fun _ ↦ stepEntitySlot_progress

end TolerantXml.Scanner
