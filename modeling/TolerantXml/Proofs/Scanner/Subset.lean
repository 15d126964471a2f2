import TolerantXml.Proofs.Scanner.Reachable

/-!
# Inside a subset

The configuration tells whether the scanner is in a subset, or in markup that returns to one
(`Config.WithinSubset`). The scanner enters a subset at `[` and leaves it at `]`, and nowhere else
(`Emits.withinSubset_iff`).
-/

namespace TolerantXml.Scanner.Config

variable {config next : Config} {kind : TokenKind} {taken : Text}

/-- Whether the scanner is in a subset, or in markup that returns to one. -/
def WithinSubset (config : Config) : Prop :=
  match config.state with
  | .subset | .elementDecl _ | .attlistDecl _ | .entityDecl _ => True
  | .comment | .instructionTarget | .instructionData => config.markupReturn = .subset
  | .tag | .assign | .attributeValue => config.inProlog = true ∧ config.markupReturn = .subset
  | _ => False

/-- Where only declarations are read, all of the text is a subset. -/
theorem Sound.withinSubset_of_dtd (sound : config.Sound) (dtd : config.mode = .dtd) :
    config.WithinSubset := by
  have ofDeclarations := sound.dtd_state dtd
  have returns := sound.dtd_markupReturn dtd
  have inProlog := sound.dtd_inProlog dtd
  rw [WithinSubset]
  cases state : config.state with
  | subset | elementDecl | attlistDecl | entityDecl => trivial
  | comment | instructionTarget | instructionData => exact returns
  | tag | assign | attributeValue => exact ⟨inProlog (by rw [state]; rfl), returns⟩
  | _ =>
    rw [state] at ofDeclarations
    cases ofDeclarations

/-- A tag that is left was in a subset if the scanner is in one behind it. -/
private theorem Sound.withinSubset_leaveTag_iff (h : config.Sound) (eq : config.state = .tag) :
    config.leaveTag.WithinSubset ↔ config.WithinSubset := by
  cases prolog : config.inProlog with
  | true =>
    rcases h.markupReturn with returns | returns <;>
      simp [WithinSubset, Config.leaveTag, eq, prolog, returns]
  | false => simp [WithinSubset, Config.leaveTag, eq, prolog]

private theorem Sound.withinSubset_leaveMarkup_iff (h : config.Sound)
    (eq : config.state = .comment ∨ config.state = .instructionData) :
    config.leaveMarkup.WithinSubset ↔ config.WithinSubset := by
  rcases eq with eq | eq <;> rcases h.markupReturn with returns | returns <;>
    simp [WithinSubset, Config.leaveMarkup, Config.moveTo, eq, returns]

/-- A change of state without a token neither enters a subset nor leaves one. -/
theorem Rescans.withinSubset_iff (rescans : config.Rescans next) (sound : config.Sound) :
    next.WithinSubset ↔ config.WithinSubset := by
  cases rescans with
  | noStartTagName eq =>
    have noProlog := sound.inProlog_eq_false (by simp [eq, State.isTag])
    simp [WithinSubset, moveTo, eq, noProlog]
  | tagLeft eq => exact sound.withinSubset_leaveTag_iff eq
  | noAssign eq | noAttributeValue eq | noEndTagName eq | endTagLeft eq | noTarget eq =>
    simp [WithinSubset, moveTo, eq]
  | doctypeLeft eq => rcases eq with ⟨slot, eq⟩ | eq <;> simp [WithinSubset, moveTo, eq]
  | declLeft isDecl =>
    revert isDecl
    cases state : config.state <;> simp [State.isDecl, WithinSubset, moveTo, state]

/-- A subset is only entered at its start and left at its end. -/
theorem Emits.withinSubset_iff (emits : config.Emits kind taken next) (sound : config.Sound) :
    next.WithinSubset ↔ kind = .subsetOpen ∨ kind ≠ .subsetClose ∧ config.WithinSubset := by
  cases emits with
  | space | content | tagUnknown | endTagUnknown | comment | cdata | instructionData
  | unrecognized => simp
  | tagSpace eq => rcases eq with eq | eq <;> simp [WithinSubset, eq]
  | commentOpen eq | instructionOpen eq =>
    rcases eq with eq | eq <;> simp [WithinSubset, enterMarkup, eq]
  | commentClose eq => simp [sound.withinSubset_leaveMarkup_iff (.inl eq)]
  | instructionClose eq => simp [sound.withinSubset_leaveMarkup_iff (.inr eq)]
  | prologClose eq | emptyTagClose eq | startTagClose eq =>
    simp [sound.withinSubset_leaveTag_iff eq]
  | startTag eq | startTagUnknown eq =>
    have noProlog := sound.inProlog_eq_false (by simp [eq, State.isTag])
    simp [WithinSubset, moveTo, eq, noProlog]
  | attributeName eq | assign eq | attributeValue eq | prologTarget eq | instructionTarget eq
  | cdataOpen eq | doctypeOpen eq | endTagOpen eq | startTagOpen eq | endTag eq
  | endTagNameUnknown eq | endTagClose eq | cdataClose eq | subsetOpen eq | subsetClose eq
  | elementDeclOpen eq | attlistOpen eq | entityOpen eq => simp [WithinSubset, moveTo, eq]
  | doctypeClose eq => rcases eq with ⟨slot, eq⟩ | eq <;> simp [WithinSubset, moveTo, eq]
  | declClose isDecl =>
    revert isDecl
    cases state : config.state <;> simp [State.isDecl, WithinSubset, moveTo, state]
  | doctypePart eq fills | elementPart eq fills | attlistPart eq fills | entityPart eq fills =>
    cases fills <;> simp [WithinSubset, moveTo, eq]

end TolerantXml.Scanner.Config
