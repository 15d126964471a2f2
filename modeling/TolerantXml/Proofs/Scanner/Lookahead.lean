import TolerantXml.Proofs.Scanner.LongerText
import TolerantXml.Proofs.Scanner.Transition

/-!
# Texts that are read alike

A lexeme depends on characters behind those that it takes. Two texts ahead are alike (`Alike`) if
every lexeme of the scanner that stays within reach is the same in both. A text that ends with `>`
is read like any text that goes on behind it, up to its end (`alike_cut`); and a text without `]` is
read like the one that goes on with `]`, up to its last character (`alike_bracket`). The scanner
reads the same token from texts that are alike (`read_alike`).
-/

namespace TolerantXml.Scanner

open Lexeme

/-! ### Texts that are alike -/

/-- Whether a state is between two constructs, in element content or between declarations. -/
def State.isBetween : State → Bool
  | .content | .subset => true
  | _ => false

/-- The fixed text that ends what is read in a state. -/
def State.closing? : State → Option Text
  | .comment => some Delimiter.commentClose
  | .cdata => some Delimiter.cdataClose
  | .instructionData => some Delimiter.instructionClose
  | _ => none

/-- What ends with a fixed text ends with `>`, which stands nowhere else in that text. -/
theorem State.exists_of_closing? {state : State} {pattern : Text}
    (closing : state.closing? = some pattern) :
    ∃ front, pattern = front ++ ['>'] ∧ '>' ∉ front := by
  cases state with
  | comment =>
    cases closing
    exact ⟨['-', '-'], rfl, by decide⟩
  | cdata =>
    cases closing
    exact ⟨[']', ']'], rfl, by decide⟩
  | instructionData =>
    cases closing
    exact ⟨['?'], rfl, by decide⟩
  | _ => cases closing

/-- Whether a character is an angle or a square bracket. No fixed text that is set off by what
follows it has one. -/
def isBracket (c : Char) : Bool := c == '<' || c == '>' || c == '[' || c == ']'

/-- Two texts ahead in which lexemes are the same that stay within reach. The reach of a lexeme may
depend on the state behind it. Lexemes that depend on what follows them are the same only where
those of the current state are. -/
structure Alike (within : State → Text → Prop) (current : State) (rest rest' : Text) : Prop where
  nothing : ∀ state, within state []
  head : rest'.head? = rest.head?
  run : ∀ (state : State) (p : Char → Bool), p '<' = false → (state = .subset → p ']' = false) →
    within state (run p rest) → run p rest' = run p rest
  tail : ∀ (state : State) (p : Char → Bool), p '<' = false → (state = .subset → p ']' = false) →
    within state (anyChar rest ++ Lexeme.run p (rest.drop 1)) →
    Lexeme.run p (rest'.drop 1) = Lexeme.run p (rest.drop 1)
  literal : ∀ (state : State) (pattern : Text),
    '<' ∉ pattern.tail ∧ (pattern.head? = some ']' ∨ ']' ∉ pattern) →
    within state (literal pattern rest) → literal pattern rest' = literal pattern rest
  doctypeOpen : ∀ state, within state (literalAnyCase Delimiter.doctypeOpen rest) →
    literalAnyCase Delimiter.doctypeOpen rest' = literalAnyCase Delimiter.doctypeOpen rest
  delimited : ∀ (state : State) (p : Char → Bool) (pattern : Text), state.isBetween = false →
    current.isBetween = false → pattern.any isBracket = false →
    within state (delimited p pattern rest) → delimited p pattern rest' = delimited p pattern rest
  upTo : ∀ (state : State) (pattern : Text), state.isBetween = false →
    current.closing? = some pattern →
    within state (upTo pattern rest) → upTo pattern rest' = upTo pattern rest
  quoted : ∀ state : State, state.isBetween = false → within state (quoted rest) →
    quoted rest' = quoted rest
  bareValue : ∀ state : State, state.isBetween = false → current = .attributeValue →
    within state (bareValue rest) → bareValue rest' = bareValue rest
  group : ∀ state : State, state.isBetween = false → within state (group rest) →
    group rest' = group rest
  contentModel : ∀ state : State, state.isBetween = false → within state (contentModel rest) →
    contentModel rest' = contentModel rest

theorem not_mem_of_isBracket {pattern : Text} {c : Char} (free : pattern.any isBracket = false)
    (isBracket : isBracket c = true) : c ∉ pattern :=
  fun mem ↦ List.any_eq_false.1 free c mem isBracket

/-- A text that ends with `>` is like any longer one, for lexemes that do not leave it. -/
theorem alike_cut {x : Text} (last : x.getLast? = some '>') (v : Text) (current : State) :
    Alike (fun _ taken ↦ taken <+: x) current (x ++ v) x := by
  have mem : '>' ∈ x := List.mem_of_getLast? last
  have nonempty : x ≠ [] := List.ne_nil_of_mem mem
  constructor
  · exact fun _ ↦ List.nil_prefix
  · exact (List.head?_append_of_ne_nil _ nonempty).symm
  · exact fun _ p _ _ within ↦ run_eq_of_prefix within
  · intro _ p _ _ within
    cases x with
    | nil => exact absurd rfl nonempty
    | cons c x => exact run_eq_of_prefix (List.cons_prefix_cons.1 within).2
  · exact fun _ pattern _ within ↦ literal_eq_of_prefix within
  · exact fun _ _ ↦ (literalAnyCase_append_of_mem mem (by decide) v).symm
  · intro _ p pattern _ _ free _
    exact (delimited_append_of_mem mem (not_mem_of_isBracket free rfl) v).symm
  · intro _ pattern _ closing within
    obtain ⟨front, rfl, free⟩ := State.exists_of_closing? closing
    exact upTo_eq_of_prefix free last within
  · exact fun _ _ within ↦ quoted_eq_of_prefix nonempty within
  · exact fun _ _ _ _ ↦ (bareValue_append_of_ne (run_ne_of_mem mem (by decide)) v).symm
  · exact fun _ _ within ↦ group_eq_of_prefix within
  · exact fun _ _ within ↦ contentModel_eq_of_prefix within

/-- A text without `]` is like the one that goes on with `]`, for lexemes that do not take all of it
or lead to a subset. -/
theorem alike_bracket {x : Text} (nonempty : x ≠ []) (free : ']' ∉ x) (w : Text)
    (current : State) :
    Alike (fun state taken ↦ taken ≠ x ∨ state = .subset) current x (x ++ ']' :: w) := by
  have stays {state : State} {taken : Text} (inside : state.isBetween = false)
      (within : taken ≠ x ∨ state = .subset) : taken ≠ x := by
    refine within.resolve_right ?_
    rintro rfl
    cases inside
  constructor
  · exact fun _ ↦ .inl nonempty.symm
  · exact List.head?_append_of_ne_nil _ nonempty
  · intro state p _ outside within
    rcases within with ends | isSubset
    · exact run_append_of_ne ends _
    · exact run_append_cons (outside isSubset) x w
  · intro state p _ outside within
    cases x with
    | nil => exact absurd rfl nonempty
    | cons c x =>
      rcases within with ends | isSubset
      · exact run_append_of_ne (fun all ↦ ends (congrArg (c :: ·) all)) _
      · exact run_append_cons (outside isSubset) x w
  · intro state pattern ⟨_, starts⟩ _
    have same : pattern.isPrefixOf (x ++ ']' :: w) = pattern.isPrefixOf x := by
      rcases starts with starts | absent
      · cases pattern with
        | nil => cases starts
        | cons d pattern =>
          cases x with
          | nil => exact absurd rfl nonempty
          | cons c x =>
            have differ : d ≠ c := by
              rintro rfl
              cases starts
              exact free List.mem_cons_self
            simp [List.isPrefixOf, beq_eq_false_iff_ne.2 differ]
      · exact isPrefixOf_append_cons absent x w
    rw [literal, literal, same]
  · exact fun _ _ ↦ literalAnyCase_append_cons (by decide) x w
  · intro _ p pattern inside _ free within
    refine delimited_append_cons (not_mem_of_isBracket free rfl) (fun all ↦ ?_) w
    exact stays inside within (all ▸ delimited_self p pattern)
  · exact fun _ _ inside _ within ↦ upTo_append_of_ne (stays inside within) _
  · exact fun _ inside within ↦ quoted_append_of_ne (stays inside within) _
  · intro _ inside _ within
    refine bareValue_append_of_ne (fun all ↦ stays inside within ?_) _
    simp [bareValue, all]
  · exact fun _ inside within ↦ group_append_of_ne (stays inside within) _
  · exact fun _ inside within ↦ contentModel_append_of_ne (stays inside within) _

namespace Alike

variable {within : State → Text → Prop} {rest rest' : Text} {current state : State}

private theorem anyChar (alike : Alike within current rest rest') :
    anyChar rest' = anyChar rest := by
  have head := alike.head
  cases rest <;> cases rest' <;> simp_all [Lexeme.anyChar]

private theorem atMarkup (alike : Alike within current rest rest') :
    atMarkup rest' = atMarkup rest := by
  rw [Scanner.atMarkup, Scanner.atMarkup, alike.head]

private theorem space (alike : Alike within current rest rest')
    (reach : within state (space rest)) : space rest' = space rest :=
  alike.run state _ rfl (fun _ ↦ rfl) reach

private theorem word (alike : Alike within current rest rest') (reach : within state (word rest)) :
    word rest' = word rest :=
  alike.run state _ rfl (fun _ ↦ rfl) reach

private theorem name (alike : Alike within current rest rest') (reach : within state (name rest)) :
    name rest' = name rest := by
  rw [Lexeme.name, Lexeme.name, alike.head] at *
  split
  · next starts =>
    rw [if_pos starts] at reach
    exact alike.run state _ rfl (fun _ ↦ rfl) reach
  · rfl

private theorem percentSign (alike : Alike within current rest rest')
    (leads : state.isBetween = false) (inside : current.isBetween = false)
    (reach : within state (percentSign rest)) :
    percentSign rest' = percentSign rest := by
  rw [percentSign_eq] at reach
  rw [percentSign_eq, percentSign_eq]
  exact alike.delimited state _ _ leads inside rfl reach

private theorem unrecognized (alike : Alike within current rest rest')
    (reach : within state (unrecognized rest)) :
    unrecognized rest' = unrecognized rest := by
  have head := alike.head
  cases rest with
  | nil =>
    rw [List.head?_eq_none_iff.1 head]
  | cons c rest =>
    cases rest' with
    | nil => cases head
    | cons d rest' =>
      cases head
      exact congrArg (c :: ·) (alike.tail state _ rfl (fun _ ↦ rfl) reach)

end Alike

/-! ### Steps -/

/-- Whether what a step takes stays within reach. -/
def Step.Within (within : State → Text → Prop) : Step → Prop
  | .emit _ taken next => within next.state taken
  | .rescan _ => True

/-- Two steps that are the same if the first one stays within reach. -/
def Step.Alike (within : State → Text → Prop) (first second : Step) : Prop :=
  first.Within within → second = first

/-- The texts already read decide alike which word ends behind a lexeme. -/
def SameWords (before before' : Text) : Prop :=
  ∀ taken : Text, lastWord (taken.reverseAux before') = lastWord (taken.reverseAux before)

theorem SameWords.advance {before before' : Text} (same : SameWords before before')
    (taken : Text) : SameWords (taken.reverseAux before) (taken.reverseAux before') := by
  intro more
  have joined := same (taken ++ more)
  simpa [List.reverseAux_eq] using joined

section Steps

variable {within : State → Text → Prop} {config next next' : Config}
  {before before' rest rest' taken taken' : Text} {kind : TokenKind} {otherwise otherwise' : Step}

private theorem attempt_alike_next (nothing : ∀ state, within state [])
    (same : within next.state taken → taken' = taken ∧ next' = next)
    (other : otherwise.Alike within otherwise') :
    (attempt taken kind next otherwise).Alike within (attempt taken' kind next' otherwise') := by
  intro reach
  unfold attempt at *
  cases taken with
  | nil =>
    rw [(same (nothing _)).1]
    exact other reach
  | cons c taken =>
    obtain ⟨rfl, rfl⟩ := same reach
    rfl

private theorem attempt_alike (nothing : ∀ state, within state [])
    (same : within next.state taken → taken' = taken)
    (other : otherwise.Alike within otherwise') :
    (attempt taken kind next otherwise).Alike within (attempt taken' kind next otherwise') :=
  attempt_alike_next nothing (fun reach ↦ ⟨same reach, rfl⟩) other

private theorem emit_alike (same : within next.state taken → taken' = taken) :
    (Step.emit kind taken next).Alike within (.emit kind taken' next) := by
  intro reach
  rw [same reach]

private theorem rescan_alike : (Step.rescan next).Alike within (.rescan next) := fun _ ↦ rfl

/-- A lexeme that is tried under a condition. -/
private theorem same_ite {p : Prop} [Decidable p] {state : State}
    (same : p → within state taken → taken' = taken)
    (reach : within state (if p then taken else [])) :
    (if p then taken' else []) = if p then taken else [] := by
  split
  · next holds =>
    rw [if_pos holds] at reach
    exact same holds reach
  · rfl

variable (alike : Alike within config.state rest rest')
include alike

private theorem stepContent_alike (h : config.state = .content) :
    (stepContent config rest).Alike within (stepContent config rest') := by
  refine attempt_alike alike.nothing (alike.literal _ _ (by decide)) ?_
  refine attempt_alike alike.nothing (alike.literal _ _ (by decide)) ?_
  refine attempt_alike alike.nothing (alike.doctypeOpen _) ?_
  refine attempt_alike alike.nothing (alike.literal _ _ (by decide)) ?_
  refine attempt_alike alike.nothing (alike.literal _ _ (by decide)) ?_
  refine attempt_alike alike.nothing (alike.literal _ _ (by decide)) ?_
  exact emit_alike (alike.run _ _ rfl (by simp [h]))

private theorem stepStartTagName_alike :
    (stepStartTagName config rest).Alike within (stepStartTagName config rest') := by
  refine attempt_alike alike.nothing alike.name ?_
  refine attempt_alike alike.nothing alike.space ?_
  exact attempt_alike alike.nothing (alike.run _ _ rfl nofun) rescan_alike

private theorem stepTag_alike : (stepTag config rest).Alike within (stepTag config rest') := by
  refine attempt_alike alike.nothing alike.space ?_
  refine attempt_alike alike.nothing
    (same_ite fun _ ↦ alike.literal _ _ (by decide)) ?_
  refine attempt_alike alike.nothing (same_ite fun _ ↦ alike.run _ _ rfl nofun) ?_
  refine attempt_alike alike.nothing (alike.literal _ _ (by decide)) ?_
  refine attempt_alike alike.nothing (alike.literal _ _ (by decide)) ?_
  rw [alike.atMarkup, alike.anyChar]
  exact fun _ ↦ rfl

private theorem stepAssign_alike :
    (stepAssign config rest).Alike within (stepAssign config rest') := by
  refine attempt_alike alike.nothing alike.space ?_
  exact attempt_alike alike.nothing (alike.literal _ _ (by decide)) rescan_alike

private theorem stepAttributeValue_alike (h : config.state = .attributeValue) :
    (stepAttributeValue config rest).Alike within (stepAttributeValue config rest') := by
  refine attempt_alike alike.nothing alike.space ?_
  refine attempt_alike alike.nothing (alike.bareValue _ rfl h) ?_
  exact attempt_alike alike.nothing (alike.quoted _ rfl) rescan_alike

private theorem stepEndTagName_alike :
    (stepEndTagName config rest).Alike within (stepEndTagName config rest') := by
  refine attempt_alike alike.nothing alike.name ?_
  refine attempt_alike alike.nothing alike.space ?_
  exact attempt_alike alike.nothing (alike.run _ _ rfl nofun) rescan_alike

private theorem stepEndTag_alike (h : config.state = .endTag) :
    (stepEndTag config rest).Alike within (stepEndTag config rest') := by
  refine attempt_alike alike.nothing alike.space ?_
  refine attempt_alike alike.nothing (alike.literal _ _ (by decide)) ?_
  rw [alike.atMarkup, alike.anyChar]
  split
  · exact rescan_alike
  · exact emit_alike fun reach ↦
      congrArg (anyChar rest ++ ·) (alike.tail _ _ rfl (by simp [h]) reach)

private theorem stepComment_alike (h : config.state = .comment) :
    (stepComment config rest).Alike within (stepComment config rest') :=
  attempt_alike alike.nothing (alike.literal _ _ (by decide))
    (emit_alike (alike.upTo _ _ (by rw [h]; rfl) (by rw [h]; rfl)))

private theorem stepCdata_alike (h : config.state = .cdata) :
    (stepCdata config rest).Alike within (stepCdata config rest') :=
  attempt_alike alike.nothing (alike.literal _ _ (by decide))
    (emit_alike (alike.upTo _ _ (by rw [h]; rfl) (by rw [h]; rfl)))

private theorem stepInstructionTarget_alike (h : config.state = .instructionTarget) :
    (stepInstructionTarget config rest).Alike within (stepInstructionTarget config rest') := by
  refine attempt_alike alike.nothing (alike.delimited _ _ _ rfl (by rw [h]; rfl) rfl) ?_
  exact attempt_alike alike.nothing alike.name rescan_alike

private theorem stepInstructionData_alike (h : config.state = .instructionData) :
    (stepInstructionData config rest).Alike within (stepInstructionData config rest') := by
  refine attempt_alike alike.nothing alike.space ?_
  exact attempt_alike alike.nothing (alike.literal _ _ (by decide))
    (emit_alike (alike.upTo _ _ (by rw [h]; rfl) (by rw [h]; rfl)))

private theorem stepDoctypeSlot_alike (slot : DoctypeSlot) (inside : config.state.isBetween = false)
    (other : otherwise.Alike within otherwise') :
    (stepDoctypeSlot config rest slot otherwise).Alike within
      (stepDoctypeSlot config rest' slot otherwise') := by
  cases slot with
  | name => exact attempt_alike alike.nothing (alike.run _ _ rfl nofun) other
  | keyword =>
    refine attempt_alike alike.nothing (alike.delimited _ _ _ rfl inside rfl) ?_
    exact attempt_alike alike.nothing (alike.delimited _ _ _ rfl inside rfl) other
  | publicId => exact attempt_alike alike.nothing (alike.quoted _ rfl) other
  | systemId => exact attempt_alike alike.nothing (alike.quoted _ rfl) other
  | publicSystemId => exact attempt_alike alike.nothing (alike.quoted _ rfl) other
  | nothing => exact other

private theorem stepDoctype_alike (slot : DoctypeSlot) (inside : config.state.isBetween = false) :
    (stepDoctype config slot rest).Alike within (stepDoctype config slot rest') := by
  refine attempt_alike alike.nothing alike.space ?_
  refine attempt_alike alike.nothing (alike.literal _ _ (by decide)) ?_
  refine attempt_alike alike.nothing (alike.literal _ _ (by decide)) ?_
  rw [alike.atMarkup]
  split
  · exact rescan_alike
  · exact stepDoctypeSlot_alike alike slot inside (emit_alike alike.unrecognized)

private theorem stepAfterSubset_alike :
    (stepAfterSubset config rest).Alike within (stepAfterSubset config rest') := by
  refine attempt_alike alike.nothing alike.space ?_
  refine attempt_alike alike.nothing (alike.literal _ _ (by decide)) ?_
  rw [alike.atMarkup]
  split
  · exact rescan_alike
  · exact emit_alike alike.unrecognized

private theorem stepSubset_alike :
    (stepSubset config rest).Alike within (stepSubset config rest') := by
  refine attempt_alike alike.nothing alike.space ?_
  refine attempt_alike alike.nothing (same_ite fun _ ↦ alike.literal _ _ (by decide)) ?_
  refine attempt_alike alike.nothing (alike.literal _ _ (by decide)) ?_
  refine attempt_alike alike.nothing (alike.literal _ _ (by decide)) ?_
  refine attempt_alike alike.nothing (alike.literal _ _ (by decide)) ?_
  refine attempt_alike alike.nothing (alike.literal _ _ (by decide)) ?_
  refine attempt_alike alike.nothing (alike.literal _ _ (by decide)) ?_
  exact emit_alike alike.unrecognized

private theorem stepElementSlot_alike (slot : ElementSlot) (inside : config.state.isBetween = false)
    (other : otherwise.Alike within otherwise') :
    (stepElementSlot config rest slot otherwise).Alike within
      (stepElementSlot config rest' slot otherwise') := by
  cases slot with
  | name => exact attempt_alike alike.nothing alike.word other
  | content =>
    refine attempt_alike alike.nothing (alike.delimited _ _ _ rfl inside rfl) ?_
    refine attempt_alike alike.nothing (alike.delimited _ _ _ rfl inside rfl) ?_
    exact attempt_alike alike.nothing (alike.contentModel _ rfl) other
  | nothing => exact other

/-- A word that fills a slot or, if it is a certain one, leaves the slot open. -/
private theorem attempt_word_alike (words : SameWords before before') {last : Text}
    {stay leave : Config} (other : otherwise.Alike within otherwise') :
    (attempt (word rest) kind
        (if lastWord ((word rest).reverseAux before) = last then stay else leave)
        otherwise).Alike within
      (attempt (word rest') kind
        (if lastWord ((word rest').reverseAux before') = last then stay else leave)
        otherwise') := by
  refine attempt_alike_next alike.nothing (fun reach ↦ ?_) other
  rw [alike.word reach, words]
  exact ⟨rfl, rfl⟩

private theorem stepAttlistSlot_alike (words : SameWords before before') (slot : AttlistSlot)
    (other : otherwise.Alike within otherwise') :
    (stepAttlistSlot config before rest slot otherwise).Alike within
      (stepAttlistSlot config before' rest' slot otherwise') := by
  cases slot with
  | element => exact attempt_alike alike.nothing alike.word other
  | name => exact attempt_alike alike.nothing alike.word other
  | type =>
    refine attempt_alike alike.nothing (alike.group _ rfl) ?_
    exact attempt_word_alike alike words other
  | defaultValue =>
    refine attempt_alike alike.nothing (alike.quoted _ rfl) ?_
    simp only [alike.head]
    split
    · refine attempt_word_alike alike words ?_
      exact attempt_alike alike.nothing alike.word other
    · exact attempt_alike alike.nothing alike.word other

private theorem stepEntitySlot_alike (slot : EntitySlot) (inside : config.state.isBetween = false)
    (other : otherwise.Alike within otherwise') :
    (stepEntitySlot config rest slot otherwise).Alike within
      (stepEntitySlot config rest' slot otherwise') := by
  cases slot with
  | name =>
    refine attempt_alike alike.nothing (alike.percentSign inside inside) ?_
    exact attempt_alike alike.nothing alike.word other
  | definition =>
    refine attempt_alike alike.nothing (alike.quoted _ rfl) ?_
    refine attempt_alike alike.nothing (alike.delimited _ _ _ rfl inside rfl) ?_
    exact attempt_alike alike.nothing (alike.delimited _ _ _ rfl inside rfl) other
  | publicId => exact attempt_alike alike.nothing (alike.quoted _ rfl) other
  | systemId => exact attempt_alike alike.nothing (alike.quoted _ rfl) other
  | nothing => exact other

private theorem stepDecl_alike {parts parts' : Step → Step}
    (slots : ∀ otherwise otherwise' : Step, otherwise.Alike within otherwise' →
      (parts otherwise).Alike within (parts' otherwise')) :
    (stepDecl config rest parts).Alike within (stepDecl config rest' parts') := by
  refine attempt_alike alike.nothing alike.space ?_
  refine attempt_alike alike.nothing (alike.literal _ _ (by decide)) ?_
  rw [abandonsDecl, abandonsDecl, alike.atMarkup, alike.head]
  split
  · exact rescan_alike
  · exact slots _ _ (emit_alike alike.unrecognized)

/-- Where texts are alike, so are the steps. -/
theorem step_alike (words : SameWords before before') :
    (step config before rest).Alike within (step config before' rest') := by
  rw [step, step]
  split
  · next h => exact stepContent_alike alike h
  · exact stepStartTagName_alike alike
  · exact stepTag_alike alike
  · exact stepAssign_alike alike
  · next h => exact stepAttributeValue_alike alike h
  · next h => exact stepComment_alike alike h
  · next h => exact stepCdata_alike alike h
  · next h => exact stepInstructionTarget_alike alike h
  · next h => exact stepInstructionData_alike alike h
  · exact stepEndTagName_alike alike
  · next h => exact stepEndTag_alike alike h
  · next slot h => exact stepDoctype_alike alike slot (by rw [h]; rfl)
  · exact stepSubset_alike alike
  · exact stepAfterSubset_alike alike
  · next slot h =>
    exact stepDecl_alike alike fun _ _ ↦ stepElementSlot_alike alike slot (by rw [h]; rfl)
  · next slot h =>
    exact stepDecl_alike alike fun _ _ ↦ stepAttlistSlot_alike alike words slot
  · next slot h =>
    exact stepDecl_alike alike fun _ _ ↦ stepEntitySlot_alike alike slot (by rw [h]; rfl)

end Steps

/-- Where texts are alike, the same token is read if it stays within reach. What makes the texts
alike need be known only behind that token, if it goes back over every change of state. -/
theorem read_alike_of {within : State → Text → Prop} {P : State → Prop} {config next : Config}
    {cursor cursor' : Cursor} {kind : TokenKind} {taken : Text}
    (alike : ∀ state, P state → Alike within state cursor.rest cursor'.rest)
    (words : SameWords cursor.before cursor'.before) (ahead : cursor.rest ≠ [])
    (rescans : ∀ config next, step config cursor.before cursor.rest = .rescan next →
      P next.state → P config.state)
    (emits : ∀ config : Config, config.Emits kind taken next → P config.state)
    (reads : read config cursor = (⟨kind, ⟨cursor.offset, cursor.offset + taken.byteSize⟩, taken⟩,
      ⟨next, cursor.advance taken⟩))
    (reach : within next.state taken) :
    P config.state ∧ read config cursor' =
      (⟨kind, ⟨cursor'.offset, cursor'.offset + taken.byteSize⟩, taken⟩,
        ⟨next, cursor'.advance taken⟩) := by
  -- Texts that are alike are both empty or both not.
  have ahead' {state : State} (h : P state) : cursor'.rest ≠ [] := by
    intro isNil
    have head := (alike state h).head
    rw [isNil] at head
    exact ahead (List.head?_eq_none_iff.1 head.symm)
  have same : ∀ config : Config, P config.state →
      (step config cursor.before cursor.rest).Alike within
        (step config cursor'.before cursor'.rest) :=
    fun config h ↦ step_alike (alike config.state h) words
  fun_induction read config cursor with
  | case1 _ h => exact absurd h ahead
  | case2 config c rest h kind taken next hstep after =>
    simp only [Prod.mk.injEq, Token.mk.injEq, Scanner.mk.injEq] at reads
    obtain ⟨⟨rfl, -, rfl⟩, rfl, -⟩ := reads
    have allowed := emits_of_step hstep
    have known := emits config allowed
    have same := same config known
    rw [h, hstep] at same
    exact ⟨known, read_of_step (ahead' known) (same reach)⟩
  | case3 config c rest h next hstep ih =>
    obtain ⟨known, reads'⟩ := ih reads
    have known := rescans config next (h ▸ hstep) known
    have same := same config known
    rw [h, hstep] at same
    exact ⟨known, (read_of_rescan (ahead' known) (same trivial)).trans reads'⟩

/-- Where texts are alike in every state, the same token is read if it stays within reach. -/
theorem read_alike {within : State → Text → Prop} {config next : Config} {cursor cursor' : Cursor}
    {kind : TokenKind} {taken : Text}
    (alike : ∀ state, Alike within state cursor.rest cursor'.rest)
    (words : SameWords cursor.before cursor'.before) (ahead : cursor.rest ≠ [])
    (reads : read config cursor = (⟨kind, ⟨cursor.offset, cursor.offset + taken.byteSize⟩, taken⟩,
      ⟨next, cursor.advance taken⟩))
    (reach : within next.state taken) :
    read config cursor' =
      (⟨kind, ⟨cursor'.offset, cursor'.offset + taken.byteSize⟩, taken⟩,
        ⟨next, cursor'.advance taken⟩) :=
  (read_alike_of (fun state (_ : True) ↦ alike state) words ahead (fun _ _ _ _ ↦ trivial)
    (fun _ _ ↦ trivial) reads reach).2

end TolerantXml.Scanner
