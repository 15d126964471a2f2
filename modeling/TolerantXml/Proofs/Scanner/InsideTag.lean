import Mathlib.Data.List.TakeWhile
import TolerantXml.Proofs.Scanner.TagNames

/-!
# Inside a tag

From the delimiter that opens a start tag or an instruction on, the scanner is inside the tag until
a token comes that cannot stand there (`Emits.withinTag_eq`). Names and values of attributes are
read nowhere else, and white space comes before each name (`Config.Spaced`).
-/

namespace TolerantXml

namespace TokenKind

/-- Whether a token may stand in a tag, behind the delimiter that opens it and before its end. -/
def staysInTag : TokenKind → Bool
  | .startTag | .prologTarget | .attributeName | .assign | .attributeValue | .whitespace
  | .unknown => true
  | _ => false

/-- Whether a token opens a tag in which there may be attributes. -/
def opensTag : TokenKind → Bool
  | .startTagOpen | .instructionOpen => true
  | _ => false

/-- Whether a token is one that an attribute behind it has to be set apart from. -/
def isTagWord : TokenKind → Bool
  | .startTag | .prologTarget | .attributeName | .attributeValue => true
  | _ => false

end TokenKind

/-- The tokens of a tag, of those that come behind the delimiter that opens it. -/
def tagTokens (behind : List Token) : List Token := behind.takeWhile (·.kind.staysInTag)

section TagTokens

variable {behind : List Token} {token : Token}

theorem tagTokens_eq_self (h : ∀ token ∈ behind, token.kind.staysInTag = true) :
    tagTokens behind = behind :=
  List.takeWhile_eq_self_iff.2 h

/-- A tag goes on with a token that may stand in it. -/
theorem tagTokens_concat (h : ∀ token ∈ behind, token.kind.staysInTag = true) (token : Token) :
    tagTokens (behind ++ [token]) =
      if token.kind.staysInTag then behind ++ [token] else behind := by
  rw [tagTokens, List.takeWhile_append_of_pos h, List.takeWhile_cons]
  split
  · rfl
  · exact List.append_nil behind

/-- A tag that ended does not go on. -/
theorem tagTokens_append (h : ∃ token ∈ behind, token.kind.staysInTag = false)
    (ahead : List Token) : tagTokens (behind ++ ahead) = tagTokens behind := by
  obtain ⟨last, mem, ended⟩ := h
  rw [tagTokens, List.takeWhile_append, if_neg, tagTokens]
  intro whole
  have stays := List.takeWhile_eq_self_iff.1 ((List.takeWhile_prefix _).eq_of_length whole) last mem
  rw [ended] at stays
  cases stays

end TagTokens

namespace Scanner

/-- Whether a state is inside a tag in which there may be attributes. -/
def State.withinTag : State → Bool
  | .startTagName | .instructionTarget | .tag | .assign | .attributeValue => true
  | _ => false

namespace Config

variable {config next : Config} {kind : TokenKind} {taken : Text} {passed : List Token}
  {token : Token}

private theorem withinTag_leaveTag (sound : config.Sound) :
    config.leaveTag.state.withinTag = false := by
  rcases sound.state_leaveTag with eq | eq <;> rw [eq] <;> rfl

private theorem withinTag_leaveMarkup (sound : config.Sound) :
    config.leaveMarkup.state.withinTag = false := by
  rw [leaveMarkup, moveTo]
  rcases sound.markupReturn with eq | eq <;> rw [eq] <;> rfl

/-- A tag goes on behind a token that may stand in it, and ends at any other. -/
theorem Emits.withinTag_eq (emits : config.Emits kind taken next) (sound : config.Sound)
    (within : config.state.withinTag = true) : next.state.withinTag = kind.staysInTag := by
  cases emits with
  | space | tagSpace | tagUnknown => exact within
  | startTag | startTagUnknown | attributeName | assign | attributeValue | prologTarget => rfl
  | instructionTarget => rfl
  | prologClose | emptyTagClose | startTagClose => exact withinTag_leaveTag sound
  | commentOpen eq | instructionOpen eq =>
    rcases eq with eq | eq <;> rw [eq] at within <;> cases within
  | doctypeClose eq =>
    rcases eq with ⟨slot, eq⟩ | eq <;> rw [eq] at within <;> cases within
  | declClose isDecl =>
    revert isDecl within
    cases config.state <;> simp [State.isDecl, State.withinTag]
  | unrecognized takes =>
    revert takes within
    cases config.state <;> simp [State.takesUnrecognized, State.withinTag]
  | content eq | cdataOpen eq | doctypeOpen eq | endTagOpen eq | startTagOpen eq | endTag eq
  | endTagNameUnknown eq | endTagClose eq | endTagUnknown eq | comment eq | commentClose eq
  | cdata eq | cdataClose eq | instructionData eq | instructionClose eq | subsetOpen eq
  | doctypePart eq | subsetClose eq | elementDeclOpen eq | attlistOpen eq | entityOpen eq
  | elementPart eq | attlistPart eq | entityPart eq =>
    rw [eq] at within
    cases within

/-- A tag is entered at the delimiter that opens it. -/
theorem Emits.opensTag_of_withinTag (emits : config.Emits kind taken next) (sound : config.Sound)
    (outside : config.state.withinTag = false) (within : next.state.withinTag = true) :
    kind.opensTag = true := by
  cases emits with
  | startTagOpen | instructionOpen => rfl
  | space | content | endTagUnknown | comment | cdata | instructionData | unrecognized =>
    rw [outside] at within
    cases within
  | tagSpace eq => rcases eq with eq | eq <;> rw [eq] at outside <;> cases outside
  | startTag eq | startTagUnknown eq | attributeName eq | tagUnknown eq | assign eq
  | attributeValue eq | prologTarget eq =>
    rw [eq] at outside
    cases outside
  | prologClose | emptyTagClose | startTagClose =>
    rw [withinTag_leaveTag sound] at within
    cases within
  | commentClose | instructionClose =>
    rw [withinTag_leaveMarkup sound] at within
    cases within
  | _ => cases within

/-- Names and values of attributes are read inside a tag only. -/
theorem Emits.withinTag_of_attribute (emits : config.Emits kind taken next)
    (h : kind = .attributeName ∨ kind = .attributeValue) : config.state.withinTag = true := by
  rcases h with rfl | rfl
  · rw [emits.state_eq rfl]
    rfl
  · rw [emits.state_eq rfl]
    rfl

/-- A change of state without a token may leave a tag, but not enter one. -/
theorem Rescans.withinTag (rescans : config.Rescans next) (sound : config.Sound)
    (within : next.state.withinTag = true) : config.state.withinTag = true := by
  cases rescans with
  | noStartTagName eq | noAssign eq | noAttributeValue eq => rw [eq]; rfl
  | tagLeft =>
    rw [withinTag_leaveTag sound] at within
    cases within
  | _ => cases within

/-! ### White space in front of attributes -/

/-- What is known of the white space in a tag behind some tokens: in front of the name of the tag it
does not count, and where it was seen it came behind the name and behind the last attribute. -/
structure Spaced (passed : List Token) (config : Config) : Prop where
  beforeName : config.state = .startTagName → config.spaceSeen = false
  behind : config.spaceSeen = true → ∀ before word between, passed = before ++ word :: between →
    word.kind.isTagWord = true → ∃ space ∈ between, space.kind = .whitespace

theorem initial_spaced (mode : Mode) : (initial mode).Spaced [] where
  beforeName _ := rfl
  behind spaceSeen := by cases spaceSeen

theorem Spaced.rescans (h : config.Spaced passed) (rescans : config.Rescans next)
    (sound : config.Sound) : next.Spaced passed where
  beforeName state := by
    cases rescans with
    | tagLeft => rcases sound.state_leaveTag with eq | eq <;> rw [eq] at state <;> cases state
    | _ => cases state
  behind spaceSeen := by
    cases rescans with
    | noAttributeValue => cases spaceSeen
    | _ => exact h.behind spaceSeen

/-- White space counts from the token on at which it is seen, up to the next word of a tag. -/
private theorem Emits.spaceSeen_cases (emits : config.Emits kind taken next)
    (beforeName : config.state = .startTagName → config.spaceSeen = false)
    (spaceSeen : next.spaceSeen = true) :
    kind = .whitespace ∨ config.spaceSeen = true ∧ kind.isTagWord = false := by
  cases emits with
  | space | tagSpace => exact .inl rfl
  | startTag eq =>
    have unseen : config.spaceSeen = true := spaceSeen
    rw [beforeName eq] at unseen
    cases unseen
  | startTagOpen | attributeName | attributeValue | prologTarget => cases spaceSeen
  | doctypePart _ fills | elementPart _ fills | attlistPart _ fills | entityPart _ fills =>
    cases fills <;> exact .inr ⟨spaceSeen, rfl⟩
  | _ => exact .inr ⟨spaceSeen, rfl⟩

/-- White space in front of the name of a tag does not count. -/
private theorem Emits.spaceSeen_eq_false (emits : config.Emits kind taken next)
    (sound : config.Sound) (beforeName : config.state = .startTagName → config.spaceSeen = false)
    (state : next.state = .startTagName) : next.spaceSeen = false := by
  rcases emits.cases_of_nameState sound .opening state with ⟨rfl, -⟩ | ⟨before, rfl⟩
  · cases emits with
    | startTagOpen => rfl
    | doctypePart _ fills | elementPart _ fills | attlistPart _ fills | entityPart _ fills =>
      cases fills
  · cases emits with
    | space => exact beforeName before
    | tagSpace eq => rcases eq with eq | eq <;> cases before.symm.trans eq
    | doctypePart _ fills | elementPart _ fills | attlistPart _ fills | entityPart _ fills =>
      cases fills

theorem Spaced.emits (h : config.Spaced passed) (sound : config.Sound)
    (emits : config.Emits token.kind token.text next) : next.Spaced (passed ++ [token]) where
  beforeName state := emits.spaceSeen_eq_false sound h.beforeName state
  behind spaceSeen before word between split isWord := by
    rcases List.eq_nil_or_concat between with rfl | ⟨between, last, rfl⟩
    · obtain ⟨rfl, isLast⟩ := List.append_inj' split rfl
      rw [← List.singleton_inj.1 isLast] at isWord
      rcases emits.spaceSeen_cases h.beforeName spaceSeen with kind | ⟨-, notWord⟩
      · rw [kind] at isWord
        cases isWord
      · rw [notWord] at isWord
        cases isWord
    · rw [List.concat_eq_append, ← List.cons_append, ← List.append_assoc] at split
      obtain ⟨rfl, isLast⟩ := List.append_inj' split rfl
      obtain rfl := List.singleton_inj.1 isLast
      rcases emits.spaceSeen_cases h.beforeName spaceSeen with kind | ⟨seen, -⟩
      · exact ⟨token, by simp, kind⟩
      · obtain ⟨space, mem, isSpace⟩ := h.behind seen before word between rfl isWord
        exact ⟨space, by simp [mem], isSpace⟩

end Config

end Scanner

end TolerantXml
