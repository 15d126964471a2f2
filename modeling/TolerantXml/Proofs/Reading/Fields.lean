import TolerantXml.Proofs.Reading.InStep
import TolerantXml.Proofs.Scanner.Lexeme
import TolerantXml.Proofs.Tree.EndTag
import TolerantXml.Proofs.Tree.Fields

/-!
# Declarations are consistent

Only the scanner knows which part of a declaration is next; the builder takes whatever comes. The
slot of the scanner tells what the record of the current node has (`Reading.Recorded`), so every
part goes to a field that is not set, and wherever a record is left it is consistent
(`consistent_parse`).
-/

namespace TolerantXml

namespace Scanner

open Lexeme

variable {config next next' next'' : Config} {kind isPublic isSystem : TokenKind}
  {before rest taken unknown pattern : Text}

/-- Where the keywords that announce identifiers are looked for, one of them is read as it is
written, or none. -/
private theorem announced_of_keywords
    (announcesPublic : isPublic.announces? = some Keyword.publicId)
    (announcesSystem : isSystem.announces? = some Keyword.systemId)
    (reads : (attempt (keyword Keyword.publicId rest) isPublic next'
      (attempt (keyword Keyword.systemId rest) isSystem next''
        (.emit .unrecognized unknown config))) = .emit kind taken next)
    (announces : kind.announces? = some pattern) : taken = pattern := by
  rcases cases_of_attempt_eq reads with ⟨isRead, rfl, rfl, -⟩ | ⟨-, reads⟩
  · rw [keyword_eq_of_ne_nil isRead]
    exact Option.some.inj (announcesPublic.symm.trans announces)
  · rcases cases_of_attempt_eq reads with ⟨isRead, rfl, rfl, -⟩ | ⟨-, reads⟩
    · rw [keyword_eq_of_ne_nil isRead]
      exact Option.some.inj (announcesSystem.symm.trans announces)
    · cases reads
      cases announces

/-- A keyword that announces identifiers is read as it is written. -/
private theorem announced_of_step (reads : step config before rest = .emit kind taken next)
    (pattern : Text) (announces : kind.announces? = some pattern) : taken = pattern := by
  have allowed := emits_of_step reads
  cases kind with
  | doctypePublic | doctypeSystem =>
    cases allowed with
    | doctypePart h fills =>
      cases fills
      simp only [step, h, stepDoctype] at reads
      obtain ⟨-, reads⟩ := eq_nil_of_attempt_eq (by decide) reads
      obtain ⟨-, reads⟩ := eq_nil_of_attempt_eq (by decide) reads
      obtain ⟨-, reads⟩ := eq_nil_of_attempt_eq (by decide) reads
      split at reads
      · cases reads
      · exact announced_of_keywords rfl rfl reads announces
    | elementPart h fills | attlistPart h fills | entityPart h fills => cases fills
  | entityPublic | entitySystem =>
    cases allowed with
    | entityPart h fills =>
      cases fills
      simp only [step, h, stepDecl] at reads
      obtain ⟨-, reads⟩ := eq_nil_of_attempt_eq (by decide) reads
      obtain ⟨-, reads⟩ := eq_nil_of_attempt_eq (by decide) reads
      split at reads
      · cases reads
      · obtain ⟨-, reads⟩ := eq_nil_of_attempt_eq (by decide) reads
        exact announced_of_keywords rfl rfl reads announces
    | doctypePart h fills | elementPart h fills | attlistPart h fills => cases fills
  | _ => cases announces

end Scanner

/-! ### Fields and the tokens that set them -/

/-- The state of the scanner in which a part of a record may come next. -/
def Scanner.State.takesParts : State → Bool
  | .doctype _ | .elementDecl _ | .attlistDecl _ | .entityDecl _ => true
  | _ => false

/-- Whether nodes of a frame have fields. -/
def Frame.isRecord : Frame → Bool
  | .doctype | .elementDecl | .attlistDecl | .entityDecl => true
  | _ => false

/-- What has no fields is consistent. -/
private theorem NodeKind.consistent_of_not_isRecord {kind : NodeKind}
    (other : kind.frame.isRecord = false) : kind.Consistent := by
  have unset : (∀ field, kind.field field = none) ∧ kind.listed = [] ∧ kind.parts = [] := by
    cases kind with
    | doctype | elementDecl | attlistDecl | entityDecl => cases other
    | _ => exact ⟨fun _ ↦ rfl, rfl, rfl⟩
  obtain ⟨fields, listed, parts⟩ := unset
  constructor
  case publicId | systemId | publicSystemId | definition | content =>
    intro isSet
    rw [fields] at isSet
    cases isSet
  case named => exact fun _ ↦ ⟨fields, listed⟩
  case typed | untyped =>
    rw [listed]
    exact List.forall_mem_nil _
  case lists =>
    rw [Lists, parts]
    exact List.forall_mem_nil _

/-- A token sets a field of a node. -/
structure Assignment where
  node : Nat
  field : Field
  parameter : Parameter
  deriving DecidableEq, Repr

namespace Builder

variable {b : Builder} {token : Token} {id : Nat} {field : Field}

/-- The field that a token sets of the current node. -/
def assignment? (b : Builder) (token : Token) : Option Assignment :=
  (token.kind.field? b.currentNode.kind.listed.length).map fun field ↦
    ⟨b.current, field, token.parameter⟩

/-- A token sets the field that it is for, of the current node, and leaves the others as they
are. -/
def Writes (b : Builder) (token : Token) : Prop :=
  ∀ id field, ((b.apply token).doc.node id).kind.field field =
    if b.assignment? token = some ⟨id, field, token.parameter⟩ then some token.parameter
    else (b.doc.node id).kind.field field

/-- The fields that tokens set, one after the other. -/
def assignments (b : Builder) (tokens : List Token) : List Assignment :=
  b.collect assignment? tokens

theorem assignment?_eq_some_iff : b.assignment? token = some ⟨id, field, token.parameter⟩ ↔
    id = b.current ∧ token.kind.field? b.currentNode.kind.listed.length = some field := by
  rw [assignment?]
  cases token.kind.field? b.currentNode.kind.listed.length with
  | none => simp
  | some other => simp [eq_comm]

private theorem isPart_of_field? {listed : Nat} (isField : token.kind.field? listed = some field) :
    token.kind.isPart = true := by
  cases kind : token.kind with
  | doctypeName | doctypePublic | doctypeSystem | doctypePublicId | doctypeSystemId
  | elementDeclName | elementDeclCategory | elementDeclContent | attlistElement | attlistName
  | attlistType | attlistDefault | entityPercent | entityName | entityValue | entityPublic
  | entitySystem | entityPublicId | entitySystemId => rfl
  | _ =>
    rw [kind] at isField
    cases isField

/-- A part is written into the current node. -/
private theorem subject_of_isPart (isPart : token.kind.isPart = true) :
    b.subject token = b.current := by
  rw [subject]
  cases kind : token.kind with
  | endTag | subsetClose | attributeValue =>
    rw [kind] at isPart
    cases isPart
  | _ => rfl

private theorem current_apply_of_isPart (isPart : token.kind.isPart = true) :
    (b.apply token).current = b.current := by
  rw [apply]
  cases kind : token.kind with
  | doctypeName | doctypePublic | doctypeSystem | doctypePublicId | doctypeSystemId
  | elementDeclName | elementDeclCategory | elementDeclContent | attlistElement | attlistName
  | attlistType | attlistDefault | entityPercent | entityName | entityValue | entityPublic
  | entitySystem | entityPublicId | entitySystemId => rfl
  | _ => simp [kind, TokenKind.isPart] at isPart

/-- A node that is added has no field set. -/
private theorem field_added (b : Builder) (token : Token) (field : Field) :
    (b.added token).field field = none := by
  unfold added
  split
  all_goals cases field <;> rfl

private theorem lists_added (b : Builder) (token : Token) : (b.added token).Lists := by
  unfold added
  split
  all_goals exact List.forall_mem_nil _

end Builder

namespace Scanner.Config

variable {config next : Config} {b : Builder} {kind : TokenKind} {taken : Text} {span : Span}

private theorem Emits.takesParts_of_isPart (emits : config.Emits kind taken next)
    (isPart : kind.isPart = true) : config.state.takesParts = true := by
  cases emits with
  | doctypePart h | elementPart h | attlistPart h | entityPart h => rw [h]; rfl
  | _ => cases isPart

/-- A record that is added has its first slot next. -/
private theorem Emits.holds_added (emits : config.Emits kind taken next)
    (isRecord : (b.added ⟨kind, span, taken⟩).frame.isRecord = true) :
    next.state.Holds (b.added ⟨kind, span, taken⟩) := by
  have nothing : ExternalId.Has {} none false false := ⟨rfl, rfl, rfl⟩
  have doctype : DoctypeSlot.Holds {} .name := ⟨rfl, nothing⟩
  have element (keyword : Parameter) : ElementSlot.Holds { keyword } .name := ⟨rfl, rfl, rfl⟩
  have attlist (keyword : Parameter) : AttlistSlot.Holds { keyword } .element := ⟨rfl, rfl⟩
  have entity (keyword : Parameter) : EntitySlot.Holds { keyword } .name := ⟨rfl, rfl, nothing⟩
  cases emits with
  | doctypeOpen => exact .doctype doctype
  | elementDeclOpen => exact .elementDecl (element _)
  | attlistOpen => exact .attlistDecl (attlist _)
  | entityOpen => exact .entityDecl (entity _)
  | doctypePart _ fills | elementPart _ fills | attlistPart _ fills | entityPart _ fills =>
    cases fills <;> cases isRecord
  | _ => cases isRecord

/-- A part comes next behind a part, behind what changes nothing, and where a record is added. -/
private theorem Emits.cases_of_takesParts (sound : config.Sound)
    (emits : config.Emits kind taken next) (takesParts : next.state.takesParts = true) :
    kind.isPart = true ∨ (kind = .whitespace ∨ kind = .unrecognized) ∧ next = config ∨
      (b.added ⟨kind, span, taken⟩).frame.isRecord = true := by
  cases emits with
  | space => exact .inr (.inl ⟨.inl rfl, rfl⟩)
  | unrecognized => exact .inr (.inl ⟨.inr rfl, rfl⟩)
  | doctypeOpen | elementDeclOpen | attlistOpen | entityOpen => exact .inr (.inr rfl)
  | doctypePart _ fills | elementPart _ fills | attlistPart _ fills | entityPart _ fills =>
    left
    cases fills <;> rfl
  | tagSpace eq =>
    rcases eq with eq | eq <;> simp [eq, State.takesParts] at takesParts
  | content eq | tagUnknown eq | endTagUnknown eq | comment eq | cdata eq
  | instructionData eq => simp [eq, State.takesParts] at takesParts
  | commentClose | instructionClose =>
    rcases sound.markupReturn with eq | eq <;>
      simp [leaveMarkup, moveTo, eq, State.takesParts] at takesParts
  | prologClose | emptyTagClose | startTagClose =>
    rcases sound.state_leaveTag with eq | eq <;> simp [eq, State.takesParts] at takesParts
  | _ => cases takesParts

/-- A record that is added becomes the current node. -/
private theorem Fits.current_of_added (fits : config.Fits b.spine) (linked : b.Linked)
    (emits : config.Emits kind taken next)
    (isRecord : (b.added ⟨kind, span, taken⟩).frame.isRecord = true) :
    (b.apply ⟨kind, span, taken⟩).current = b.doc.count ∧
      b.doc.count < (b.apply ⟨kind, span, taken⟩).doc.count := by
  have opened {declares : Parameter → NodeKind} (start : Nat) (keyword : Text)
      (subset : config.state = .subset) :
      (b.openDeclaration start keyword declares).current = b.doc.count ∧
        b.doc.count < (b.openDeclaration start keyword declares).doc.count := by
    have count := (Builder.returned_returnToDoctype b start).doc.count_eq
    have isDoctype : (b.returnToDoctype start).currentNode.kind.isDoctype = true := by
      rw [NodeKind.isDoctype_eq, frame_of_inside (fits.inside_returnToDoctype linked subset start)]
      rfl
    rw [Builder.openDeclaration, if_pos isDoctype, Builder.openToEnd, Builder.openNode, count]
    refine ⟨rfl, ?_⟩
    rw [Document.count_addChild, count]
    exact Nat.lt_succ_self _
  cases emits with
  | doctypeOpen =>
    refine ⟨rfl, ?_⟩
    change _ < (b.doc.addChild _ _).count
    rw [Document.count_addChild]
    exact Nat.lt_succ_self _
  | elementDeclOpen h => exact opened _ _ h
  | attlistOpen h => exact opened _ _ h
  | entityOpen h => exact opened _ _ h
  | doctypePart _ fills | elementPart _ fills | attlistPart _ fills | entityPart _ fills =>
    cases fills <;> cases isRecord
  | _ => cases isRecord

end Scanner.Config

/-! ### Readings -/

namespace Reading

variable {text uri : Text} {mode : Mode} {passed : List Token} {r : Reading} {token : Token}
  {next : Scanner.Config} {id : Nat}

/-- What holds of the records of a builder behind some tokens. -/
structure Recorded (text uri : Text) (mode : Mode) (passed : List Token) (r : Reading) : Prop where
  inStep : r.InStep
  builder_eq : r.builder = (Builder.start text uri mode).applyAll passed
  records : ∀ id < r.builder.doc.count, (r.builder.doc.frame id).isRecord = true →
    ∃ state : Scanner.State, state.Holds (r.builder.doc.node id).kind
  current : r.scanner.config.state.takesParts = true →
    r.scanner.config.state.Holds r.builder.currentNode.kind
  lists : ∀ id, (r.builder.doc.node id).kind.Lists
  writes : ∀ before token, before ++ [token] <+: passed →
    ((Builder.start text uri mode).applyAll before).Writes token
  unique : (((Builder.start text uri mode).assignments passed).map fun a ↦ (a.node, a.field)).Nodup
  fields : ∀ id field parameter, (r.builder.doc.node id).kind.field field = some parameter ↔
    ⟨id, field, parameter⟩ ∈ (Builder.start text uri mode).assignments passed

private theorem start_recorded (text uri : Text) (mode : Mode) :
    Recorded text uri mode [] (start text uri mode) where
  inStep := start_inStep text uri mode
  builder_eq := rfl
  records id _ isRecord := by
    rw [start, Document.frame] at isRecord
    rw [start]
    rcases Builder.kind_start text uri mode id with isRoot | ⟨-, -, isDoctype⟩
    · rw [isRoot] at isRecord
      cases isRecord
    · have doctype : DoctypeSlot.Holds {} .name := ⟨rfl, rfl, rfl, rfl⟩
      rw [isDoctype]
      exact ⟨_, .doctype doctype⟩
  current takesParts := by
    cases mode <;> cases takesParts
  lists id := by
    rw [start]
    rcases Builder.kind_start text uri mode id with isRoot | ⟨-, -, isDoctype⟩
    · rw [isRoot]
      exact List.forall_mem_nil _
    · rw [isDoctype]
      exact List.forall_mem_nil _
  writes before token isAhead := by
    have isNil := List.prefix_nil.1 isAhead
    simp at isNil
  unique := .nil
  fields id field parameter := by
    have unset : ((start text uri mode).builder.doc.node id).kind.field field = none := by
      rw [start]
      rcases Builder.kind_start text uri mode id with isRoot | ⟨-, -, isDoctype⟩
      · rw [isRoot]
        cases field <;> rfl
      · rw [isDoctype]
        cases field <;> rfl
    rw [unset]
    exact iff_of_false (fun isSome ↦ by cases isSome) List.not_mem_nil

namespace Recorded

private theorem rescans (h : Recorded text uri mode passed r)
    (rescans : r.scanner.config.Rescans next) :
    Recorded text uri mode passed ⟨⟨next, r.scanner.cursor⟩, r.builder⟩ :=
  { h with
    inStep := h.inStep.rescans rescans
    current takesParts := by
      have other : next.state.takesParts = false := by
        cases rescans with
        | tagLeft => rcases h.inStep.sound.state_leaveTag with eq | eq <;> rw [eq] <;> rfl
        | _ => rfl
      rw [other] at takesParts
      cases takesParts }

private theorem writes_apply (h : Recorded text uri mode passed r)
    (emits : r.scanner.config.Emits token.kind token.text next) : r.builder.Writes token := by
  intro id field
  have linked := h.inStep.linked
  have records := Builder.records_apply linked token
  simp only [Builder.assignment?_eq_some_iff]
  rcases Nat.lt_or_ge id r.builder.doc.count with old | new
  · rw [records.old id old]
    by_cases isPart : token.kind.isPart = true
    · rw [Builder.subject_of_isPart isPart]
      by_cases isCurrent : id = r.builder.current
      · rw [if_pos isCurrent, isCurrent]
        have holds := h.current (emits.takesParts_of_isPart isPart)
        simp only [true_and]
        exact emits.field_rewrite isPart holds field
      · rw [if_neg isCurrent, if_neg fun both ↦ isCurrent both.1]
    · have notField : ¬ (id = r.builder.current ∧
          token.kind.field? r.builder.currentNode.kind.listed.length = some field) :=
        fun both ↦ isPart (Builder.isPart_of_field? both.2)
      rw [Bool.not_eq_true] at isPart
      rw [if_neg notField]
      split
      · exact Builder.field_rewrite_of_not_isPart _ isPart _ field
      · rfl
  · have notCurrent : id ≠ r.builder.current := by
      have lt := linked.current_lt
      omega
    have unset : NodeKind.field (default : Node).kind field = none := by cases field <;> rfl
    rw [if_neg fun both ↦ notCurrent both.1, Document.node_of_count_le new, unset]
    rcases Nat.lt_or_ge id (r.builder.apply token).doc.count with lt | ge
    · rw [records.new id new lt]
      exact Builder.field_added _ _ field
    · rw [Document.node_of_count_le ge, unset]

/-- A token sets a field that was not set. -/
private theorem field_eq_none (h : Recorded text uri mode passed r)
    (emits : r.scanner.config.Emits token.kind token.text next) {field : Field}
    (isField : token.kind.field? r.builder.currentNode.kind.listed.length = some field) :
    r.builder.currentNode.kind.field field = none := by
  have isPart := Builder.isPart_of_field? isField
  exact emits.field_eq_none isPart (h.current (emits.takesParts_of_isPart isPart)) isField

theorem assignments_concat (h : Recorded text uri mode passed r) (token : Token) :
    (Builder.start text uri mode).assignments (passed ++ [token]) =
      (Builder.start text uri mode).assignments passed ++
        (r.builder.assignment? token).toList := by
  rw [Builder.assignments, Builder.collect_concat, h.builder_eq]
  rfl

/-- Wherever a part comes next behind a token, the current node has what the slot tells. -/
private theorem holds_apply (h : Recorded text uri mode passed r)
    (emits : r.scanner.config.Emits token.kind token.text next)
    (announced : ∀ keyword, token.kind.announces? = some keyword → token.text = keyword)
    (takesParts : next.state.takesParts = true) :
    next.state.Holds (r.builder.apply token).currentNode.kind := by
  have linked := h.inStep.linked
  have records := Builder.records_apply linked token
  have rewritten (same : (r.builder.apply token).current = r.builder.current)
      (isSubject : r.builder.subject token = r.builder.current) :
      (r.builder.apply token).currentNode.kind =
        r.builder.rewrite token r.builder.currentNode.kind := by
    rw [Builder.currentNode, same, records.old _ linked.current_lt, if_pos isSubject.symm]
    rfl
  have cases : token.kind.isPart = true ∨
      (token.kind = .whitespace ∨ token.kind = .unrecognized) ∧ next = r.scanner.config ∨
        (r.builder.added token).frame.isRecord = true :=
    emits.cases_of_takesParts h.inStep.sound takesParts
  rcases cases with isPart | ⟨isKind, rfl⟩ | isRecord
  · rw [rewritten (Builder.current_apply_of_isPart isPart) (Builder.subject_of_isPart isPart)]
    exact emits.holds_rewrite isPart announced (h.current (emits.takesParts_of_isPart isPart))
  · have notPart : token.kind.isPart = false := by
      rcases isKind with isKind | isKind <;> rw [isKind] <;> rfl
    rw [rewritten]
    · exact (h.current takesParts).rewrite_of_not_isPart r.builder notPart
    · rcases isKind with isKind | isKind
      · simp only [Builder.apply, isKind]
      · simp only [Builder.apply, isKind]
        rfl
    · rcases isKind with isKind | isKind <;> simp only [Builder.subject, isKind]
  · have opened : (r.builder.apply token).current = r.builder.doc.count ∧
        r.builder.doc.count < (r.builder.apply token).doc.count :=
      h.inStep.fits.current_of_added linked emits isRecord
    rw [Builder.currentNode, opened.1, records.new _ (Nat.le_refl _) opened.2]
    exact emits.holds_added isRecord

/-- Behind a token every record is one that was read up to some slot. -/
private theorem records_apply (h : Recorded text uri mode passed r)
    (emits : r.scanner.config.Emits token.kind token.text next)
    (announced : ∀ keyword, token.kind.announces? = some keyword → token.text = keyword)
    (lt : id < (r.builder.apply token).doc.count)
    (isRecord : ((r.builder.apply token).doc.node id).kind.frame.isRecord = true) :
    ∃ state : Scanner.State, state.Holds ((r.builder.apply token).doc.node id).kind := by
  have records := Builder.records_apply h.inStep.linked token
  rcases Nat.lt_or_ge id r.builder.doc.count with old | new
  · rw [records.old id old] at isRecord ⊢
    split at isRecord
    · next isSubject =>
      rw [Builder.frame_rewrite] at isRecord
      rw [if_pos isSubject]
      by_cases isPart : token.kind.isPart = true
      · have holds := h.current (emits.takesParts_of_isPart isPart)
        rw [Builder.subject_of_isPart isPart] at isSubject
        rw [isSubject]
        exact ⟨next.state, emits.holds_rewrite isPart announced holds⟩
      · obtain ⟨state, holds⟩ := h.records id old isRecord
        exact ⟨state, holds.rewrite_of_not_isPart _ (Bool.not_eq_true _ ▸ isPart)⟩
    · next isOther =>
      rw [if_neg isOther]
      exact h.records id old isRecord
  · rw [records.new id new lt] at isRecord ⊢
    exact ⟨next.state, emits.holds_added isRecord⟩

private theorem lists_apply (h : Recorded text uri mode passed r) (token : Token) (id : Nat) :
    ((r.builder.apply token).doc.node id).kind.Lists :=
  Builder.forall_kind_apply h.inStep.linked (fun _ lists ↦ lists)
    (fun _ lists ↦ lists.rewrite r.builder token) (Builder.lists_added _ _)
    (List.forall_mem_nil _) h.lists id

private theorem reads (h : Recorded text uri mode passed r) (emits : r.Emits token next)
    (reads : Scanner.step r.scanner.config r.scanner.cursor.before r.scanner.cursor.rest =
      .emit token.kind token.text next) :
    Recorded text uri mode (passed ++ [token])
      ⟨⟨next, r.scanner.cursor.advance token.text⟩, r.builder.apply token⟩ := by
  have transition := emits.transition
  have announced := Scanner.announced_of_step reads
  -- A field that is set now was not set by a token before.
  have unset {assignment : Assignment} (isNow : r.builder.assignment? token = some assignment)
      (parameter : Parameter) : ⟨assignment.node, assignment.field, parameter⟩ ∉
        (Builder.start text uri mode).assignments passed := by
    obtain ⟨field, isField, rfl⟩ := Option.map_eq_some_iff.1 isNow
    rw [← h.fields]
    intro isSome
    cases (h.field_eq_none transition isField).symm.trans isSome
  constructor
  case inStep => exact h.inStep.emits emits
  case builder_eq => rw [Builder.applyAll_concat, ← h.builder_eq]
  case records => exact fun id lt isRecord ↦ h.records_apply transition announced lt isRecord
  case current => exact h.holds_apply transition announced
  case lists => exact h.lists_apply token
  case writes =>
    intro before other isAhead
    rcases List.prefix_concat_iff.1 isAhead with isNow | isBefore
    · obtain ⟨rfl, ⟨⟩⟩ := List.append_inj' isNow rfl
      rw [← h.builder_eq]
      exact h.writes_apply transition
    · exact h.writes before other isBefore
  case unique =>
    rw [h.assignments_concat, List.map_append, List.nodup_append]
    refine ⟨h.unique, ?_, fun key mem other isNow same ↦ ?_⟩
    · cases r.builder.assignment? token <;> simp
    · obtain ⟨earlier, isEarlier, rfl⟩ := List.mem_map.1 mem
      obtain ⟨assignment, isAssigned, rfl⟩ := List.mem_map.1 isNow
      obtain ⟨sameNode, sameField⟩ := Prod.mk.inj same
      refine unset (Option.mem_toList.1 isAssigned) earlier.parameter ?_
      rw [← sameNode, ← sameField]
      exact isEarlier
  case fields =>
    intro id field parameter
    rw [h.assignments_concat, List.mem_append, Option.mem_toList, ← h.fields]
    have setNow : r.builder.assignment? token = some ⟨id, field, parameter⟩ →
        parameter = token.parameter := by
      intro isNow
      obtain ⟨_, -, eq⟩ := Option.map_eq_some_iff.1 isNow
      exact (congrArg Assignment.parameter eq).symm
    rw [h.writes_apply transition]
    split
    · next isNow =>
      constructor
      · rintro ⟨⟩
        exact .inr isNow
      · rintro (isSet | isSet)
        · exact absurd ((h.fields id field parameter).1 isSet) (unset isNow parameter)
        · rw [setNow isSet]
    · next notNow =>
      refine ⟨.inl, fun isSet ↦ isSet.resolve_right fun isNow ↦ ?_⟩
      rw [setNow isNow] at isNow
      exact notNow isNow

private theorem consistent (h : Recorded text uri mode passed r) (id : Nat) :
    (r.builder.doc.node id).kind.Consistent := by
  rcases Nat.lt_or_ge id r.builder.doc.count with lt | ge
  · by_cases isRecord : (r.builder.doc.frame id).isRecord = true
    · obtain ⟨state, holds⟩ := h.records id lt isRecord
      exact holds.consistent (h.lists id)
    · exact NodeKind.consistent_of_not_isRecord (Bool.not_eq_true _ ▸ isRecord)
  · rw [Document.node_of_count_le ge]
    exact NodeKind.consistent_of_not_isRecord rfl

end Recorded

end Reading

/-- The declarations and document types of a document are consistent. A field is set by one token at
most, and what it is set to is what that token was. -/
theorem consistent_parse (text uri : Text) (mode : Mode) :
    let start := Builder.start text uri mode
    let tokens := Scanner.tokenize text mode
    let doc := Document.parse text uri mode
    (∀ id, (doc.node id).kind.Consistent) ∧
      (∀ before token, before ++ [token] <+: tokens → (start.applyAll before).Writes token) ∧
      ((start.assignments tokens).map fun a ↦ (a.node, a.field)).Nodup ∧
      ∀ id field parameter, (doc.node id).kind.field field = some parameter ↔
        ⟨id, field, parameter⟩ ∈ start.assignments tokens := by
  intro start tokens doc
  obtain ⟨n, passed, last, atEnd, split, recorded⟩ :=
    Reading.exists_atEnd_of_steps (fun _ _ _ h reads ↦ h.rescans (Scanner.rescans_of_step reads))
      (fun _ _ _ _ h ↦ h.reads) (Reading.start_recorded text uri mode)
  rw [List.nil_append] at recorded
  have tokenize : tokens = passed ++ [last] := split
  -- The token at the end of the text is for nothing.
  have isLast : last = Token.atEnd text := by
    have ends : tokens.getLast? = some (Token.atEnd text) :=
      Scanner.getLast?_tokens (Cursor.atStart_standsIn text)
    rw [tokenize, List.getLast?_concat] at ends
    exact Option.some.inj ends
  have assignments : start.assignments tokens = start.assignments passed := by
    rw [tokenize, recorded.assignments_concat, isLast]
    exact List.append_nil _
  have kinds (id : Nat) : (doc.node id).kind =
      (((Reading.start text uri mode).after n).builder.doc.node id).kind := by
    rw [← (Builder.kind_finish _ id).1, ← Reading.parse_eq_finish atEnd]
  refine ⟨fun id ↦ ?_, fun before token isAhead ↦ ?_, ?_, fun id field parameter ↦ ?_⟩
  · rw [kinds]
    exact recorded.consistent id
  · rw [tokenize] at isAhead
    rcases List.prefix_concat_iff.1 isAhead with isNow | isBefore
    · obtain ⟨rfl, ⟨⟩⟩ := List.append_inj' isNow rfl
      rw [isLast]
      exact fun id field ↦ rfl
    · exact recorded.writes before token isBefore
  · rw [assignments]
    exact recorded.unique
  · rw [assignments, kinds]
    exact recorded.fields id field parameter

/-- The second keyword is no part of the declaration any more. -/
example :
    let text : Text := ['<', '!', 'E', 'N', 'T', 'I', 'T', 'Y', ' ', 'e', ' ', 'P', 'U', 'B', 'L',
      'I', 'C', ' ', 'S', 'Y', 'S', 'T', 'E', 'M', ' ', '"', 'p', '"', '>']
    ((Builder.start text [] .dtd).assignments (Scanner.tokenize text .dtd)).map (·.field) =
      [.name, .keyword, .publicId] := by decide +kernel

end TolerantXml
