import TolerantXml.Tree.Parse

/-!
# What a builder remembers

Besides the current node a builder remembers the place of an attribute that waits for a value, the
end tag that was opened last, and the element that a tag closed last. No move between nodes changes
any of these, and a token changes at most one (`takes_apply_memory`): it remembers the current node
or itself, or it forgets the place of an attribute.
-/

namespace TolerantXml.Builder

/-- What a builder remembers besides the current node. -/
structure Memory where
  pending : Option (Nat × Nat)
  endTagOpen : Option Nat
  lastClosed : Option Nat

/-- What a builder remembers besides the current node. -/
def memory (b : Builder) : Memory := ⟨b.pending, b.endTagOpen, b.lastClosed⟩

/-- What a token of a kind makes of what is remembered while some node is the current one. -/
inductive Memory.Takes (token : Token) (current : Nat) (before : Memory) : Memory → Prop where
  | same (notOpening : token.kind ≠ .endTagOpen) : Takes token current before before
  | name (index : Nat) (isName : token.kind = .attributeName) :
      Takes token current before { before with pending := some (current, index) }
  | value (isValue : token.kind = .attributeValue) :
      Takes token current before { before with pending := none }
  | opening (isOpening : token.kind = .endTagOpen) :
      Takes token current before { before with endTagOpen := some token.start }
  | closing (isClosing : token.kind = .emptyTagClose ∨ token.kind = .endTagClose) :
      Takes token current before { before with lastClosed := some current }

namespace Memory.Takes

variable {token : Token} {current : Nat} {before after : Memory}

theorem endTagOpen_eq (takes : before.Takes token current after) :
    after.endTagOpen =
      if token.kind = .endTagOpen then some token.start else before.endTagOpen := by
  cases takes with
  | same notOpening => rw [if_neg notOpening]
  | name _ isName => rw [isName]; rfl
  | value isValue => rw [isValue]; rfl
  | opening isOpening => rw [if_pos isOpening]
  | closing isClosing => rcases isClosing with isClosing | isClosing <;> rw [isClosing] <;> rfl

/-- An attribute that waits for a value did so before, or it is one of the current node. -/
theorem pending_cases (takes : before.Takes token current after) {owner index : Nat}
    (pending : after.pending = some (owner, index)) :
    before.pending = some (owner, index) ∨ owner = current := by
  cases takes with
  | same | opening | closing => exact .inl pending
  | name => exact .inr (congrArg Prod.fst (Option.some.inj pending)).symm
  | value => cases pending

/-- The element that was closed last was the same before, or it is the current node. -/
theorem lastClosed_cases (takes : before.Takes token current after) {id : Nat}
    (lastClosed : after.lastClosed = some id) :
    before.lastClosed = some id ∨ id = current := by
  cases takes with
  | same | name | value | opening => exact .inl lastClosed
  | closing => exact .inr (Option.some.inj lastClosed).symm

end Memory.Takes

/-! ### Moves between nodes -/

theorem memory_setStop (b : Builder) (stop id : Nat) : (b.setStop stop id).memory = b.memory := by
  unfold setStop
  split
  · rfl
  · rfl

theorem memory_setCurrentStop (b : Builder) (stop : Nat) :
    (b.setCurrentStop stop).memory = b.memory :=
  memory_setStop b stop b.current

private theorem memory_foldl_setStop (stopOf : Builder → Nat → Nat) (ids : List Nat) (b : Builder) :
    (ids.foldl (fun c id ↦ c.setStop (stopOf c id) id) b).memory = b.memory := by
  induction ids generalizing b with
  | nil => rfl
  | cons id ids ih => rw [List.foldl_cons, ih, memory_setStop]

theorem memory_close (b : Builder) (stop : Nat) : (b.close stop).memory = b.memory := by
  unfold close
  split
  · rfl
  · rfl

theorem memory_closeIf (b : Builder) (p : NodeKind → Bool) (stop : Nat) :
    (b.closeIf p stop).memory = b.memory := by
  unfold closeIf
  split
  · exact memory_close b stop
  · rfl

theorem memory_leaveDeclaration (b : Builder) (offset : Nat) :
    (b.leaveDeclaration offset).memory = b.memory := by
  unfold leaveDeclaration
  split
  · split
    · exact memory_setCurrentStop b _
    · rfl
  · rfl

theorem memory_returnToDoctype (b : Builder) (offset : Nat) :
    (b.returnToDoctype offset).memory = b.memory := by
  simp only [returnToDoctype]
  split
  · rfl
  · exact memory_foldl_setStop _ _ b

theorem memory_openDeclaration (b : Builder) (start : Nat) (keyword : Text)
    (kind : Parameter → NodeKind) :
    (b.openDeclaration start keyword kind).memory = b.memory := by
  simp only [openDeclaration]
  split
  · exact memory_returnToDoctype b start
  · exact memory_returnToDoctype b start

theorem memory_nameEndTag (b : Builder) (token : Token) :
    (b.nameEndTag token).memory = b.memory := by
  simp only [nameEndTag]
  split
  · exact memory_foldl_setStop (fun _ _ ↦ b.endTagOpen.getD token.start) _ b
  · exact memory_foldl_setStop (fun _ _ ↦ b.endTagOpen.getD token.start) _ b

theorem pending_setCurrentStop (b : Builder) (stop : Nat) :
    (b.setCurrentStop stop).pending = b.pending :=
  congrArg Memory.pending (memory_setCurrentStop b stop)

theorem lastClosed_setStop (b : Builder) (stop id : Nat) :
    (b.setStop stop id).lastClosed = b.lastClosed :=
  congrArg Memory.lastClosed (memory_setStop b stop id)

theorem lastClosed_foldl_setStop (stopOf : Builder → Nat → Nat) (ids : List Nat) (b : Builder) :
    (ids.foldl (fun c id ↦ c.setStop (stopOf c id) id) b).lastClosed = b.lastClosed :=
  congrArg Memory.lastClosed (memory_foldl_setStop stopOf ids b)

/-! ### Tokens -/

variable {b : Builder} {token : Token}

/-- The end of a tag is remembered if it closed the current element. -/
private theorem takes_closeTag (isClosing : token.kind = .emptyTagClose ∨ token.kind = .endTagClose)
    (change : NodeKind → NodeKind) (stop : Nat) :
    b.memory.Takes token b.current ((b.modifyKind change).closeTag stop).memory := by
  have closed : ((b.modifyKind change).close stop).memory = b.memory := memory_close _ stop
  simp only [closeTag]
  split
  · rw [closed]
    refine .same fun isOpening ↦ ?_
    rw [isOpening] at isClosing
    simp at isClosing
  · rw [← closed]
    exact .closing isClosing

private theorem takes_nameAttribute (isName : token.kind = .attributeName) :
    b.memory.Takes token b.current (b.nameAttribute token).memory := by
  simp only [nameAttribute, memory_setCurrentStop]
  split
  · exact .same (by simp [isName])
  · exact .name _ isName

private theorem takes_setAttributeValue (isValue : token.kind = .attributeValue) :
    b.memory.Takes token b.current (b.setAttributeValue token).memory := by
  simp only [setAttributeValue, memory_setCurrentStop]
  split
  · exact .same (by simp [isValue])
  · exact .value isValue

/-- A token that leaves alone what is remembered. -/
theorem Memory.Takes.of_eq {before after : Memory} (eq : after = before)
    (notOpening : token.kind ≠ .endTagOpen) : before.Takes token b.current after :=
  eq ▸ .same notOpening

/-- Whatever a token is, it changes at most one of the things remembered. -/
theorem takes_apply_memory (b : Builder) (token : Token) :
    b.memory.Takes token b.current (b.apply token).memory := by
  cases kind : token.kind with
  | endTagOpen =>
    simp only [apply, kind, openEndTag, memory_setCurrentStop]
    exact .opening kind
  | emptyTagClose =>
    simp only [apply, kind]
    exact takes_closeTag (.inl kind) _ _
  | endTagClose =>
    simp only [apply, kind]
    exact takes_closeTag (.inr kind) _ _
  | attributeName =>
    simp only [apply, kind]
    exact takes_nameAttribute kind
  | attributeValue =>
    simp only [apply, kind]
    exact takes_setAttributeValue kind
  | startTagOpen =>
    simp only [apply, kind]
    exact .of_eq (memory_setCurrentStop b _) (by simp [kind])
  | startTag =>
    simp only [apply, kind, nameElement]
    split
    · exact .of_eq (memory_setCurrentStop _ _) (by simp [kind])
    · exact .same (by simp [kind])
  | startTagClose =>
    simp only [apply, kind]
    exact .of_eq (memory_setCurrentStop _ _) (by simp [kind])
  | endTag =>
    simp only [apply, kind]
    exact .of_eq (memory_nameEndTag b token) (by simp [kind])
  | content =>
    simp only [apply, kind, addText]
    split
    · exact .same (by simp [kind])
    · exact .same (by simp [kind])
  | commentOpen | instructionOpen =>
    simp only [apply, kind]
    exact .of_eq (memory_leaveDeclaration b _) (by simp [kind])
  | cdata =>
    simp only [apply, kind, setCdata]
    split
    · exact .of_eq (memory_setCurrentStop _ _) (by simp [kind])
    · exact .same (by simp [kind])
  | commentClose | cdataClose | prologClose | instructionClose | declClose =>
    simp only [apply, kind]
    exact .of_eq (memory_closeIf b _ _) (by simp [kind])
  | subsetClose =>
    simp only [apply, kind]
    exact .of_eq (memory_returnToDoctype b _) (by simp [kind])
  | doctypeClose =>
    simp only [apply, kind, closeDoctype, memory_closeIf]
    exact .of_eq (memory_returnToDoctype b _) (by simp [kind])
  | elementDeclOpen | attlistOpen | entityOpen =>
    simp only [apply, kind]
    exact .of_eq (memory_openDeclaration b _ _ _) (by simp [kind])
  | assign | whitespace | unknown | eos =>
    simp only [apply, kind]
    exact .same (by simp [kind])
  | _ =>
    simp only [apply, kind]
    exact .of_eq rfl (by simp [kind])

/-- Only the opening of an end tag is remembered as such. -/
theorem endTagOpen_apply (b : Builder) (token : Token) :
    (b.apply token).endTagOpen =
      if token.kind = .endTagOpen then some token.start else b.endTagOpen :=
  (takes_apply_memory b token).endTagOpen_eq

end TolerantXml.Builder
