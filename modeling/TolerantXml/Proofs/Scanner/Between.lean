import TolerantXml.Proofs.Scanner.InternalSubset

/-!
# Places between constructs

Between constructs, in element content or between declarations, the scanner has not looked ahead:
if the text ahead is replaced by any other that starts with `<`, the tokens in front of that place
stay what they are (`scans_facing`). A state inside a construct is left by a delimiter, so a text
that is read from there to a place between constructs has that delimiter in it
(`State.LeftIn`), and what is read in front of it does not depend on what follows the text
(`alike_opening`).
-/

namespace TolerantXml.Scanner

open Lexeme

/-! ### How states are left -/

/-- Whether a text has in it the delimiter by which a state is left. -/
def State.LeftIn (text : Text) : State → Prop
  | .content | .subset => True
  | .comment => Delimiter.commentClose <:+: text
  | .cdata => Delimiter.cdataClose <:+: text
  | .instructionData => Delimiter.instructionClose <:+: text
  | .doctype _ | .elementDecl _ | .attlistDecl _ | .entityDecl _ => ∃ c ∈ text, isBracket c = true
  | _ => ∃ c ∈ text, c = '<' ∨ c = '>'

namespace State.LeftIn

variable {state : State} {text : Text} {c : Char}

/-- Only between constructs there is nothing to leave. -/
private theorem isBetween_of_nil (left : state.LeftIn []) : state.isBetween = true := by
  cases state with
  | content | subset => rfl
  | comment | cdata | instructionData => cases List.infix_nil.1 left
  | _ =>
    obtain ⟨c, mem, -⟩ := left
    cases mem

private theorem of_isBetween (between : state.isBetween = true) : state.LeftIn text := by
  cases state with
  | content | subset => trivial
  | _ => cases between

theorem append (left : state.LeftIn text) (taken : Text) : state.LeftIn (taken ++ text) := by
  cases state with
  | content | subset => trivial
  | comment | cdata | instructionData => exact left.trans (List.suffix_append taken text).isInfix
  | _ =>
    obtain ⟨c, mem, isMark⟩ := left
    exact ⟨c, List.mem_append_right taken mem, isMark⟩

/-- An angle bracket ends what has no text of its own that ends it. -/
private theorem of_mem (plain : state.closing? = none) (mem : c ∈ text)
    (isAngle : c = '<' ∨ c = '>') : state.LeftIn text := by
  have isBracket : isBracket c = true := by
    rcases isAngle with rfl | rfl <;> rfl
  cases state with
  | content | subset => trivial
  | comment | cdata | instructionData => cases plain
  | doctype | elementDecl | attlistDecl | entityDecl => exact ⟨c, mem, isBracket⟩
  | _ => exact ⟨c, mem, isAngle⟩

private theorem closing (left : state.LeftIn text) {pattern : Text}
    (closing : state.closing? = some pattern) : pattern <:+: text := by
  cases state with
  | comment | cdata | instructionData => cases closing; exact left
  | _ => cases closing

/-- Whatever a construct ends with, it has a bracket in it. -/
private theorem exists_isBracket (left : state.LeftIn text) (inside : state.isBetween = false) :
    ∃ c ∈ text, isBracket c = true := by
  cases state with
  | content | subset => cases inside
  | comment | cdata | instructionData => exact ⟨'>', left.subset (by decide), rfl⟩
  | doctype | elementDecl | attlistDecl | entityDecl => exact left
  | _ =>
    obtain ⟨c, mem, rfl | rfl⟩ := left
    · exact ⟨_, mem, rfl⟩
    · exact ⟨_, mem, rfl⟩

end State.LeftIn

section Transitions

variable {config next : Config} {before rest taken text tail : Text} {kind : TokenKind}

/-- What leads to a state that is left in a text is left in that text, with the token that leads
there in front. -/
private theorem Config.Emits.leftIn (emits : config.Emits kind taken next)
    (left : next.state.LeftIn text) : config.state.LeftIn (taken ++ text) := by
  have closed (pattern : Text) : pattern <:+: pattern ++ text :=
    (List.prefix_append pattern text).isInfix
  -- Either the next state is left by what leaves this one, or the token has such a delimiter in it.
  cases emits with
  | space | tagSpace | content | tagUnknown | endTagUnknown | comment | cdata | instructionData
  | unrecognized => exact left.append taken
  | commentOpen h | instructionOpen h => rcases h with h | h <;> rw [h] <;> trivial
  | cdataOpen h | doctypeOpen h | endTagOpen h | startTagOpen h | subsetClose h | elementDeclOpen h
  | attlistOpen h | entityOpen h => rw [h]; trivial
  | startTag h | startTagUnknown h | attributeName h | assign h | attributeValue h | endTag h
  | endTagNameUnknown h | prologTarget h | doctypePart h | elementPart h | attlistPart h
  | entityPart h =>
    rw [h]
    exact left.append _
  | instructionTarget h =>
    have mem : '>' ∈ text := left.subset (by decide)
    exact .of_mem (by rw [h]; rfl) (List.mem_append_right taken mem) (.inr rfl)
  | commentClose h | cdataClose h | instructionClose h => rw [h]; exact closed _
  | prologClose h | emptyTagClose h | startTagClose h | endTagClose h =>
    exact .of_mem (by rw [h]; rfl) (List.mem_append_left text (by decide)) (.inr rfl)
  | doctypeClose h =>
    have plain : config.state.closing? = none := by
      rcases h with ⟨slot, h⟩ | h <;> rw [h] <;> rfl
    exact .of_mem plain List.mem_cons_self (.inr rfl)
  | subsetOpen h => rw [h]; exact ⟨'[', List.mem_cons_self, rfl⟩
  | declClose h =>
    have plain : config.state.closing? = none := by
      revert h
      cases config.state <;> simp [State.isDecl, State.closing?]
    exact .of_mem plain List.mem_cons_self (.inr rfl)

/-- A construct that is not closed is left in front of a bracket. -/
private theorem exists_bracket_of_rescan (decl : config.state.isDecl)
    (rescans : step config before rest = .rescan next) :
    ∃ c, rest.head? = some c ∧ isBracket c = true := by
  -- No slot of a declaration changes the state without a token.
  have abandons {parts : Step → Step}
      (reads : ∀ kind taken, parts (.emit kind taken config) ≠ .rescan next)
      (rescans : stepDecl config rest parts = .rescan next) :
      ∃ c, rest.head? = some c ∧ isBracket c = true := by
    rw [stepDecl, attempt_eq_rescan, attempt_eq_rescan] at rescans
    obtain ⟨-, -, rescans⟩ := rescans
    split at rescans
    · next h =>
      rw [abandonsDecl, atMarkup, Bool.or_eq_true, Bool.and_eq_true, beq_iff_eq, beq_iff_eq] at h
      rcases h with h | h
      · exact ⟨'<', h, rfl⟩
      · exact ⟨']', h.1, rfl⟩
    · exact absurd rescans (reads _ _)
  cases state : config.state with
  | elementDecl slot =>
    simp only [step, state] at rescans
    refine abandons (fun _ _ ↦ ?_) rescans
    cases slot <;> simp [stepElementSlot, attempt_eq_rescan]
  | attlistDecl slot =>
    simp only [step, state] at rescans
    refine abandons (fun _ _ ↦ ?_) rescans
    cases slot <;> simp [stepAttlistSlot, attempt_eq_rescan]
  | entityDecl slot =>
    simp only [step, state] at rescans
    refine abandons (fun _ _ ↦ ?_) rescans
    cases slot <;> simp [stepEntitySlot, attempt_eq_rescan]
  | _ =>
    rw [state] at decl
    cases decl

/-- What leads to a state that is left in a text without a token is left in that text. -/
private theorem leftIn_of_rescan (nonempty : text ≠ [])
    (rescans : step config before (text ++ tail) = .rescan next) (left : next.state.LeftIn text) :
    config.state.LeftIn text := by
  have mem {c : Char} (head : (text ++ tail).head? = some c) : c ∈ text := by
    rw [List.head?_append_of_ne_nil _ nonempty] at head
    exact List.mem_of_head? head
  have allowed := rescans_of_step rescans
  cases allowed with
  | noStartTagName h | noAssign h | noAttributeValue h | noEndTagName h =>
    rw [h]
    exact left
  | noTarget h => exact .of_mem (by rw [h]; rfl) (left.subset (by decide)) (.inr rfl)
  | tagLeft h =>
    simp only [step, h, stepTag, attempt_eq_rescan] at rescans
    obtain ⟨-, -, -, -, -, rescans⟩ := rescans
    exact .of_mem (by rw [h]; rfl) (mem (head?_of_atMarkup rescans)) (.inl rfl)
  | endTagLeft h =>
    simp only [step, h, stepEndTag, attempt_eq_rescan] at rescans
    obtain ⟨-, -, rescans⟩ := rescans
    exact .of_mem (by rw [h]; rfl) (mem (head?_of_atMarkup rescans)) (.inl rfl)
  | doctypeLeft h =>
    rcases h with ⟨slot, h⟩ | h
    · simp only [step, h, stepDoctype, attempt_eq_rescan] at rescans
      obtain ⟨-, -, -, rescans⟩ := rescans
      split at rescans
      · next atMarkup =>
        exact .of_mem (by rw [h]; rfl) (mem (beq_iff_eq.1 atMarkup)) (.inl rfl)
      · cases slot <;> simp [stepDoctypeSlot, attempt_eq_rescan] at rescans
    · simp only [step, h, stepAfterSubset, attempt_eq_rescan] at rescans
      obtain ⟨-, -, rescans⟩ := rescans
      exact .of_mem (by rw [h]; rfl) (mem (head?_of_atMarkup rescans)) (.inl rfl)
  | declLeft h =>
    obtain ⟨c, head, isBracket⟩ := exists_bracket_of_rescan h rescans
    have marked : ∃ c ∈ text, Scanner.isBracket c = true := ⟨c, mem head, isBracket⟩
    cases state : config.state with
    | elementDecl | attlistDecl | entityDecl => exact marked
    | _ =>
      rw [state] at h
      cases h

end Transitions

/-! ### Reading up to a place -/

/-- A text from which a state is left goes on with `<` like with anything else, for lexemes that do
not leave it and, unless they lead between constructs, do not take all of it. -/
theorem alike_opening {x : Text} (nonempty : x ≠ []) {current : State} (left : current.LeftIn x)
    (v w : Text) :
    Alike (fun state taken ↦ taken <+: x ∧ (taken = x → state.isBetween = true)) current (x ++ v)
      (x ++ '<' :: w) := by
  have ends {state : State} {taken : Text} (inside : state.isBetween = false)
      (within : taken <+: x ∧ (taken = x → state.isBetween = true)) : taken ≠ x := by
    intro all
    rw [within.2 all] at inside
    cases inside
  constructor
  · exact fun _ ↦ ⟨List.nil_prefix, fun isNil ↦ absurd isNil.symm nonempty⟩
  · rw [List.head?_append_of_ne_nil _ nonempty, List.head?_append_of_ne_nil _ nonempty]
  · intro _ p outside _ within
    rw [run_append_cons outside, run_eq_of_prefix within.1]
  · intro _ p outside _ within
    cases x with
    | nil => exact absurd rfl nonempty
    | cons c x =>
      have inner : run p (x ++ v) <+: x := (List.cons_prefix_cons.1 within.1).2
      have same := run_eq_of_prefix inner
      exact (run_append_cons outside x w).trans same
  · intro _ pattern ⟨free, _⟩ within
    rw [← literal_eq_of_prefix within.1, literal, literal,
      isPrefixOf_append_cons_of_tail nonempty free]
  · intro _ within
    have free : '<' ∉ (Delimiter.doctypeOpen.map Char.toLower).tail := by decide
    have mapped : x.map Char.toLower ≠ [] := List.map_eq_nil_iff.not.2 nonempty
    rw [← literalAnyCase_eq_of_prefix within.1]
    exact literalAnyCase_append (isPrefixOf_append_cons_of_tail mapped free _)
  · intro _ p pattern _ inside free _
    obtain ⟨c, mem, isBracket⟩ := left.exists_isBracket inside
    have absent := not_mem_of_isBracket free isBracket
    rw [delimited_append_of_mem mem absent, delimited_append_of_mem mem absent]
  · intro _ pattern _ closing _
    have found : upTo pattern x ≠ x := by
      obtain ⟨front, rfl, -⟩ := State.exists_of_closing? closing
      exact upTo_ne_of_infix (List.concat_ne_nil _ _) (left.closing closing)
    rw [upTo_append_of_ne found, upTo_append_of_ne found]
  · intro _ inside within
    have same := quoted_eq_of_prefix nonempty within.1
    rw [quoted_append_of_ne (same ▸ ends inside within), same]
  · rintro _ _ rfl _
    obtain ⟨c, mem, isAngle⟩ := left
    have outside : isBareValueChar c = false := by
      rcases isAngle with rfl | rfl <;> rfl
    have stops := run_ne_of_mem mem outside
    rw [bareValue_append_of_ne stops, bareValue_append_of_ne stops]
  · intro _ inside within
    have same := group_eq_of_prefix within.1
    rw [group_append_of_ne (same ▸ ends inside within), same]
  · intro _ inside within
    have same := contentModel_eq_of_prefix within.1
    rw [contentModel_append_of_ne (same ▸ ends inside within), same]

/-- The scanner with another text ahead. -/
def facing (scanner : Scanner) (rest : Text) : Scanner :=
  { scanner with cursor := { scanner.cursor with rest := rest } }

/-- A token does not depend on what stands behind a text from which the state behind the token is
left. -/
private theorem next_facing {scanner : Scanner} {x v : Text} (ahead : scanner.cursor.rest ≠ [])
    (rest : scanner.next.2.cursor.rest = x ++ v) (left : scanner.next.2.config.state.LeftIn x) :
    scanner.cursor.rest = scanner.next.1.text ++ x ++ v ∧
      scanner.config.state.LeftIn (scanner.next.1.text ++ x) ∧
      ∀ w, (scanner.facing (scanner.next.1.text ++ x ++ '<' :: w)).next =
        (scanner.next.1, scanner.next.2.facing (x ++ '<' :: w)) := by
  obtain ⟨kind, taken, next, -, nonempty, ⟨behind, starts⟩, eq⟩ := next_of_rest_ne_nil ahead
  rw [eq] at rest left ⊢
  simp only [Cursor.advance, ← starts, List.drop_left] at rest left
  subst rest
  have source : scanner.cursor.rest = taken ++ x ++ v := by rw [← starts, List.append_assoc]
  have nonempty : taken ++ x ≠ [] := List.append_ne_nil_of_left_ne_nil nonempty x
  -- Where the token takes the whole text, nothing is left to leave.
  have reach : taken <+: taken ++ x ∧ (taken = taken ++ x → next.state.isBetween = true) := by
    refine ⟨List.prefix_append taken x, fun all ↦ ?_⟩
    obtain rfl : x = [] := List.append_right_eq_self.1 all.symm
    exact left.isBetween_of_nil
  have alike (w : Text) {state : State} (left : state.LeftIn (taken ++ x)) :
      Alike _ state scanner.cursor.rest (scanner.facing (taken ++ x ++ '<' :: w)).cursor.rest :=
    source ▸ alike_opening nonempty left v w
  have reads (w : Text) := read_alike_of (fun _ left ↦ alike w left) (fun _ ↦ rfl) ahead
    (fun config next rescans left ↦ leftIn_of_rescan nonempty (source ▸ rescans) left)
    (fun config emits ↦ emits.leftIn left) eq reach
  refine ⟨source, (reads []).1, fun w ↦ ?_⟩
  refine (reads w).2.trans ?_
  simp [facing, Cursor.advance]

private theorem after_add (scanner : Scanner) (m n : Nat) :
    scanner.after (m + n) = (scanner.after m).after n := by
  induction m generalizing scanner with
  | zero => rw [Nat.zero_add, after]
  | succ m ih => rw [Nat.succ_add, after, after, ih]

/-- Reading some tokens from one scanner on leads to another one. -/
structure Scans (scanner : Scanner) (tokens : List Token) (scanner' : Scanner) : Prop where
  tokens_eq : scanner.tokens = tokens ++ scanner'.tokens
  after_eq : scanner.after tokens.length = scanner'

namespace Scans

variable {scanner scanner' scanner'' : Scanner} {tokens tokens' : List Token}

theorem refl (scanner : Scanner) : scanner.Scans [] scanner := ⟨rfl, rfl⟩

theorem cons {token : Token} (ahead : scanner.cursor.rest ≠ [])
    (reads : scanner.next = (token, scanner')) (behind : scanner'.Scans tokens scanner'') :
    scanner.Scans (token :: tokens) scanner'' where
  tokens_eq := by rw [tokens_of_rest_ne_nil ahead, reads, behind.tokens_eq, List.cons_append]
  after_eq := by rw [List.length_cons, after, reads, behind.after_eq]

theorem of_step {config next : Config} {cursor : Cursor} {kind : TokenKind} {taken : Text}
    (ahead : cursor.rest ≠ [])
    (reads : step config cursor.before cursor.rest = .emit kind taken next)
    (behind : Scans ⟨next, cursor.advance taken⟩ tokens scanner') :
    Scans ⟨config, cursor⟩
      (⟨kind, ⟨cursor.offset, cursor.offset + taken.byteSize⟩, taken⟩ :: tokens) scanner' :=
  .cons ahead (read_of_step ahead reads) behind

theorem append (first : scanner.Scans tokens scanner') (second : scanner'.Scans tokens' scanner'') :
    scanner.Scans (tokens ++ tokens') scanner'' where
  tokens_eq := by rw [first.tokens_eq, second.tokens_eq, List.append_assoc]
  after_eq := by rw [List.length_append, after_add, first.after_eq, second.after_eq]

end Scans

/-- Up to a place between constructs, the tokens do not depend on what stands behind that place, if
it starts with `<`. -/
theorem scans_facing {scanner : Scanner} {n : Nat} (within : n < scanner.tokens.length)
    (between : (scanner.after n).config.state.isBetween = true) :
    ∃ x, scanner.cursor.rest = x ++ (scanner.after n).cursor.rest ∧ scanner.config.state.LeftIn x ∧
      ∀ w, (scanner.facing (x ++ '<' :: w)).Scans (scanner.tokens.take n)
        ((scanner.after n).facing ('<' :: w)) := by
  -- What is known of the text comes from its end, where the scanner is between constructs.
  induction n generalizing scanner with
  | zero => exact ⟨[], rfl, .of_isBetween between, fun w ↦ .refl _⟩
  | succ n ih =>
    have ahead : scanner.cursor.rest ≠ [] := by
      intro atEnd
      rw [tokens_of_rest_nil atEnd, List.length_singleton] at within
      omega
    rw [tokens_of_rest_ne_nil ahead, List.length_cons, Nat.add_lt_add_iff_right] at within
    obtain ⟨x, rest, left, scans⟩ := ih within between
    obtain ⟨source, left, reads⟩ := next_facing ahead rest left
    refine ⟨_, source, left, fun w ↦ ?_⟩
    have more : (scanner.facing (scanner.next.1.text ++ x ++ '<' :: w)).cursor.rest ≠ [] :=
      List.append_ne_nil_of_right_ne_nil _ (List.cons_ne_nil _ _)
    rw [tokens_of_rest_ne_nil ahead, List.take_succ_cons]
    exact .cons more (reads w) (scans w)

end TolerantXml.Scanner
