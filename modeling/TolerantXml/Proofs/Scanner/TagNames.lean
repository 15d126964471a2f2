import TolerantXml.Proofs.Scanner.Partition
import TolerantXml.Proofs.Scanner.Reachable

/-!
# The names of tags

A tag is opened by a delimiter and named by the next token behind it that is not white space
(`TagSide.Names`), so a delimiter has one name (`Names.name_eq`). The state in which the scanner
reads a name is entered at the delimiter, and kept by white space only
(`Emits.cases_of_nameState`).
-/

namespace TolerantXml

/-- The two tags of an element. -/
inductive TagSide where
  | opening
  | closing
  deriving DecidableEq, Repr

namespace TagSide

/-- The kind of the delimiter that opens a tag. -/
def opens : TagSide → TokenKind
  | .opening => .startTagOpen
  | .closing => .endTagOpen

/-- The delimiter that opens a tag. -/
def delimiter : TagSide → Text
  | .opening => ['<']
  | .closing => Delimiter.endTagOpen

/-- The kind of the name of a tag. -/
def names : TagSide → TokenKind
  | .opening => .startTag
  | .closing => .endTag

/-- The state in which the name of a tag is read. -/
def nameState : TagSide → Scanner.State
  | .opening => .startTagName
  | .closing => .endTagName

variable {side : TagSide} {tokens : List Token} {opening name token opening' name' : Token}

/-- Whether the last of some tokens, besides white space, opens a tag. -/
def Awaits (side : TagSide) (tokens : List Token) (opening : Token) : Prop :=
  opening.kind = side.opens ∧ opening.text = side.delimiter ∧
    ∃ before gap, tokens = before ++ opening :: gap ∧ ∀ token ∈ gap, token.kind = .whitespace

/-- Whether two of some tokens open and name a tag, with nothing but white space between them. -/
def Names (side : TagSide) (tokens : List Token) (opening name : Token) : Prop :=
  name.kind = side.names ∧ ∃ before after, tokens = before ++ name :: after ∧
    side.Awaits before opening

theorem awaits_concat (kind : opening.kind = side.opens) (text : opening.text = side.delimiter)
    (tokens : List Token) : side.Awaits (tokens ++ [opening]) opening :=
  ⟨kind, text, tokens, [], rfl, List.forall_mem_nil _⟩

theorem Awaits.concat (h : side.Awaits tokens opening) (kind : token.kind = .whitespace) :
    side.Awaits (tokens ++ [token]) opening := by
  obtain ⟨isOpening, text, before, gap, rfl, isGap⟩ := h
  refine ⟨isOpening, text, before, gap ++ [token], by simp, fun other mem ↦ ?_⟩
  rcases List.mem_append.1 mem with mem | mem
  · exact isGap other mem
  · rw [List.mem_singleton.1 mem, kind]

theorem Awaits.names (h : side.Awaits tokens opening) (kind : name.kind = side.names) :
    side.Names (tokens ++ [name]) opening name :=
  ⟨kind, tokens, [], rfl, h⟩

theorem Names.append (h : side.Names tokens opening name) (ahead : List Token) :
    side.Names (tokens ++ ahead) opening name := by
  obtain ⟨kind, before, after, rfl, awaits⟩ := h
  exact ⟨kind, before, after ++ ahead, by simp, awaits⟩

theorem opens_ne_eos (side : TagSide) : side.opens ≠ .eos := by
  cases side <;> nofun

private theorem names_ne_eos (side : TagSide) : side.names ≠ .eos := by
  cases side <;> nofun

/-- Where the name of a tag stands in a text: behind the delimiter, and up to the end of its own
text. -/
theorem Names.bounds {text : Text} {mode : Mode}
    (h : side.Names (Scanner.tokenize text mode) opening name) :
    opening.stop = opening.start + side.delimiter.byteSize ∧ opening.stop ≤ name.start ∧
      name.stop = name.start + name.text.byteSize ∧ name.stop ≤ text.byteSize := by
  obtain ⟨kind, before, after, split, openingKind, openingText, first, gap, rfl, -⟩ := h
  have stands := Cursor.atStart_standsIn text
  have ordered := Scanner.pairwise_tokens (Scanner.start text mode)
  rw [Scanner.tokenize] at split
  have openingMem : opening ∈ (Scanner.start text mode).tokens := by simp [split]
  have nameMem : name ∈ (Scanner.start text mode).tokens := by simp [split]
  obtain ⟨-, -, -, slice⟩ := Scanner.slice?_of_mem_tokens stands openingMem
    (openingKind ▸ side.opens_ne_eos)
  obtain ⟨-, -, -, slice'⟩ := Scanner.slice?_of_mem_tokens stands nameMem
    (kind ▸ side.names_ne_eos)
  obtain ⟨-, -, -, -, stop⟩ := Text.slice?_eq_some_iff.1 slice
  obtain ⟨ahead, behind, isText, start, stop'⟩ := Text.slice?_eq_some_iff.1 slice'
  refine ⟨?_, ?_, stop'.symm, ?_⟩
  · rw [← stop, openingText]
  · rw [split, List.append_assoc, List.cons_append] at ordered
    have later := (List.pairwise_cons.1 (List.pairwise_append.1 ordered).2.1).1
    exact later name (by simp)
  · rw [isText, Text.byteSize_append, Text.byteSize_append, start, stop']
    exact Nat.le_add_right _ _

/-- What is awaited behind a delimiter is the first token that is not white space. -/
private theorem find?_behind {gap after : List Token}
    (isGap : ∀ token ∈ gap, token.kind = .whitespace) (kind : name.kind = side.names) :
    (gap ++ name :: after).find? (fun token ↦ token.kind ≠ .whitespace) = some name := by
  have notSpace : name.kind ≠ .whitespace := by
    rw [kind]
    cases side <;> nofun
  have nothing : gap.find? (fun token ↦ token.kind ≠ .whitespace) = none := by
    rw [List.find?_eq_none]
    exact fun token mem ↦ by simp [isGap token mem]
  rw [List.find?_append, nothing, Option.none_or, List.find?_cons_of_pos (by simpa using notSpace)]

/-- Tokens that start at one place are the same, with the same tokens behind them. -/
private theorem behind_eq {first first' rest rest' : List Token}
    (split : tokens = first ++ opening :: rest) (split' : tokens = first' ++ opening' :: rest')
    (ordered : tokens.Pairwise fun first second ↦ first.stop ≤ second.start)
    (nonempty : opening.start < opening.stop) (nonempty' : opening'.start < opening'.stop)
    (same : opening.start = opening'.start) : rest = rest' := by
  -- If one came before the other, it would end before the other starts.
  have notBefore : ∀ {first more rest : List Token} {opening opening' : Token},
      tokens = first ++ opening :: (more ++ opening' :: rest) → opening.stop ≤ opening'.start := by
    intro first more rest opening opening' split
    rw [split] at ordered
    exact (List.pairwise_cons.1 (List.pairwise_append.1 ordered).2.1).1 opening' (by simp)
  rcases List.append_eq_append_iff.1 (split.symm.trans split') with
    ⟨more, eq, behind⟩ | ⟨more, eq, behind⟩
  · cases more with
    | nil => exact (List.cons.inj behind).2
    | cons other more =>
      obtain ⟨rfl, rfl⟩ := List.cons.inj behind
      have := notBefore split
      omega
  · cases more with
    | nil => exact (List.cons.inj behind).2.symm
    | cons other more =>
      obtain ⟨rfl, rfl⟩ := List.cons.inj behind
      have := notBefore split'
      omega

/-- Behind one delimiter there is one name. -/
theorem Names.name_eq (h : side.Names (Scanner.tokenize text mode) opening name)
    (h' : side.Names (Scanner.tokenize text mode) opening' name')
    (same : opening.start = opening'.start) : name = name' := by
  have bounds := h.bounds.1
  have bounds' := h'.bounds.1
  have size : 0 < side.delimiter.byteSize := by
    cases side <;> decide
  obtain ⟨kind, before, after, split, -, -, first, gap, rfl, isGap⟩ := h
  obtain ⟨kind', before', after', split', -, -, first', gap', rfl, isGap'⟩ := h'
  rw [List.append_assoc, List.cons_append] at split split'
  have behind := behind_eq split split' (Scanner.pairwise_tokens _) (by omega) (by omega) same
  have found : (gap ++ name :: after).find? (fun token ↦ token.kind ≠ .whitespace) = some name :=
    find?_behind isGap kind
  rw [behind, find?_behind isGap' kind'] at found
  exact (Option.some.inj found).symm

end TagSide

namespace Scanner.Config

variable {config next : Config} {kind : TokenKind} {taken : Text}

/-- The name of a tag is read behind the delimiter, and behind white space. -/
theorem Emits.cases_of_nameState (sound : config.Sound) (emits : config.Emits kind taken next)
    (side : TagSide) (h : next.state = side.nameState) :
    kind = side.opens ∧ taken = side.delimiter ∨
      config.state = side.nameState ∧ kind = .whitespace := by
  cases emits with
  | startTagOpen =>
    cases side with
    | opening => exact .inl ⟨rfl, rfl⟩
    | closing => cases h
  | endTagOpen =>
    cases side with
    | opening => cases h
    | closing => exact .inl ⟨rfl, rfl⟩
  | space => exact .inr ⟨h, rfl⟩
  | content eq | tagUnknown eq | endTagUnknown eq | comment eq | cdata eq
  | instructionData eq =>
    rw [eq] at h
    cases side <;> cases h
  | tagSpace eq =>
    rcases eq with eq | eq <;> cases side <;> simp [eq, TagSide.nameState] at h
  | unrecognized eq =>
    rw [h] at eq
    cases side <;> cases eq
  | commentClose | instructionClose =>
    rcases sound.markupReturn with eq | eq <;> cases side <;>
      simp [leaveMarkup, moveTo, eq, TagSide.nameState] at h
  | prologClose | emptyTagClose | startTagClose =>
    rcases sound.state_leaveTag with eq | eq <;> cases side <;> simp [eq, TagSide.nameState] at h
  | _ => cases side <;> cases h

/-- A change of state without a token never leads in front of the name of a tag. -/
theorem Rescans.ne_nameState (sound : config.Sound) (rescans : config.Rescans next)
    (side : TagSide) : next.state ≠ side.nameState := by
  cases rescans with
  | tagLeft =>
    rcases sound.state_leaveTag with eq | eq <;> cases side <;> simp [eq, TagSide.nameState]
  | _ => cases side <;> nofun

end Scanner.Config

end TolerantXml
