import Mathlib.Logic.Relation
import TolerantXml.Proofs.Scanner.Partition
import TolerantXml.Proofs.Scanner.Reachable

/-!
# Steps without a token

Between two tokens the scanner may change its state without reading. In the configurations that it
reaches such a step goes down in rank (`Config.Rescans.rank_lt`), because a tag and markup return to
element content or to the subset, where a token is always read. So two steps without a token come
before the next token at most (`next_of_reached`).
-/

namespace TolerantXml.Scanner

variable {text : Text} {mode : Mode} {scanner : Scanner}

/-- One step of a scanner in front of text: it reads a token, or only the state changes. -/
inductive Steps (scanner : Scanner) : Scanner → Prop where
  | emit {kind taken next} (ahead : scanner.cursor.rest ≠ [])
    (reads : step scanner.config scanner.cursor.before scanner.cursor.rest =
      .emit kind taken next) : Steps scanner ⟨next, scanner.cursor.advance taken⟩
  | rescan {next} (ahead : scanner.cursor.rest ≠ [])
    (changes : step scanner.config scanner.cursor.before scanner.cursor.rest = .rescan next) :
    Steps scanner ⟨next, scanner.cursor⟩

/-- Whether a scanner that was started at some offset of a text comes here, between two tokens or
between two steps without one. -/
def Reached (text : Text) (mode : Mode) (scanner : Scanner) : Prop :=
  ∃ offset, Relation.ReflTransGen Steps (startAt text offset mode) scanner

/-- Whether a token is read at a place behind a number of steps without one. -/
inductive ReadsBehind (before rest : Text) (kind : TokenKind) (taken : Text) (next : Config) :
    Nat → Config → Prop where
  | emit {config} (reads : step config before rest = .emit kind taken next) :
    ReadsBehind before rest kind taken next 0 config
  | rescan {config other count} (changes : step config before rest = .rescan other)
    (reads : ReadsBehind before rest kind taken next count other) :
    ReadsBehind before rest kind taken next (count + 1) config

/-! ### What is reached -/

theorem reached_startAt (text : Text) (offset : Nat) (mode : Mode) :
    Reached text mode (startAt text offset mode) :=
  ⟨offset, .refl⟩

/-- What is reached is sound. -/
theorem Reached.sound (h : Reached text mode scanner) :
    scanner.config.Sound ∧ scanner.config.mode = mode := by
  obtain ⟨offset, path⟩ := h
  induction path with
  | refl => exact ⟨Config.initial_sound mode, rfl⟩
  | tail _ last ih =>
    obtain ⟨sound, sameMode⟩ := ih
    cases last with
    | emit _ reads =>
      have emits := emits_of_step reads
      exact ⟨sound.emits emits, emits.mode_eq.trans sameMode⟩
    | rescan _ changes =>
      have rescans := rescans_of_step changes
      exact ⟨sound.rescans rescans, rescans.mode_eq.trans sameMode⟩

/-- A token is read behind some number of steps without one. -/
private theorem exists_readsBehind (config : Config) {cursor : Cursor} (ahead : cursor.rest ≠ []) :
    ∃ count kind taken next,
      ReadsBehind cursor.before cursor.rest kind taken next count config ∧
      read config cursor =
        (⟨kind, ⟨cursor.offset, cursor.offset + taken.byteSize⟩, taken⟩,
          ⟨next, cursor.advance taken⟩) := by
  fun_induction read config cursor with
  | case1 _ h => exact absurd h ahead
  | case2 config c rest h kind taken next reads after =>
    exact ⟨0, kind, taken, next, .emit (h ▸ reads), rfl⟩
  | case3 config c rest h next changes ih =>
    obtain ⟨count, kind, taken, last, reads, eq⟩ := ih
    exact ⟨count + 1, kind, taken, last, .rescan (h ▸ changes) reads, eq⟩

private theorem ReadsBehind.path {cursor : Cursor} {kind : TokenKind} {taken : Text}
    {config next : Config} {count : Nat} (ahead : cursor.rest ≠ [])
    (reads : ReadsBehind cursor.before cursor.rest kind taken next count config) :
    Relation.ReflTransGen Steps ⟨config, cursor⟩ ⟨next, cursor.advance taken⟩ := by
  induction reads with
  | emit reads => exact .single (.emit ahead reads)
  | rescan changes _ ih => exact .head (.rescan ahead changes) ih

private theorem Reached.next (h : Reached text mode scanner) :
    Reached text mode scanner.next.2 := by
  by_cases ahead : scanner.cursor.rest = []
  · rwa [next_of_rest_nil ahead]
  · obtain ⟨offset, path⟩ := h
    obtain ⟨count, kind, taken, config, reads, isNext⟩ := exists_readsBehind scanner.config ahead
    rw [Scanner.next, isNext]
    exact ⟨offset, path.trans (reads.path ahead)⟩

/-- A scanner is reached behind any number of tokens. -/
theorem Reached.after (h : Reached text mode scanner) (count : Nat) :
    Reached text mode (scanner.after count) := by
  induction count generalizing scanner with
  | zero => exact h
  | succ count ih => exact ih h.next

/-! ### How many steps -/

namespace Config

variable {config next : Config}

/-- Content and subset are of the lowest rank, and all other changes go down by one. -/
theorem Rescans.rank_lt (rescans : config.Rescans next) (sound : config.Sound) :
    next.state.rank < config.state.rank := by
  cases rescans with
  | tagLeft isTag =>
    rw [isTag]
    rcases sound.state_leaveTag with eq | eq <;> rw [eq] <;> decide
  | declLeft isDecl =>
    revert isDecl
    cases config.state <;> simp [State.isDecl, moveTo, State.rank]
  | doctypeLeft isHeader =>
    rcases isHeader with ⟨slot, eq⟩ | eq <;> simp [eq, moveTo, State.rank]
  | noStartTagName eq | noAssign eq | noAttributeValue eq | noEndTagName eq | endTagLeft eq
  | noTarget eq => simp [eq, moveTo, State.rank]

end Config

/-- No more steps without a token come before the next one than the rank of the state. -/
private theorem ReadsBehind.count_le {before rest taken : Text} {kind : TokenKind}
    {config next : Config} {count : Nat}
    (reads : ReadsBehind before rest kind taken next count config) (sound : config.Sound) :
    count ≤ config.state.rank := by
  induction reads with
  | emit => exact Nat.zero_le _
  | rescan changes _ ih =>
    have rescans := rescans_of_step changes
    exact Nat.lt_of_le_of_lt (ih (sound.rescans rescans)) (rescans.rank_lt sound)

/-- In every configuration that is reached, markup returns to element content or to the subset, the
prolog is read in the states of tags only, and no state of element content is reached where only
declarations are read. So where text is ahead the next token is read behind two steps without one at
most, and covers some of that text. -/
theorem next_of_reached (reached : Reached text mode scanner) :
    scanner.config.Sound ∧ scanner.config.mode = mode ∧
      (scanner.cursor.rest ≠ [] → ∃ count kind taken next, count ≤ 2 ∧
        ReadsBehind scanner.cursor.before scanner.cursor.rest kind taken next count
          scanner.config ∧
        kind ≠ .eos ∧ taken ≠ [] ∧ taken <+: scanner.cursor.rest ∧
        scanner.next =
          (⟨kind, ⟨scanner.cursor.offset, scanner.cursor.offset + taken.byteSize⟩, taken⟩,
            ⟨next, scanner.cursor.advance taken⟩)) := by
  obtain ⟨sound, sameMode⟩ := reached.sound
  refine ⟨sound, sameMode, fun ahead ↦ ?_⟩
  obtain ⟨count, kind, taken, next, reads, isNext⟩ := exists_readsBehind scanner.config ahead
  obtain ⟨kind', taken', next', notEnd, nonempty, starts, isNext'⟩ := next_of_rest_ne_nil ahead
  have same := isNext.symm.trans isNext'
  simp only [Prod.mk.injEq, Token.mk.injEq] at same
  obtain ⟨⟨rfl, -, rfl⟩, -⟩ := same
  exact ⟨count, kind, taken, next, Nat.le_trans (reads.count_le sound) (State.rank_le _), reads,
    notEnd, nonempty, starts, isNext⟩

/-- Behind the name of an attribute that a tag follows, the assignment and the rest of the tag are
given up before the next token. -/
theorem next_of_reached_attributeName :
    let text : Text := ['<', 'a', ' ', 'b', '<']
    let scanner := (startAt text 0 .xml).after 4
    Reached text .xml scanner ∧ scanner.config.state = .assign ∧ scanner.cursor.rest = ['<'] ∧
      ∃ count kind taken next, count ≤ 2 ∧
        ReadsBehind scanner.cursor.before scanner.cursor.rest kind taken next count
          scanner.config ∧
        kind ≠ .eos ∧ taken ≠ [] ∧ taken <+: scanner.cursor.rest ∧
        scanner.next =
          (⟨kind, ⟨scanner.cursor.offset, scanner.cursor.offset + taken.byteSize⟩, taken⟩,
            ⟨next, scanner.cursor.advance taken⟩) := by
  intro text scanner
  have reached : Reached text .xml scanner := (reached_startAt text 0 .xml).after 4
  have state : ((startAt text 0 .xml).after 4).config.state = .assign := by decide +kernel
  have rest : ((startAt text 0 .xml).after 4).cursor.rest = ['<'] := by decide +kernel
  refine ⟨reached, state, rest, (next_of_reached reached).2.2 ?_⟩
  rw [rest]
  exact List.cons_ne_nil _ _

/-- Two steps without a token may be needed. -/
example : ∃ next, ReadsBehind [] ['<'] .startTagOpen ['<'] next 2
    ((Config.initial .xml).moveTo .assign) :=
  ⟨_, .rescan rfl (.rescan rfl (.emit rfl))⟩

end TolerantXml.Scanner
