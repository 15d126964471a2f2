import TolerantXml.Proofs.Scanner.Partition
import TolerantXml.Proofs.Scanner.Reachable
import TolerantXml.Proofs.Tree.Moves

/-!
# Reading a text token by token

A reading is a scanner with the builder that takes its tokens. After some tokens it has the scanner
behind them and the builder that took them (`after_eq`), and at the end of the text its builder has
the document (`parse_eq_finish`). What every token keeps holds of every reading (`after_invariant`).
-/

namespace TolerantXml

/-- A scanner and the builder that takes its tokens. -/
structure Reading where
  scanner : Scanner
  builder : Builder

namespace Reading

variable {text uri : Text} {mode : Mode} {r : Reading}

/-- The reading in front of a text. -/
def start (text uri : Text) (mode : Mode) : Reading :=
  ⟨.start text mode, .start text uri mode⟩

/-- Reads a token. -/
def next (r : Reading) : Reading := ⟨r.scanner.next.2, r.builder.apply r.scanner.next.1⟩

/-- The reading behind the next tokens. -/
def after (r : Reading) : Nat → Reading
  | 0 => r
  | count + 1 => after r.next count

/-- At the end of the text a reading stays as it is. -/
theorem next_of_rest_nil (atEnd : r.scanner.cursor.rest = []) : r.next = r := by
  rw [next, Scanner.next_of_rest_nil atEnd]
  rfl

theorem after_add (r : Reading) (m n : Nat) : r.after (m + n) = (r.after m).after n := by
  induction m generalizing r with
  | zero => rw [Nat.zero_add, after]
  | succ m ih => rw [Nat.succ_add, after, after, ih]

/-- Scanner and builder of a reading are those of the tokens read so far. -/
theorem after_eq (r : Reading) (n : Nat) :
    r.after n = ⟨r.scanner.after n, r.builder.applyAll (r.scanner.tokens.take n)⟩ := by
  induction n generalizing r with
  | zero => rfl
  | succ n ih =>
    rw [after, ih, Scanner.after]
    by_cases ahead : r.scanner.cursor.rest = []
    · rw [next_of_rest_nil ahead, Scanner.tokens_of_rest_nil ahead,
        Scanner.next_of_rest_nil ahead]
      cases n with
      | zero => rfl
      | succ n =>
        rw [List.take_succ_cons, List.take_succ_cons, List.take_nil, List.take_nil]
    · rw [Scanner.tokens_of_rest_ne_nil ahead]
      rfl

/-- A reading that reached the end of the text took all the tokens. -/
private theorem applyAll_tokens_eq {n : Nat} (atEnd : (r.after n).scanner.cursor.rest = []) :
    r.builder.applyAll r.scanner.tokens = (r.after n).builder := by
  induction n generalizing r with
  | zero =>
    rw [after] at atEnd
    rw [Scanner.tokens_of_rest_nil atEnd, Scanner.next_of_rest_nil atEnd]
    rfl
  | succ n ih =>
    rw [after] at atEnd ⊢
    by_cases ahead : r.scanner.cursor.rest = []
    · rw [next_of_rest_nil ahead] at atEnd ⊢
      exact ih atEnd
    · rw [← ih atEnd, Scanner.tokens_of_rest_ne_nil ahead]
      rfl

/-- The document of a text is that of its reading at the end. -/
theorem parse_eq_finish {n : Nat}
    (atEnd : ((start text uri mode).after n).scanner.cursor.rest = []) :
    Document.parse text uri mode = ((start text uri mode).after n).builder.finish := by
  rw [Document.parse, ← applyAll_tokens_eq atEnd]
  rfl

/-- Every reading comes to the end of its text. -/
theorem exists_atEnd (r : Reading) : ∃ n, (r.after n).scanner.cursor.rest = [] := by
  induction size : r.scanner.cursor.rest.length using Nat.strongRecOn generalizing r with
  | ind size ih =>
    by_cases ahead : r.scanner.cursor.rest = []
    · exact ⟨0, ahead⟩
    · have less := Scanner.read_rest_length_lt r.scanner.config r.scanner.cursor ahead
      obtain ⟨n, atEnd⟩ := ih _ (size ▸ less) r.next rfl
      exact ⟨n + 1, atEnd⟩

/-! ### The next token -/

/-- A transition of the scanner emits a token: it is a start of the text ahead, and has the span
that its text takes. -/
structure Emits (r : Reading) (token : Token) (next : Scanner.Config) : Prop where
  transition : r.scanner.config.Emits token.kind token.text next
  nonempty : token.text ≠ []
  starts : token.text <+: r.scanner.cursor.rest
  span : token.span = ⟨r.scanner.cursor.offset, r.scanner.cursor.offset + token.text.byteSize⟩

namespace Emits

variable {token : Token} {next : Scanner.Config} (emits : r.Emits token next)
include emits

theorem start_eq : token.start = r.scanner.cursor.offset := congrArg Span.start emits.span

theorem stop_eq : token.stop = r.scanner.cursor.offset + token.text.byteSize :=
  congrArg Span.stop emits.span

theorem byteSize_pos : 0 < token.text.byteSize :=
  Nat.pos_of_ne_zero fun isEmpty ↦ emits.nonempty (Text.byteSize_eq_zero.1 isEmpty)

end Emits

/-! ### Invariants -/

section Invariant

variable {P : Reading → Prop}

/-- What changes of state without a token keep holds where the next token is read. -/
theorem exists_emits
    (rescans : ∀ (r : Reading) (next : Scanner.Config), P r → r.scanner.config.Rescans next →
      P ⟨⟨next, r.scanner.cursor⟩, r.builder⟩)
    (h : P r) (ahead : r.scanner.cursor.rest ≠ []) :
    ∃ (config next : Scanner.Config) (token : Token),
      P ⟨⟨config, r.scanner.cursor⟩, r.builder⟩ ∧
      Emits ⟨⟨config, r.scanner.cursor⟩, r.builder⟩ token next ∧
      r.scanner.next = (token, ⟨next, r.scanner.cursor.advance token.text⟩) := by
  obtain ⟨config, kind, taken, next, path, emits, nonempty, starts, eq⟩ :=
    Scanner.read_emits r.scanner.config ahead
  refine ⟨config, next, ⟨kind, _, taken⟩, ?_, ⟨emits, nonempty, starts, rfl⟩, eq⟩
  clear emits eq
  induction path with
  | refl => exact h
  | @tail before after _ last ih =>
    exact rescans ⟨⟨before, r.scanner.cursor⟩, r.builder⟩ after ih last

/-- What transitions of the scanner keep, with what the builder does at the token that is read,
holds of a reading after any number of tokens. -/
theorem after_invariant
    (rescans : ∀ (r : Reading) (next : Scanner.Config), P r → r.scanner.config.Rescans next →
      P ⟨⟨next, r.scanner.cursor⟩, r.builder⟩)
    (emits : ∀ (r : Reading) (token : Token) (next : Scanner.Config), P r → r.Emits token next →
      P ⟨⟨next, r.scanner.cursor.advance token.text⟩, r.builder.apply token⟩)
    (h : P r) (n : Nat) : P (r.after n) := by
  induction n generalizing r with
  | zero => exact h
  | succ n ih =>
    rw [after]
    by_cases ahead : r.scanner.cursor.rest = []
    · rw [next_of_rest_nil ahead]
      exact ih h
    · obtain ⟨config, next, token, now, reads, eq⟩ := exists_emits rescans h ahead
      apply ih
      rw [Reading.next, eq]
      exact emits ⟨⟨config, r.scanner.cursor⟩, r.builder⟩ token next now reads

end Invariant

/-! ### Histories -/

section Steps

variable {P : List Token → Reading → Prop} {passed : List Token}
  (rescans : ∀ (passed : List Token) (r : Reading) (next : Scanner.Config), P passed r →
    Scanner.step r.scanner.config r.scanner.cursor.before r.scanner.cursor.rest = .rescan next →
    P passed ⟨⟨next, r.scanner.cursor⟩, r.builder⟩)
  (emits : ∀ (passed : List Token) (r : Reading) (token : Token) (next : Scanner.Config),
    P passed r → r.Emits token next →
    Scanner.step r.scanner.config r.scanner.cursor.before r.scanner.cursor.rest =
      .emit token.kind token.text next →
    P (passed ++ [token]) ⟨⟨next, r.scanner.cursor.advance token.text⟩, r.builder.apply token⟩)
include rescans emits

/-- What steps of the scanner keep, with the tokens passed and what the builder does at the next
one, holds behind the next token. -/
private theorem steps_next (h : P passed r) (ahead : r.scanner.cursor.rest ≠ []) :
    P (passed ++ [r.scanner.next.1]) r.next := by
  obtain ⟨config, kind, taken, next, path, reads, nonempty, starts, eq⟩ :=
    Scanner.read_step r.scanner.config ahead
  have now : P passed ⟨⟨config, r.scanner.cursor⟩, r.builder⟩ := by
    clear reads eq
    induction path with
    | refl => exact h
    | @tail before after _ last ih =>
      exact rescans passed ⟨⟨before, r.scanner.cursor⟩, r.builder⟩ after ih last
  rw [Reading.next, Scanner.next, eq]
  exact emits passed ⟨⟨config, r.scanner.cursor⟩, r.builder⟩ _ next now
    ⟨Scanner.emits_of_step reads, nonempty, starts, rfl⟩ reads

/-- It holds at the end of the text behind all tokens but the last. -/
theorem exists_atEnd_of_steps (h : P passed r) :
    ∃ (n : Nat) (ahead : List Token) (last : Token), (r.after n).scanner.cursor.rest = [] ∧
      r.scanner.tokens = ahead ++ [last] ∧ P (passed ++ ahead) (r.after n) := by
  induction size : r.scanner.cursor.rest.length using Nat.strongRecOn generalizing r passed with
  | ind size ih =>
    by_cases ahead : r.scanner.cursor.rest = []
    · refine ⟨0, [], r.scanner.next.1, ahead, Scanner.tokens_of_rest_nil ahead, ?_⟩
      rw [List.append_nil]
      exact h
    · have less := Scanner.read_rest_length_lt r.scanner.config r.scanner.cursor ahead
      obtain ⟨n, tokens, last, atEnd, split, holds⟩ :=
        ih _ (size ▸ less) (steps_next rescans emits h ahead) rfl
      refine ⟨n + 1, r.scanner.next.1 :: tokens, last, atEnd, ?_, ?_⟩
      · rw [Scanner.tokens_of_rest_ne_nil ahead]
        exact congrArg (r.scanner.next.1 :: ·) split
      · rwa [← List.append_cons] at holds

end Steps

section History

variable {P : List Token → Reading → Prop} {passed before ahead : List Token} {token : Token}
  (rescans : ∀ (passed : List Token) (r : Reading) (next : Scanner.Config), P passed r →
    r.scanner.config.Rescans next → P passed ⟨⟨next, r.scanner.cursor⟩, r.builder⟩)
  (emits : ∀ (passed : List Token) (r : Reading) (token : Token) (next : Scanner.Config),
    P passed r → r.Emits token next →
    P (passed ++ [token]) ⟨⟨next, r.scanner.cursor.advance token.text⟩, r.builder.apply token⟩)
include rescans emits

/-- What any transitions of the scanner keep is kept by the steps. -/
private theorem history_next (h : P passed r) (ahead : r.scanner.cursor.rest ≠ []) :
    P (passed ++ [r.scanner.next.1]) r.next :=
  steps_next (fun passed r next h reads ↦ rescans passed r next h (Scanner.rescans_of_step reads))
    (fun passed r token next h reads _ ↦ emits passed r token next h reads) h ahead

theorem exists_atEnd_of_history (h : P passed r) :
    ∃ (n : Nat) (ahead : List Token) (last : Token), (r.after n).scanner.cursor.rest = [] ∧
      r.scanner.tokens = ahead ++ [last] ∧ P (passed ++ ahead) (r.after n) :=
  exists_atEnd_of_steps
    (fun passed r next h reads ↦ rescans passed r next h (Scanner.rescans_of_step reads))
    (fun passed r token next h reads _ ↦ emits passed r token next h reads) h

/-- It holds where any token is read, besides the end of the text. -/
theorem exists_emits_of_history (h : P before r)
    (split : r.scanner.tokens = passed ++ token :: ahead) (notEnd : token.kind ≠ .eos) :
    ∃ (config next : Scanner.Config) (cursor : Cursor),
      P (before ++ passed) ⟨⟨config, cursor⟩, r.builder.applyAll passed⟩ ∧
        config.Emits token.kind token.text next := by
  induction passed generalizing r before with
  | nil =>
    have isNext : r.scanner.next.1 = token := by
      have head := Scanner.head?_tokens r.scanner
      rw [split] at head
      exact (Option.some.inj head).symm
    have more : r.scanner.cursor.rest ≠ [] := by
      intro atEnd
      rw [Scanner.next_of_rest_nil atEnd] at isNext
      exact notEnd (isNext ▸ rfl)
    obtain ⟨config, next, read, now, reads, eq⟩ := exists_emits (rescans before) h more
    rw [eq] at isNext
    rw [← isNext, List.append_nil]
    exact ⟨config, next, r.scanner.cursor, now, reads.transition⟩
  | cons first passed ih =>
    have more : r.scanner.cursor.rest ≠ [] := by
      intro atEnd
      rw [Scanner.tokens_of_rest_nil atEnd] at split
      simp at split
    rw [Scanner.tokens_of_rest_ne_nil more, List.cons_append] at split
    obtain ⟨isFirst, split⟩ := List.cons.inj split
    have step := history_next rescans emits h more
    rw [isFirst] at step
    obtain ⟨config, next, cursor, now, reads⟩ := ih step split
    have builder : r.next.builder = r.builder.apply first := by rw [Reading.next, isFirst]
    rw [List.append_assoc, List.singleton_append, builder] at now
    exact ⟨config, next, cursor, now, reads⟩

end History

end Reading

end TolerantXml
