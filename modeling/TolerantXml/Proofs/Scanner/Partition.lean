import Mathlib.Data.List.Chain
import Mathlib.Order.Bounds.Basic
import TolerantXml.Scanner.Stream
import TolerantXml.Span

/-!
# The token stream covers the text

The tokens read from an offset cut the rest of the text into pieces: they follow each other without
a gap, each but the last is a slice of the text that is not empty, and joined they are all of the
rest (`tokens_partition`). A scanner stays at the end of the text for ever.
-/

namespace TolerantXml

/-- Whether an offset lies between two characters of a text, or at one of its ends. -/
def Text.IsBoundary (text : Text) (offset : Nat) : Prop :=
  ∃ first last, text = first ++ last ∧ first.byteSize = offset

/-- The token that is read at the end of a text. -/
def Token.atEnd (text : Text) : Token := ⟨.eos, ⟨text.byteSize, text.byteSize⟩, []⟩

/-! ### Cursors in a text -/

/-- A cursor of a text counts the bytes that it has passed. -/
structure Cursor.StandsIn (cursor : Cursor) (text : Text) : Prop where
  text_eq : cursor.text = text
  offset_eq : cursor.offset = cursor.before.byteSize

namespace Cursor

variable {cursor : Cursor} {text taken : Text}

theorem atStart_standsIn (text : Text) : (atStart text).StandsIn text := ⟨rfl, rfl⟩

/-- Seeking in a text ends at the last boundary that is not beyond the target. -/
private theorem seek_standsIn (text : Text) (target : Nat) :
    ((atStart text).seek target).StandsIn text := by
  obtain ⟨passed, ahead, rfl, eq, -, -⟩ := seekFrom_split [] 0 target text
  constructor
  · simp [seek, atStart, eq, Cursor.text]
  · simp [seek, atStart, eq]

/-- The cursor behind a lexeme stands in the same text. -/
theorem StandsIn.advance (h : cursor.StandsIn text) (starts : taken <+: cursor.rest) :
    (cursor.advance taken).StandsIn text := by
  obtain ⟨ahead, eq⟩ := starts
  constructor
  · rw [← h.text_eq]
    simp [Cursor.advance, Cursor.text, ← eq]
  · simp [Cursor.advance, h.offset_eq, Nat.add_comm]

theorem rest_advance (starts : taken <+: cursor.rest) :
    taken ++ (cursor.advance taken).rest = cursor.rest := by
  obtain ⟨ahead, eq⟩ := starts
  simp [Cursor.advance, ← eq]

theorem StandsIn.isBoundary (h : cursor.StandsIn text) : text.IsBoundary cursor.offset :=
  ⟨cursor.before.reverse, cursor.rest, h.text_eq.symm, by simp [h.offset_eq]⟩

theorem StandsIn.offset_add_rest (h : cursor.StandsIn text) :
    cursor.offset + cursor.rest.byteSize = text.byteSize := by
  rw [← h.text_eq, Cursor.text, Text.byteSize_append, Text.byteSize_reverse, h.offset_eq]

/-- What stands right ahead of a cursor is the slice from its offset on. -/
theorem StandsIn.slice?_eq (h : cursor.StandsIn text) (starts : taken <+: cursor.rest) :
    text.slice? cursor.offset (cursor.offset + taken.byteSize) = some taken := by
  obtain ⟨ahead, eq⟩ := starts
  refine Text.slice?_eq_some_iff.2 ⟨cursor.before.reverse, ahead, ?_, ?_, rfl⟩
  · rw [← h.text_eq, Cursor.text, ← eq, List.append_assoc]
  · rw [Text.byteSize_reverse, h.offset_eq]

/-- Seeking finds the greatest boundary up to the target and the end of the text. -/
private theorem isGreatest_seek (text : Text) (target : Nat) :
    IsGreatest {place | text.IsBoundary place ∧ place ≤ min target text.byteSize}
      ((atStart text).seek target).offset := by
  have stands := seek_standsIn text target
  obtain ⟨passed, ahead, split, eq, le, far⟩ := seekFrom_split [] 0 target text
  simp only [Nat.zero_add, Nat.zero_le, forall_const] at le far
  have offset_eq : ((atStart text).seek target).offset = passed.byteSize := by
    simp [seek, atStart, eq]
  constructor
  · have := stands.offset_add_rest
    exact ⟨stands.isBoundary, by omega⟩
  · rintro place ⟨⟨first, last, cut, rfl⟩, bound⟩
    rw [offset_eq]
    -- A prefix that is longer than the part passed holds the next character too.
    rcases List.append_eq_append_iff.1 (split.symm.trans cut) with
      ⟨more, rfl, rfl⟩ | ⟨more, rfl, -⟩
    · cases more with
      | nil => simp
      | cons c more =>
        have := far c (by simp)
        simp only [Text.byteSize_append, Text.byteSize_cons] at this bound
        omega
    · simp

end Cursor

namespace Scanner

variable {scanner : Scanner} {text : Text}

/-! ### One token after another -/

theorem next_of_rest_nil (atEnd : scanner.cursor.rest = []) :
    scanner.next = (⟨.eos, ⟨scanner.cursor.offset, scanner.cursor.offset⟩, []⟩, scanner) :=
  read_of_rest_nil atEnd

/-- Where text is ahead, the next token is a piece of it. -/
theorem next_of_rest_ne_nil (ahead : scanner.cursor.rest ≠ []) :
    ∃ (kind : TokenKind) (taken : Text) (config : Config),
      kind ≠ .eos ∧ taken ≠ [] ∧ taken <+: scanner.cursor.rest ∧
      scanner.next =
        (⟨kind, ⟨scanner.cursor.offset, scanner.cursor.offset + taken.byteSize⟩, taken⟩,
          ⟨config, scanner.cursor.advance taken⟩) :=
  read_of_rest_ne_nil scanner.config ahead

theorem next_start (scanner : Scanner) : scanner.next.1.start = scanner.cursor.offset := by
  by_cases ahead : scanner.cursor.rest = []
  · rw [next_of_rest_nil ahead, Token.start]
  · obtain ⟨kind, taken, config, -, -, -, eq⟩ := next_of_rest_ne_nil ahead
    rw [eq, Token.start]

theorem next_stop (scanner : Scanner) : scanner.next.1.stop = scanner.next.2.cursor.offset := by
  by_cases ahead : scanner.cursor.rest = []
  · rw [next_of_rest_nil ahead, Token.stop]
  · obtain ⟨kind, taken, config, -, -, -, eq⟩ := next_of_rest_ne_nil ahead
    rw [eq, Token.stop, Cursor.advance]

theorem next_standsIn (h : scanner.cursor.StandsIn text) :
    scanner.next.2.cursor.StandsIn text := by
  by_cases ahead : scanner.cursor.rest = []
  · rwa [next_of_rest_nil ahead]
  · obtain ⟨kind, taken, config, -, -, starts, eq⟩ := next_of_rest_ne_nil ahead
    rw [eq]
    exact h.advance starts

/-- At the end of a text, the end token of that text is read. -/
private theorem next_atEnd (h : scanner.cursor.StandsIn text) (atEnd : scanner.cursor.rest = []) :
    scanner.next = (Token.atEnd text, scanner) := by
  have := h.offset_add_rest
  rw [atEnd, Text.byteSize_nil, Nat.add_zero] at this
  rw [next_of_rest_nil atEnd, this, Token.atEnd]

theorem tokens_of_rest_nil (atEnd : scanner.cursor.rest = []) :
    scanner.tokens = [scanner.next.1] := by
  rw [tokens, dif_pos atEnd]

theorem tokens_of_rest_ne_nil (ahead : scanner.cursor.rest ≠ []) :
    scanner.tokens = scanner.next.1 :: scanner.next.2.tokens := by
  rw [tokens, dif_neg ahead]

/-! ### The stream as a whole -/

theorem head?_tokens (scanner : Scanner) : scanner.tokens.head? = some scanner.next.1 := by
  rw [tokens]
  split <;> rfl

theorem isChain_tokens (scanner : Scanner) :
    scanner.tokens.IsChain fun first second ↦ first.stop = second.start := by
  fun_induction tokens scanner with
  | case1 => exact List.isChain_singleton _
  | case2 scanner result ahead ih =>
    refine List.isChain_cons.2 ⟨?_, ih⟩
    intro second isHead
    rw [head?_tokens, Option.mem_def, Option.some.injEq] at isHead
    rw [← isHead, next_start]
    exact next_stop scanner

theorem offset_le_start_of_mem_tokens {token : Token} (mem : token ∈ scanner.tokens) :
    scanner.cursor.offset ≤ token.start := by
  fun_induction tokens scanner with
  | case1 scanner result atEnd =>
    rw [List.mem_singleton.1 mem]
    exact Nat.le_of_eq (next_start scanner).symm
  | case2 scanner result ahead ih =>
    rcases List.mem_cons.1 mem with rfl | mem
    · exact Nat.le_of_eq (next_start scanner).symm
    · obtain ⟨kind, taken, config, -, -, -, eq⟩ := next_of_rest_ne_nil ahead
      have le := ih mem
      simp only [result, eq, Cursor.advance] at le
      exact Nat.le_of_add_right_le le

/-- Tokens stand in the order in which they are read. -/
theorem pairwise_tokens (scanner : Scanner) :
    scanner.tokens.Pairwise fun first second ↦ first.stop ≤ second.start := by
  fun_induction tokens scanner with
  | case1 => exact List.pairwise_singleton _ _
  | case2 scanner result ahead ih =>
    refine List.pairwise_cons.2 ⟨fun token mem ↦ ?_, ih⟩
    rw [next_stop]
    exact offset_le_start_of_mem_tokens mem

theorem flatten_text_tokens (scanner : Scanner) :
    (scanner.tokens.map Token.text).flatten = scanner.cursor.rest := by
  fun_induction tokens scanner with
  | case1 scanner result atEnd => simp [result, next_of_rest_nil atEnd, atEnd]
  | case2 scanner result ahead ih =>
    obtain ⟨kind, taken, config, -, -, starts, eq⟩ := next_of_rest_ne_nil ahead
    rw [List.map_cons, List.flatten_cons, ih]
    simp only [result, eq]
    exact Cursor.rest_advance starts

theorem getLast?_tokens (h : scanner.cursor.StandsIn text) :
    scanner.tokens.getLast? = some (Token.atEnd text) := by
  fun_induction tokens scanner with
  | case1 scanner result atEnd =>
    rw [List.getLast?_singleton]
    exact congrArg some (congrArg Prod.fst (next_atEnd h atEnd))
  | case2 scanner result ahead ih =>
    rw [List.getLast?_cons, ih (next_standsIn h), Option.getD_some]

/-- The last token of a text is the end token. -/
theorem kind_of_tokenize_eq_concat {mode : Mode} {passed : List Token} {last : Token}
    (split : tokenize text mode = passed ++ [last]) : last.kind = .eos := by
  have stands : (start text mode).cursor.StandsIn text := Cursor.atStart_standsIn text
  have isLast := getLast?_tokens stands
  rw [← tokenize, split, List.getLast?_concat] at isLast
  rw [Option.some.inj isLast]
  rfl

/-- Only the last token is the end token. -/
theorem kind_ne_eos_of_mem_dropLast_tokens {token : Token} (h : token ∈ scanner.tokens.dropLast) :
    token.kind ≠ .eos := by
  fun_induction tokens scanner with
  | case1 => simp at h
  | case2 scanner result ahead ih =>
    have nonempty : result.2.tokens ≠ [] := by
      intro empty
      have := head?_tokens result.2
      simp [empty] at this
    rw [List.dropLast_cons_of_ne_nil nonempty] at h
    rcases List.mem_cons.1 h with rfl | h
    · obtain ⟨kind, taken, config, notEnd, -, -, eq⟩ := next_of_rest_ne_nil ahead
      simpa only [result, eq] using notEnd
    · exact ih h

/-- Every token but the end token is a slice of the text that is not empty. -/
theorem slice?_of_mem_tokens (h : scanner.cursor.StandsIn text) {token : Token}
    (mem : token ∈ scanner.tokens) (notEnd : token.kind ≠ .eos) :
    token.start < token.stop ∧ text.IsBoundary token.start ∧ text.IsBoundary token.stop ∧
      text.slice? token.start token.stop = some token.text := by
  fun_induction tokens scanner with
  | case1 scanner result atEnd =>
    rw [List.mem_singleton] at mem
    subst mem
    simp [result, next_of_rest_nil atEnd] at notEnd
  | case2 scanner result ahead ih =>
    rcases List.mem_cons.1 mem with rfl | mem
    · obtain ⟨kind, taken, config, -, nonempty, starts, eq⟩ := next_of_rest_ne_nil ahead
      have size : taken.byteSize ≠ 0 := mt Text.byteSize_eq_zero.1 nonempty
      simp only [result, eq, Token.start, Token.stop]
      exact ⟨by omega, h.isBoundary, (h.advance starts).isBoundary, h.slice?_eq starts⟩
    · exact ih (next_standsIn h) mem

private theorem length_tokens_le (scanner : Scanner) :
    scanner.tokens.length ≤ scanner.cursor.rest.byteSize + 1 := by
  fun_induction tokens scanner with
  | case1 => simp
  | case2 scanner result ahead ih =>
    obtain ⟨kind, taken, config, -, nonempty, starts, eq⟩ := next_of_rest_ne_nil ahead
    have size : taken.byteSize ≠ 0 := mt Text.byteSize_eq_zero.1 nonempty
    have rest := congrArg Text.byteSize (Cursor.rest_advance starts)
    simp only [result, eq, Text.byteSize_append, List.length_cons] at ih rest ⊢
    omega

/-- Reading token by token gives the tokens in order, and behind them the end token for ever. -/
theorem next_after_eq_getD (h : scanner.cursor.StandsIn text) (n : Nat) :
    (scanner.after n).next.1 = scanner.tokens.getD n (Token.atEnd text) := by
  induction n generalizing scanner with
  | zero =>
    rw [after, List.getD_eq_getElem?_getD, ← List.head?_eq_getElem?, head?_tokens,
      Option.getD_some]
  | succ n ih =>
    rw [after, ih (next_standsIn h)]
    by_cases ahead : scanner.cursor.rest = []
    · rw [next_atEnd h ahead, tokens_of_rest_nil ahead, next_atEnd h ahead]
      cases n with
      | zero => rfl
      | succ n => rfl
    · rw [tokens_of_rest_ne_nil ahead, List.getD_cons_succ]

/-- From any offset, the tokens partition the text behind the greatest boundary up to that offset.
They start there and follow each other without a gap; each but the last is a slice that is not
empty, and joined they are the rest of the text. The last is the end token, which is read again and
again, and there are no more tokens than bytes besides it. -/
theorem tokens_partition (text : Text) (offset : Nat) (mode : Mode) :
    let scanner := startAt text offset mode
    let tokens := scanner.tokens
    let place := scanner.cursor.offset
    IsGreatest {place | text.IsBoundary place ∧ place ≤ min offset text.byteSize} place ∧
    tokens.head?.map Token.start = some place ∧
    (tokens.IsChain fun first second ↦ first.stop = second.start) ∧
    (∀ token ∈ tokens, token.kind ≠ .eos →
      token.start < token.stop ∧ text.IsBoundary token.start ∧ text.IsBoundary token.stop ∧
        text.slice? token.start token.stop = some token.text) ∧
    text.slice? place text.byteSize = some (tokens.map Token.text).flatten ∧
    (∀ token ∈ tokens.dropLast, token.kind ≠ .eos) ∧
    tokens.getLast? = some (Token.atEnd text) ∧
    (∀ n, (scanner.after n).next.1 = tokens.getD n (Token.atEnd text)) ∧
    (tokenize text mode).length ≤ text.byteSize + 1 := by
  intro scanner tokens place
  have stands : scanner.cursor.StandsIn text := Cursor.seek_standsIn text offset
  refine ⟨Cursor.isGreatest_seek text offset, ?_, isChain_tokens scanner, ?_, ?_, ?_,
    getLast?_tokens stands, next_after_eq_getD stands, length_tokens_le (start text mode)⟩
  · rw [head?_tokens, Option.map_some, next_start]
  · intro token mem notEnd
    exact slice?_of_mem_tokens stands mem notEnd
  · rw [flatten_text_tokens, ← stands.offset_add_rest]
    exact stands.slice?_eq (List.prefix_refl _)
  · intro token mem
    exact kind_ne_eos_of_mem_dropLast_tokens mem

end Scanner

end TolerantXml
