import TolerantXml.Scanner.Progress
import TolerantXml.Text.Cursor

/-!
# The token stream

A scanner is a configuration at a place in a text. It reads one token after another; at the end of
the text it reads the end token, and stays there.
-/

namespace TolerantXml

/-- A configuration at a place in a text. -/
structure Scanner where
  /-- What is carried from token to token. -/
  config : Scanner.Config
  /-- The place in the text. -/
  cursor : Cursor
  deriving DecidableEq, Repr

namespace Scanner

/-- The scanner in front of a text. -/
def start (text : Text) (mode : Mode) : Scanner := ⟨.initial mode, .atStart text⟩

/-- The scanner at the last character boundary at or below an offset. -/
def startAt (text : Text) (offset : Nat) (mode : Mode) : Scanner :=
  ⟨.initial mode, (Cursor.atStart text).seek offset⟩

/-- The text that is scanned, with the part already read. -/
def source (scanner : Scanner) : Text := scanner.cursor.text

/-- Reads a token in a configuration, after the steps without a token that come first. -/
def read (config : Config) (cursor : Cursor) : Token × Scanner :=
  match _ahead : cursor.rest with
  | [] => (⟨.eos, ⟨cursor.offset, cursor.offset⟩, []⟩, ⟨config, cursor⟩)
  | c :: rest =>
    match _taken : step config cursor.before (c :: rest) with
    | .emit kind taken next =>
      let after := cursor.advance taken
      (⟨kind, ⟨cursor.offset, after.offset⟩, taken⟩, ⟨next, after⟩)
    | .rescan next => read next cursor
termination_by config.rank
decreasing_by
  have progress := step_progress config cursor.before c rest
  rw [_taken] at progress
  exact progress

/-- Reads the next token. -/
def next (scanner : Scanner) : Token × Scanner := read scanner.config scanner.cursor

/-- At the end of the text the end token is read, and nothing changes. -/
theorem read_of_rest_nil {config : Config} {cursor : Cursor} (atEnd : cursor.rest = []) :
    read config cursor = (⟨.eos, ⟨cursor.offset, cursor.offset⟩, []⟩, ⟨config, cursor⟩) := by
  rw [read]
  split
  next => rfl
  next c rest ahead => rw [atEnd] at ahead; cases ahead

/-- Where text is ahead, a token is read that covers a part of it, and the scanner stands behind
that part. -/
theorem read_of_rest_ne_nil (config : Config) {cursor : Cursor} (ahead : cursor.rest ≠ []) :
    ∃ (kind : TokenKind) (taken : Text) (next : Config),
      kind ≠ .eos ∧ taken ≠ [] ∧ taken <+: cursor.rest ∧
      read config cursor =
        (⟨kind, ⟨cursor.offset, cursor.offset + taken.byteSize⟩, taken⟩,
          ⟨next, cursor.advance taken⟩) := by
  fun_induction read config cursor with
  | case1 _ h => exact absurd h ahead
  | case2 config c rest h kind taken next hstep after =>
    have progress := step_progress config cursor.before c rest
    rw [hstep] at progress
    exact ⟨kind, taken, next, progress.1, progress.2.1, h ▸ progress.2.2, rfl⟩
  | case3 _ _ _ _ _ _ ih => exact ih

/-- A token that is read leaves less text ahead. -/
theorem read_rest_length_lt (config : Config) (cursor : Cursor) (ahead : cursor.rest ≠ []) :
    (read config cursor).2.cursor.rest.length < cursor.rest.length := by
  obtain ⟨kind, taken, next, _, nonempty, _, eq⟩ := read_of_rest_ne_nil config ahead
  have := List.length_pos_iff.2 nonempty
  have := List.length_pos_iff.2 ahead
  simp only [eq, Cursor.advance, List.length_drop]
  omega

/-- The scanner behind the next tokens. -/
def after (scanner : Scanner) : Nat → Scanner
  | 0 => scanner
  | count + 1 => after scanner.next.2 count

/-- The tokens from a scanner on, the end token last. -/
def tokens (scanner : Scanner) : List Token :=
  let result := scanner.next
  if _ahead : scanner.cursor.rest = [] then [result.1] else result.1 :: tokens result.2
termination_by scanner.cursor.rest.length
decreasing_by exact read_rest_length_lt scanner.config scanner.cursor _ahead

/-- The tokens of a text, the end token last. -/
def tokenize (text : Text) (mode : Mode) : List Token := (start text mode).tokens

end Scanner

end TolerantXml
