import TolerantXml.Proofs.Scanner.Lookahead
import TolerantXml.Proofs.Scanner.Modes
import TolerantXml.Proofs.Scanner.Partition
import TolerantXml.Proofs.Scanner.Reachable
import TolerantXml.Proofs.Tree.Moved

/-!
# Scanning a text inside another one

One scanner stands in a text, and another one at the same place of a longer text that goes on behind
it (`Scanner.Embeds`). They read the same tokens, moved by the distance of their places, as long as
the texts ahead are alike: if the inner text has no `]` and the outer one goes on with `]`
(`Embeds.next_of_bracket`), or if the inner text ends with `>` and what the outer scanner reads does
not leave it (`Embeds.next_of_cut`).
-/

namespace TolerantXml.Scanner

/-- What is ahead of the inner scanner is ahead of the outer one too, with a tail behind it. The
outer text is a document, and the inner one may be read in any mode. -/
structure Embeds (distance : Nat) (tail : Text) (outer inner : Scanner) : Prop where
  config : outer.config = inner.config.inMode .xml
  offset : outer.cursor.offset = inner.cursor.offset + distance
  rest : outer.cursor.rest = inner.cursor.rest ++ tail
  words : SameWords outer.cursor.before inner.cursor.before

theorem SameWords.symm {before before' : Text} (h : SameWords before before') :
    SameWords before' before := fun taken ↦ (h taken).symm

/-- A character that ends words hides what came before it. -/
private theorem lastWord_of_isWordBreak {c : Char} (h : Lexeme.isWordBreak c = true)
    (before taken : Text) :
    Lexeme.lastWord (taken.reverseAux (c :: before)) = Lexeme.lastWord taken.reverse := by
  rw [Lexeme.lastWord, Lexeme.lastWord, List.reverseAux_eq]
  exact congrArg List.reverse (Lexeme.run_append_cons (by simp [h]) taken.reverse before)

theorem sameWords_of_isWordBreak {c : Char} (h : Lexeme.isWordBreak c = true)
    (before before' : Text) : SameWords (c :: before) (c :: before') := by
  intro taken
  rw [lastWord_of_isWordBreak h, lastWord_of_isWordBreak h]

/-- A character that ends words is like the start of a text. -/
theorem sameWords_of_isWordBreak_nil {c : Char} (h : Lexeme.isWordBreak c = true)
    (before : Text) : SameWords (c :: before) [] := by
  intro taken
  rw [lastWord_of_isWordBreak h, List.reverseAux_eq, List.append_nil]

/-- Reading does not change how the text is read. -/
theorem mode_next (scanner : Scanner) : scanner.next.2.config.mode = scanner.config.mode := by
  by_cases ahead : scanner.cursor.rest = []
  · rw [next_of_rest_nil ahead]
  · obtain ⟨reading, kind, taken, next, path, emits, -, -, eq⟩ :=
      read_emits scanner.config ahead
    have reached : reading.mode = scanner.config.mode := by
      clear emits
      induction path with
      | refl => rfl
      | tail _ last ih => exact last.mode_eq.trans ih
    rw [Scanner.next, eq]
    exact emits.mode_eq.trans reached

namespace Embeds

variable {distance : Nat} {tail : Text} {outer inner : Scanner}

/-- The outer scanner reads the token of the inner one further on. -/
def ReadsAlike (distance : Nat) (outer inner : Scanner) : Prop :=
  outer.next = (inner.next.1.moved distance,
    ⟨inner.next.2.config.inMode .xml, outer.cursor.advance inner.next.1.text⟩)

/-- Behind a token that both read, one scanner still stands inside the text of the other. -/
theorem next (h : Embeds distance tail outer inner) (ahead : inner.cursor.rest ≠ [])
    (reads : ReadsAlike distance outer inner) : Embeds distance tail outer.next.2 inner.next.2 := by
  obtain ⟨kind, taken, next, -, -, starts, eq⟩ := next_of_rest_ne_nil ahead
  rw [ReadsAlike, eq] at reads
  rw [reads, eq]
  constructor
  · rfl
  · have offset := h.offset
    simp only [Cursor.advance]
    omega
  · simp only [Cursor.advance, h.rest]
    exact List.drop_append_of_le_length starts.length_le
  · exact h.words.advance taken

/-- In front of `]`, which the inner text does not have. -/
theorem next_of_bracket (h : Embeds distance (']' :: tail) outer inner)
    (ahead : inner.cursor.rest ≠ []) (free : ']' ∉ inner.cursor.rest)
    (ends : inner.next.2.cursor.rest = [] → inner.next.2.config.state = .subset) :
    ReadsAlike distance outer inner := by
  obtain ⟨kind, taken, next, -, -, starts, eq⟩ := next_of_rest_ne_nil ahead
  rw [eq] at ends
  have alike := alike_bracket ahead free tail
  rw [← h.rest] at alike
  have reach : taken ≠ inner.cursor.rest ∨ next.state = .subset := by
    by_cases all : taken = inner.cursor.rest
    · right
      apply ends
      simp [Cursor.advance, all]
    · exact .inl all
  have reads := read_alike alike h.words.symm ahead eq reach
  have notBracket : outer.cursor.rest.head? ≠ some ']' := by
    rw [(alike inner.config.state).head]
    exact fun isHead ↦ free (List.mem_of_head? isHead)
  rw [ReadsAlike, Scanner.next, h.config, read_inMode notBracket, reads, eq, h.offset]
  simp only [Token.moved, Span.moved, Prod.mk.injEq, Token.mk.injEq, Span.mk.injEq, true_and,
    and_true]
  omega

/-- Where the inner text ends with `>`, and the outer scanner reads a part of it. -/
theorem next_of_cut (h : Embeds distance tail outer inner) (xml : inner.config.mode = .xml)
    (last : inner.cursor.rest.getLast? = some '>')
    (reach : outer.next.1.text <+: inner.cursor.rest) : ReadsAlike distance outer inner := by
  have ahead : outer.cursor.rest ≠ [] := by
    rw [h.rest]
    exact List.append_ne_nil_of_left_ne_nil (List.ne_nil_of_mem (List.mem_of_getLast? last)) _
  have config : outer.config = inner.config := by
    rw [h.config, Config.inMode, ← xml]
  obtain ⟨kind, taken, next, -, -, -, eq⟩ := next_of_rest_ne_nil ahead
  rw [eq] at reach
  have alike := alike_cut last tail
  rw [← h.rest] at alike
  have reads := read_alike alike h.words ahead eq reach
  rw [config] at reads
  have mode : next.mode = .xml := by
    have kept := mode_next inner
    rw [Scanner.next, reads] at kept
    exact kept.trans xml
  have stays : next.inMode .xml = next := by rw [Config.inMode, ← mode]
  rw [ReadsAlike, eq, Scanner.next, reads, h.offset, stays]
  simp only [Token.moved, Span.moved, Prod.mk.injEq, Token.mk.injEq, Span.mk.injEq, true_and,
    and_true]
  omega

end Embeds

end TolerantXml.Scanner
