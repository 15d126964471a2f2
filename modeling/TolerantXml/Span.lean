import TolerantXml.Text.Slice

/-!
# Spans

A span is a half-open range of byte offsets. Spans come from anywhere, so they may be reversed or
out of bounds; such a span covers no text.
-/

namespace TolerantXml

/-- The offsets from `start` up to, and not including, `stop`. -/
structure Span where
  /-- The first offset. -/
  start : Nat
  /-- The offset after the last. -/
  stop : Nat
  deriving DecidableEq, Repr

namespace Span

/-- Whether the span ends where it starts. -/
def isEmpty (span : Span) : Bool := span.start == span.stop

/-- Whether an offset lies in the span. -/
def contains (span : Span) (offset : Nat) : Bool := span.start ≤ offset && offset < span.stop

/-- Whether an offset lies in the span or right after it. -/
def touches (span : Span) (offset : Nat) : Bool := span.start ≤ offset && offset ≤ span.stop

/-- The number of bytes that an ordered span covers. -/
def length? (span : Span) : Option Nat :=
  if span.start ≤ span.stop then some (span.stop - span.start) else none

/-- The text that a span covers, which is empty if the span does not fit the text. -/
def text (span : Span) (source : Text) : Text := (source.slice? span.start span.stop).getD []

/-- A span that fits covers the middle of a cut of the text into three parts. -/
theorem text_eq {first part last : Text} :
    (Span.mk first.byteSize (first.byteSize + part.byteSize)).text (first ++ part ++ last) =
      part := by
  rw [text, Text.slice?_eq_some_iff.2 ⟨first, last, rfl, rfl, rfl⟩, Option.getD_some]

end Span

end TolerantXml
