import TolerantXml.Span

/-!
# Lines and characters

A place in a text is a byte offset or a position: a line and a character in it, both counted from
zero, the character in bytes. A line ends at a line feed, a carriage return, or one of each in
that order.
-/

namespace TolerantXml

/-- A line, and the number of bytes before a place in it. -/
structure Position where
  line : Nat
  character : Nat
  deriving DecidableEq, Repr, Inhabited

/-- The positions between which a span stands. -/
structure PositionRange where
  start : Position
  stop : Position
  deriving DecidableEq, Repr

/-- Why a text has no such place. -/
inductive LocationError where
  | offsetOutOfRange (offset length : Nat)
  | lineOutOfRange (line lineCount : Nat)
  | characterOutOfRange (line character lineLength : Nat)
  deriving DecidableEq, Repr

/-- The wording of an error. -/
def LocationError.message : LocationError → String
  | .offsetOutOfRange offset length =>
    "offset " ++ toString offset ++ " is past the end of the document (length " ++
      toString length ++ ")"
  | .lineOutOfRange line lineCount =>
    "line " ++ toString line ++ " does not exist (document has " ++ toString lineCount ++
      " lines)"
  | .characterOutOfRange line character lineLength =>
    "character " ++ toString character ++ " is past the end of line " ++ toString line ++
      " (length " ++ toString lineLength ++ ")"

namespace Text

/-- The offsets after the line breaks of a text that starts at `offset`. -/
def breakEndsFrom (offset : Nat) : Text → List Nat
  | [] => []
  | '\r' :: '\n' :: rest => (offset + 2) :: breakEndsFrom (offset + 2) rest
  | c :: rest =>
    if c = '\r' ∨ c = '\n' then (offset + 1) :: breakEndsFrom (offset + 1) rest
    else breakEndsFrom (offset + c.utf8Size) rest

/-- The offsets at which the lines of a text start. -/
def lineStarts (text : Text) : List Nat := 0 :: breakEndsFrom 0 text

/-- The number of lines of a text. -/
def lineCount (text : Text) : Nat := text.lineStarts.length

/-- The position of an offset: the last line that starts at or before it, and the distance from
that start. -/
def positionAt (text : Text) (offset : Nat) : Except LocationError Position :=
  if text.byteSize < offset then .error (.offsetOutOfRange offset text.byteSize)
  else
    let started := text.lineStarts.takeWhile (· ≤ offset)
    .ok ⟨started.length - 1, offset - started.getLastD 0⟩

/-- The offset of a position. The character may be that of the line break, and not past it. -/
def offsetAt (text : Text) (position : Position) : Except LocationError Nat :=
  let starts := text.lineStarts
  match starts[position.line]? with
  | none => .error (.lineOutOfRange position.line starts.length)
  | some start =>
    let lineLength :=
      match starts[position.line + 1]? with
      | some next => next - start - 1
      | none => text.byteSize - start
    if lineLength < position.character then
      .error (.characterOutOfRange position.line position.character lineLength)
    else .ok (start + position.character)

/-- The positions of the ends of a span; of two errors that of the start comes first. -/
def rangeOf (text : Text) (span : Span) : Except LocationError PositionRange := do
  let start ← text.positionAt span.start
  let stop ← text.positionAt span.stop
  return ⟨start, stop⟩

end Text

end TolerantXml
