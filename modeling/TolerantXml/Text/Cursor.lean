import TolerantXml.Text.Basic

/-!
# Cursors

A cursor stands between two characters of a text. Seeking moves it to the last character boundary
at or below a byte offset (`Cursor.seekFrom_split`).
-/

namespace TolerantXml

/-- A place between two characters of a text. -/
structure Cursor where
  /-- The characters already passed, the nearest first. -/
  before : Text
  /-- The characters still ahead. -/
  rest : Text
  /-- The number of bytes passed. -/
  offset : Nat
  deriving DecidableEq, Repr

namespace Cursor

/-- The cursor in front of a text. -/
def atStart (text : Text) : Cursor := ⟨[], text, 0⟩

/-- The whole text around a cursor. -/
def text (cursor : Cursor) : Text := cursor.before.reverse ++ cursor.rest

/-- Moves over the characters of `taken`, which stand right ahead. -/
def advance (cursor : Cursor) (taken : Text) : Cursor :=
  ⟨taken.reverseAux cursor.before, cursor.rest.drop taken.length,
    cursor.offset + taken.byteSize⟩

/-- Moves from `before` and `offset` over the characters of a text while they end at or below
`target`. -/
def seekFrom (before : Text) (offset target : Nat) : Text → Cursor
  | [] => ⟨before, [], offset⟩
  | c :: rest =>
    if offset + c.utf8Size ≤ target then seekFrom (c :: before) (offset + c.utf8Size) target rest
    else ⟨before, c :: rest, offset⟩

/-- Moves forward to the last character boundary at or below `target`. -/
def seek (cursor : Cursor) (target : Nat) : Cursor :=
  seekFrom cursor.before cursor.offset target cursor.rest

/-- Seeking splits the characters ahead in two: those passed, and those that stay ahead. -/
theorem seekFrom_split (before : Text) (offset target : Nat) (rest : Text) :
    ∃ passed ahead, rest = passed ++ ahead ∧
      seekFrom before offset target rest =
        ⟨passed.reverse ++ before, ahead, offset + passed.byteSize⟩ ∧
      (offset ≤ target → offset + passed.byteSize ≤ target) ∧
      ∀ c ∈ ahead.head?, target < offset + passed.byteSize + c.utf8Size := by
  induction rest generalizing before offset with
  | nil => exact ⟨[], [], by simp [seekFrom]⟩
  | cons c rest ih =>
    rw [seekFrom]
    split
    next fits =>
      obtain ⟨passed, ahead, rfl, eq, le, far⟩ := ih (c :: before) (offset + c.utf8Size)
      refine ⟨c :: passed, ahead, rfl, ?_, ?_, ?_⟩
      · simp [eq, Nat.add_assoc]
      · intro _
        have := le fits
        simp only [Text.byteSize_cons]
        omega
      · intro x hx
        have := far x hx
        simp only [Text.byteSize_cons]
        omega
    next stops =>
      refine ⟨[], c :: rest, rfl, by simp, by simp, ?_⟩
      intro x hx
      simp only [List.head?_cons, Option.mem_def, Option.some.injEq] at hx
      subst hx
      simp only [Text.byteSize_nil]
      omega

end Cursor

end TolerantXml
