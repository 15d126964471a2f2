import TolerantXml.Text.CodePoints

/-!
# Blank text

White space here is the Unicode property of that name, which has 25 characters. Text is blank if
it has no other character, and its words are the runs between white space.
-/

namespace TolerantXml.Text

/-- The characters with the Unicode property `White_Space`. -/
def whiteSpace : CodePoints where
  ranges :=
    [(0x9, 0xd), (0x20, 0x20), (0x85, 0x85), (0xa0, 0xa0), (0x1680, 0x1680), (0x2000, 0x200a),
      (0x2028, 0x2029), (0x202f, 0x202f), (0x205f, 0x205f), (0x3000, 0x3000)]

/-- Whether a character has the property `White_Space`. -/
def isWhiteSpace (c : Char) : Bool := whiteSpace.contains c

/-- Blank text has white space only. -/
def isBlank (text : Text) : Bool := text.all isWhiteSpace

/-- The maximal runs of a text without white space. -/
def words (text : Text) : List Text :=
  match _h : text.dropWhile isWhiteSpace with
  | [] => []
  | c :: rest =>
    (c :: rest.takeWhile fun d ↦ !isWhiteSpace d) ::
      words (rest.dropWhile fun d ↦ !isWhiteSpace d)
termination_by text.length
decreasing_by
  have h₁ := (List.dropWhile_suffix (l := text) isWhiteSpace).length_le
  have h₂ := (List.dropWhile_suffix (l := rest) fun d ↦ !isWhiteSpace d).length_le
  rw [_h] at h₁
  simp only [List.length_cons] at h₁
  omega

example : CodePoints.Ordered whiteSpace.ranges = true := by decide

example : (whiteSpace.ranges.map fun range ↦ range.2 + 1 - range.1).sum = 25 := by decide

end TolerantXml.Text
