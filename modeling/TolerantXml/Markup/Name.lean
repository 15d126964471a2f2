import TolerantXml.Text.Basic

/-!
# Characters of markup

The character classes that markup is read with. Every character outside ASCII may stand in a name,
so a name in any script is read as a whole; white space between the parts of markup is ASCII only.
-/

namespace TolerantXml

/-- Whether a character is outside ASCII. -/
def isNonAscii (c : Char) : Bool := 128 ≤ c.toNat

/-- Whether a character may start a name. -/
def isNameStart (c : Char) : Bool := c.isAlpha || c == '_' || c == ':' || isNonAscii c

/-- Whether a character may stand inside a name. -/
def isNameChar (c : Char) : Bool :=
  c.isAlphanum || c == '_' || c == ':' || c == '-' || c == '.' || isNonAscii c

/-- Whether a character separates the parts of markup. -/
def isSpace (c : Char) : Bool := c == ' ' || c == '\t' || c == '\n' || c == '\r'

/-- A character that may start a name may stand inside it. -/
theorem isNameChar_of_isNameStart {c : Char} (h : isNameStart c) : isNameChar c := by
  simp only [isNameStart, Bool.or_eq_true] at h
  simp only [isNameChar, Char.isAlphanum, Bool.or_eq_true]
  rcases h with ((h | h) | h) | h <;> simp [h]

end TolerantXml
