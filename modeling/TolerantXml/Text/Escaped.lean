import TolerantXml.Text.ShownTable
import TolerantXml.Text.Quoted

/-!
# Escaped text

Text in double quotation marks for a person to read: characters that would not show, or that would
end the quotation, are written as escapes.
-/

namespace TolerantXml.Text

/-- The digits of a number in base 16, in lower case. -/
def hexDigits (n : Nat) : Text := Nat.toDigits 16 n

/-- The brace that opens the digits of an escape. -/
def openBrace : Char := '\x7b'

/-- The brace that closes the digits of an escape. -/
def closeBrace : Char := '\x7d'

/-- A character as it is shown between double quotation marks. -/
def escapeChar (c : Char) : Text :=
  if c = '\x00' then ['\\', '0']
  else if c = '\t' then ['\\', 't']
  else if c = '\n' then ['\\', 'n']
  else if c = '\r' then ['\\', 'r']
  else if c = doubleQuote then ['\\', doubleQuote]
  else if c = '\\' then ['\\', '\\']
  else if shown.contains c then [c]
  else ['\\', 'u', openBrace] ++ hexDigits c.toNat ++ [closeBrace]

/-- A text as it is shown, with its quotation marks. -/
def escaped (text : Text) : Text := quote doubleQuote (text.flatMap escapeChar)

example : CodePoints.Ordered shown.ranges = true := by decide +kernel

example : ['\u115f', '\u1160', '\u3164', '\uffa0'].any shown.contains = false := by
  decide +kernel

example : ['\uff9e', '\uff9f'].all shown.contains = true := by decide +kernel

end TolerantXml.Text
