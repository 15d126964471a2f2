import TolerantXml.Text.Basic

/-!
# Quoted text

A quoted text is set between two equal quotation marks, double or single. The reading is lenient:
the closing mark may be missing, and text without an opening mark is taken as it is.
-/

namespace TolerantXml.Text

/-- The double quotation mark. -/
def doubleQuote : Char := '\x22'

/-- The single quotation mark. -/
def singleQuote : Char := '\x27'

/-- Whether a character opens a quoted text. -/
def isQuote (c : Char) : Bool := c == doubleQuote || c == singleQuote

/-- Takes one pair of quotation marks off a text that opens with one; a text that lacks the
closing mark loses the opening one. -/
def unquote : Text → Text
  | [] => []
  | c :: inner =>
    if isQuote c then
      if inner.getLast? = some c then inner.dropLast else inner
    else c :: inner

/-- Sets a text between two quotation marks. -/
def quote (mark : Char) (inner : Text) : Text := mark :: inner ++ [mark]

theorem unquote_quote {mark : Char} (h : isQuote mark) (inner : Text) :
    unquote (quote mark inner) = inner := by
  simp [unquote, quote, h]

end TolerantXml.Text
