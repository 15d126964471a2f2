import TolerantXml.Text.CaseTable

/-!
# Lower case

The full lower-case form of a text: one character may become two, and a capital sigma that ends a
word becomes the final form of the letter.
-/

namespace TolerantXml.Text

/-- Whether a code point of the run has a lower-case form. -/
def CaseRun.covers (run : CaseRun) (code : Nat) : Bool :=
  run.first ≤ code && code ≤ run.last && (code - run.first) % run.step == 0

/-- The lower-case form of a character that stands alone. -/
def lowercaseChar (c : Char) : Text :=
  if c = '\u0130' then ['i', '\u0307']
  else
    match lowercaseRuns.find? (·.covers c.toNat) with
    | some run => [Char.ofNat (run.image + (c.toNat - run.first))]
    | none => [c]

/-- Whether the first character that is not ignored for case is a cased one. -/
def meetsCased (text : Text) : Bool :=
  match text.dropWhile caseIgnorable.contains with
  | c :: _ => cased.contains c
  | [] => false

/-- A place ends a word if a cased character comes before it and none follows. -/
def endsWord (before rest : Text) : Bool := meetsCased before && !meetsCased rest

/-- The lower-case form of a text that follows `before`, whose nearest character comes first. -/
def lowercaseAfter (before : Text) : Text → Text
  | [] => []
  | c :: rest =>
    (if c = 'Σ' then [if endsWord before rest then 'ς' else 'σ'] else lowercaseChar c) ++
      lowercaseAfter (c :: before) rest

/-- The lower-case form of a text. -/
def lowercase (text : Text) : Text := lowercaseAfter [] text

example : CodePoints.Ordered cased.ranges = true := by decide +kernel

example : CodePoints.Ordered caseIgnorable.ranges = true := by decide +kernel

example : lowercase ['Α', 'Σ', '.', 'Β', ' ', 'Α', 'Σ', '.'] =
    ['α', 'σ', '.', 'β', ' ', 'α', 'ς', '.'] := by decide +kernel

end TolerantXml.Text
