import TolerantXml.Text.Basic

/-!
# Sets of characters

A property of characters is a list of inclusive ranges of code points in increasing order.
-/

namespace TolerantXml

/-- A set of characters, as ranges of code points in increasing order. -/
structure CodePoints where
  /-- The first and the last code point of each range. -/
  ranges : List (Nat × Nat)

namespace CodePoints

/-- A character is in the set if its code point lies in one of the ranges. -/
def contains (set : CodePoints) (c : Char) : Bool :=
  set.ranges.any fun range ↦ range.1 ≤ c.toNat && c.toNat ≤ range.2

/-- Each range is in order and ends before the next one starts. -/
def Ordered : List (Nat × Nat) → Bool
  | [] => true
  | [range] => range.1 ≤ range.2
  | range :: next :: ranges =>
    range.1 ≤ range.2 && range.2 < next.1 && Ordered (next :: ranges)

end CodePoints

end TolerantXml
