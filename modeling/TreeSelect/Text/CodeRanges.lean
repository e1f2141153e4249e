import TreeSelect.Text.Basic

/-!
# Sets of characters as ranges of code points

A property of characters is given by the ranges of code points that have it.
-/

namespace TreeSelect

/-- A set of code points: each pair is the first and the last of a range. -/
abbrev CodeRanges := List (Nat × Nat)

/-- Whether a range of the set holds the character. -/
def CodeRanges.contains (ranges : CodeRanges) (c : Char) : Bool :=
  ranges.any fun range => range.1 ≤ c.toNat && c.toNat ≤ range.2

end TreeSelect
