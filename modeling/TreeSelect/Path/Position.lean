import TreeSelect.Text.Basic

/-!
# Conditions on the position among siblings

Numbers are kept as digits, so that a number of any length is written as it was given.
-/

namespace TreeSelect

/-- A condition on the position of an element among those that its step selects. -/
inductive Position
  | first
  | last
  | odd
  | even
  /-- The position `n`. -/
  | index (n : Text)
  /-- The positions `offset`, `offset + multiple`, `offset + 2 * multiple` and so on. -/
  | cycle (multiple offset : Text)
  /-- A condition that the caller wrote. -/
  | raw (condition : Text)
  deriving DecidableEq, Repr

/-- The condition as a predicate of a path.  The even positions get a lower bound that always
holds, as the odd ones get theirs. -/
def Position.text : Position → Text
  | .first => "1".toList
  | .last => "last()".toList
  | .odd => "(position()-1) mod 2 = 0 and position() >= 1".toList
  | .even => "position() mod 2 = 0 and position() >= 0".toList
  | .index n => "position() = ".toList ++ n
  | .cycle multiple offset =>
    "(position()-".toList ++ offset ++ ") mod ".toList ++ multiple ++
      " = 0 and position() >= ".toList ++ offset
  | .raw condition => condition

end TreeSelect
