import TreeSelect.Text.Basic

/-!
# String literals of paths

A path writes a string between two quote marks of one kind and has no way to write such a mark inside
them.  A string with quote marks of both kinds is therefore written as a `concat` of pieces.
-/

namespace TreeSelect.Text

/-- The text between single quotes. -/
def singleQuoted (s : Text) : Text := '\'' :: s ++ ['\'']

/-- The expression of a path whose value is the text: single quotes where they can be used, else
double quotes, else the pieces between single quotes joined by `"'"`. -/
def literal (s : Text) : Text :=
  if '\'' ∉ s then s.singleQuoted
  else if '"' ∉ s then '"' :: s ++ ['"']
  else
    "concat(".toList ++
      ", \"'\", ".toList.intercalate ((s.split '\'').map singleQuoted) ++ [')']

end TreeSelect.Text
