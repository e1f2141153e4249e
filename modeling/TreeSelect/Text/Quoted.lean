import TreeSelect.Text.Printable

/-!
# Quoted text

A quoted text stands between two quote marks on one line and shows every character: the quote mark
and the backslash get a backslash before them, the null character, tab and the line ends have short
forms, and a character that cannot be shown on its own is written by its code point in braces.
-/

namespace TreeSelect.Text

/-- The form of one character between the quote marks `mark`. -/
def escaped (mark c : Char) : Text :=
  if c = '\\' ∨ c = mark then ['\\', c]
  else if c = '\x00' then "\\0".toList
  else if c = '\t' then "\\t".toList
  else if c = '\r' then "\\r".toList
  else if c = '\n' then "\\n".toList
  else if isPrintable c then [c]
  else "\\u\x7b".toList ++ Nat.toDigits 16 c.toNat ++ ['\x7d']

/-- The text between double quotes. -/
def quoted (s : Text) : Text := '"' :: s.flatMap (escaped '"') ++ ['"']

/-- The character between single quotes. -/
def quotedChar (c : Char) : Text := '\'' :: escaped '\'' c ++ ['\'']

end TreeSelect.Text
