import TreeSelect.Text.CodeRanges

/-!
# Blank characters

The blank characters are those with the Unicode property White_Space.  Trimming removes them from
the ends of a text, and the words of a text are the pieces between them.
-/

namespace TreeSelect.Text

/-- The code points with the property White_Space. -/
def blankRanges : CodeRanges := [
  (0x9, 0xd), (0x20, 0x20), (0x85, 0x85), (0xa0, 0xa0), (0x1680, 0x1680), (0x2000, 0x200a),
  (0x2028, 0x2029), (0x202f, 0x202f), (0x205f, 0x205f), (0x3000, 0x3000)]

/-- Whether a character is blank. -/
def isBlank (c : Char) : Bool := blankRanges.contains c

/-- The text from its first character that is not blank. -/
def trimStart (s : Text) : Text := s.dropWhile isBlank

/-- The text up to its last character that is not blank. -/
def trimEnd (s : Text) : Text := (s.reverse.dropWhile isBlank).reverse

/-- The text without the blank characters at its ends. -/
def trim (s : Text) : Text := s.trimStart.trimEnd

/-- The longest pieces of the text that hold no blank character. -/
def words (s : Text) : List Text := (s.splitWhere isBlank).filter (!·.isEmpty)

/-- The text's words with one space between neighbours. -/
def collapseBlanks (s : Text) : Text := [' '].intercalate s.words

end TreeSelect.Text
