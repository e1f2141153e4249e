import TreeSelect.Json.Basic

/-!
# Writing JSON

A value is written over several lines: each element and each member stands on a line of its own, two
spaces deeper than the brackets around it.  Arrays and objects without content stay on one line.  In
strings, quote marks, backslashes and control characters are escaped, and all else is as it is.
-/

namespace TreeSelect.Json

/-! ## Scalars -/

/-- A character as it stands in a string. -/
def escapedChar (c : Char) : Text :=
  if c = '"' then "\\\"".toList
  else if c = '\\' then "\\\\".toList
  else if c = '\x08' then "\\b".toList
  else if c = '\x0c' then "\\f".toList
  else if c = '\n' then "\\n".toList
  else if c = '\r' then "\\r".toList
  else if c = '\t' then "\\t".toList
  else if c.toNat < 0x20 then
    let digits := Nat.toDigits 16 c.toNat
    "\\u".toList ++ List.replicate (4 - digits.length) '0' ++ digits
  else [c]

/-- A string between quote marks. -/
def stringText (s : Text) : Text := '"' :: s.flatMap escapedChar ++ ['"']

/-- A number in decimal notation. -/
def numberText (mantissa : Int) (scale : Nat) : Text :=
  let digits := Nat.toDigits 10 mantissa.natAbs
  let padded := List.replicate (scale + 1 - digits.length) '0' ++ digits
  let whole := padded.take (padded.length - scale)
  let fraction := padded.drop (padded.length - scale)
  (if mantissa < 0 then ['-'] else []) ++ whole ++ if scale = 0 then [] else '.' :: fraction

/-! ## Layout -/

/-- The start of a line at a depth. -/
def newLine (depth : Nat) : Text := '\n' :: List.replicate (2 * depth) ' '

/-- Entries in brackets at a depth, each on a line of its own. -/
def bracketLines (opening closing : Char) (depth : Nat) : List Text → Text
  | [] => [opening, closing]
  | entries =>
    opening :: newLine (depth + 1) ++ (',' :: newLine (depth + 1)).intercalate entries ++
      newLine depth ++ [closing]

mutual

/-- A value whose brackets are at a depth. -/
def textAt (depth : Nat) : Json → Text
  | .null => "null".toList
  | .boolean value => if value then "true".toList else "false".toList
  | .number mantissa scale => numberText mantissa scale
  | .string value => stringText value
  | .array elements => bracketLines '[' ']' depth (elementTexts (depth + 1) elements)
  | .object members => bracketLines '\x7b' '\x7d' depth (memberTexts (depth + 1) members)

/-- The elements of an array. -/
def elementTexts (depth : Nat) : List Json → List Text
  | [] => []
  | element :: rest => element.textAt depth :: elementTexts depth rest

/-- The members of an object. -/
def memberTexts (depth : Nat) : List (Text × Json) → List Text
  | [] => []
  | (key, value) :: rest =>
    (stringText key ++ ": ".toList ++ value.textAt depth) :: memberTexts depth rest

end

/-- A value as a text of several lines. -/
def text (value : Json) : Text := value.textAt 0

end TreeSelect.Json
