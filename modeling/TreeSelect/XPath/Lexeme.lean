import TreeSelect.XPath.Parser

/-!
# Lexemes of XPath

A lexeme is a run of characters without blanks between them.  Each scanner gives the lexeme at the
beginning of a text and the text after it.  Names use ASCII letters and digits only.
-/

namespace TreeSelect.XPath.Lexeme

/-- The characters with which a name begins. -/
def isNameStart (c : Char) : Bool := c.isAlpha || c == '_'

/-- The characters of a name after the first. -/
def isNameChar (c : Char) : Bool := c.isAlphanum || c == '_' || c == '-' || c == '.'

/-- A name without a colon. -/
def scanPlainName : Text → Option (Text × Text)
  | [] => none
  | c :: rest =>
    if isNameStart c then some (c :: rest.takeWhile isNameChar, rest.dropWhile isNameChar) else none

/-- A name; after a colon a second plain name may follow. -/
def scanName (s : Text) : Option (Text × Text) :=
  match scanPlainName s with
  | none => none
  | some (name, ':' :: rest) =>
    match scanPlainName rest with
    | some (localName, after) => some (name ++ ':' :: localName, after)
    | none => some (name, ':' :: rest)
  | some (name, rest) => some (name, rest)

/-- A name or the star. -/
def scanNameTest (s : Text) : Option (Text × Text) :=
  match s with
  | '*' :: rest => some (['*'], rest)
  | s => scanName s

/-- The first of the given texts with which the text begins. -/
def scanFirst (choices : List Text) (s : Text) : Option (Text × Text) :=
  choices.findSome? fun choice => Parser.scanText choice s

/-- A word after which no name goes on. -/
def scanWord (word : Text) (s : Text) : Option (Text × Text) :=
  match Parser.scanText word s with
  | some (_, c :: rest) => if isNameChar c then none else some (word, c :: rest)
  | some (_, []) => some (word, [])
  | none => none

/-- Digits, after which a point and more digits may follow; or a point and digits. -/
def scanNumber (s : Text) : Option (Text × Text) :=
  let whole := s.takeWhile Char.isDigit
  match s.dropWhile Char.isDigit with
  | '.' :: rest =>
    let fraction := rest.takeWhile Char.isDigit
    if whole.isEmpty && fraction.isEmpty then none
    else some (whole ++ '.' :: fraction, rest.dropWhile Char.isDigit)
  | rest => if whole.isEmpty then none else some (whole, rest)

/-- A string with its quote marks. -/
def scanString : Text → Option (Text × Text)
  | [] => none
  | mark :: rest =>
    if mark = '"' ∨ mark = '\'' then
      (Text.cut? mark rest).map fun parts => (mark :: parts.1 ++ [mark], parts.2)
    else none

end TreeSelect.XPath.Lexeme
