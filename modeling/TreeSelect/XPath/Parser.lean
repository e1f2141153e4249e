import TreeSelect.Text.Basic

/-!
# Parsers with ordered choice

A parser takes text from a cursor or fails.  A choice takes its first alternative that succeeds and
never comes back to another; a repetition takes as many as it can.  Next to its result a parser
reports the furthest place at which a *rule* failed, also when the failure was made good by another
alternative: that is where the text stops being an expression.

* `rule` marks a parser as a rule, `exactly` and `lexeme` read characters.
* `orElse`, `optional`, `many` and `absent` are choice, option, repetition and negative lookahead.
* `blanks` skips space, tab and line ends, which may stand between any two parts of a rule.
-/

namespace TreeSelect.XPath

/-- A place in a text: the bytes before it and the text after it. -/
structure Cursor where
  offset : Nat
  rest : Text
  deriving DecidableEq, Repr

/-- What a parser did: its value and the cursor behind what it took, or failure; and the furthest
place at which a rule failed on the way. -/
structure Outcome (α : Type) where
  result : Option (α × Cursor)
  furthest : Nat

/-- A parser of values of type `α`. -/
def Parser (α : Type) := Cursor → Outcome α

namespace Parser

variable {α β : Type}

/-- Takes nothing. -/
def succeed (value : α) : Parser α := fun cursor => ⟨some (value, cursor), 0⟩

/-- Takes nothing and fails. -/
def fail : Parser α := fun _ => ⟨none, 0⟩

/-- One parser after another. -/
def andThen (first : Parser α) (next : α → Parser β) : Parser β := fun cursor =>
  match first cursor with
  | ⟨none, furthest⟩ => ⟨none, furthest⟩
  | ⟨some (value, cursor), furthest⟩ =>
    let outcome := next value cursor
    { outcome with furthest := max furthest outcome.furthest }

instance : Monad Parser where
  pure := succeed
  bind := andThen

/-- The second parser where the first one fails. -/
def orElse (first second : Parser α) : Parser α := fun cursor =>
  match first cursor with
  | ⟨some taken, furthest⟩ => ⟨some taken, furthest⟩
  | ⟨none, furthest⟩ =>
    let outcome := second cursor
    { outcome with furthest := max furthest outcome.furthest }

/-- The first parser of a list that succeeds. -/
def oneOf (parsers : List (Parser α)) : Parser α := parsers.foldr orElse fail

/-- A parser that may fail, in which case nothing is taken. -/
def optional (parser : Parser α) : Parser (Option α) :=
  orElse (andThen parser fun value => succeed (some value)) (succeed none)

/-- Takes nothing, where the parser fails. -/
def absent (parser : Parser α) : Parser Unit := fun cursor =>
  match (parser cursor).result with
  | some _ => ⟨none, 0⟩
  | none => ⟨some ((), cursor), 0⟩

/-- A rule of the grammar: where it fails is remembered. -/
def rule (parser : Parser α) : Parser α := fun cursor =>
  match parser cursor with
  | ⟨none, furthest⟩ => ⟨none, max cursor.offset furthest⟩
  | outcome => outcome

/-! ## Characters -/

/-- Takes the lexeme that `scan` finds at the beginning of the text. -/
def lexeme (scan : Text → Option (Text × Text)) : Parser Text := fun cursor =>
  match scan cursor.rest with
  | some (taken, rest) => ⟨some (taken, ⟨cursor.offset + taken.bytes, rest⟩), 0⟩
  | none => ⟨none, 0⟩

/-- The given text at the beginning of another, and what follows it. -/
def scanText (expected : Text) (s : Text) : Option (Text × Text) :=
  if expected.isPrefixOf s then some (expected, s.drop expected.length) else none

/-- Takes exactly the given text. -/
def exactly (expected : Text) : Parser Text := lexeme (scanText expected)

/-- The characters that may stand between the parts of a rule. -/
def isGap (c : Char) : Bool := c == ' ' || c == '\t' || c == '\r' || c == '\n'

/-- Skips the characters that may stand between the parts of a rule. -/
def blanks : Parser Unit := fun cursor =>
  let gap := cursor.rest.takeWhile isGap
  ⟨some ((), ⟨cursor.offset + Text.bytes gap, cursor.rest.dropWhile isGap⟩), 0⟩

/-! ## Repetition -/

/-- As many parts as there are, one directly after another; a part that takes nothing is the
last. -/
def manyDirect (parser : Parser α) (cursor : Cursor) : Outcome (List α) :=
  match parser cursor with
  | ⟨none, furthest⟩ => ⟨some ([], cursor), furthest⟩
  | ⟨some (value, next), furthest⟩ =>
    if _h : next.rest.length < cursor.rest.length then
      match manyDirect parser next with
      | ⟨none, others⟩ => ⟨none, max furthest others⟩
      | ⟨some (values, last), others⟩ => ⟨some (value :: values, last), max furthest others⟩
    else ⟨some ([value], next), furthest⟩
termination_by cursor.rest.length

/-- As many parts as there are, with blanks between them. -/
def many (parser : Parser α) : Parser (List α) :=
  orElse
    (do
      let first ← parser
      let others ← manyDirect (do blanks; parser)
      return first :: others)
    (succeed [])

end Parser
end TreeSelect.XPath
