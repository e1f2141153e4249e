import TreeSelect.Number.Decimal
import TreeSelect.XPath.Expr
import TreeSelect.XPath.Lexeme

/-!
# Tokens of XPath expressions

`Expr.tokens` writes an expression as tokens, with axes and node tests in full.  An operand that
binds looser than its place stands in parentheses; a printer may add parentheses where none are
needed, which is what the argument `spare` decides.

A token does not fix its text: a number can be written by different digits and a string between
either kind of quote marks.  `Spelled` says which texts spell tokens, with gaps between them.
-/

namespace TreeSelect.XPath

/-! ## Tokens and their texts -/

/-- A token of an expression. -/
inductive Token
  /-- A name, a word or a sign. -/
  | fixed (text : Text)
  | number (value : Number)
  | literal (value : Text)

/-- Whether a text spells a token: a number by digits with this value, and a string between quote
marks of a kind that it does not hold. -/
def Token.Spells : Token → Text → Prop
  | .fixed text, s => s = text ∧ text ≠ [] ∧ ∀ c ∈ text, Parser.isGap c = false
  | .number value, s =>
    Lexeme.scanNumber s = some (s, []) ∧ (Number.ofDecimal? s).getD .nan = value
  | .literal value, s =>
    ∃ mark, (mark = '"' ∨ mark = '\'') ∧ mark ∉ value ∧ s = mark :: value ++ [mark]

/-- Whether a text spells tokens: each of them in turn with a gap between any two neighbours, which
is not empty.  There may be gaps before the first token and behind the last one, too. -/
def Spelled : List Token → Text → Prop
  | [], s => ∀ c ∈ s, Parser.isGap c = true
  | token :: tokens, s =>
    ∃ gap spelled rest, s = gap ++ spelled ++ rest ∧ (∀ c ∈ gap, Parser.isGap c = true) ∧
      token.Spells spelled ∧ (∀ c ∈ rest.head?, Parser.isGap c = true) ∧ Spelled tokens rest

/-! ## Levels -/

/-- How tightly an operator binds. -/
def Operator.level : Operator → Nat
  | .or => 1
  | .and => 2
  | .eq | .ne => 3
  | .lt | .le | .gt | .ge => 4
  | .add | .sub => 5
  | .div | .mod => 6

/-- How tightly an expression binds: above the operators come the minus sign, unions, paths, filters
and primary expressions.  The path that is the root alone binds loosest, since a name behind its slash
would be taken for a step. -/
def Expr.level : Expr → Nat
  | .path .root [] => 0
  | .binary operator _ _ => operator.level
  | .negate _ => 7
  | .union _ => 8
  | .path _ _ => 9
  | .filter _ _ => 10
  | .number _ | .literal _ | .call _ _ => 11

/-! ## Expressions as tokens -/

/-- The tokens of a node test. -/
def NodeTest.tokens : NodeTest → List Token
  | .any => [.fixed ['*']]
  | .name expected => [.fixed expected]
  | .node => [.fixed "node".toList, .fixed ['('], .fixed [')']]
  | .text => [.fixed "text".toList, .fixed ['('], .fixed [')']]
  | .comment => [.fixed "comment".toList, .fixed ['('], .fixed [')']]

variable (spare : Nat → Expr → Bool)

/-- The tokens of an expression in a place for expressions of some level, in parentheses where it
needs them or where `spare` wants them. -/
def enclosed (level : Nat) (expr : Expr) (tokens : List Token) : List Token :=
  if expr.level < level ∨ spare level expr = true then
    .fixed ['('] :: tokens ++ [.fixed [')']]
  else tokens

mutual

/-- The tokens of an expression without parentheses around it. -/
def Expr.bare : Expr → List Token
  | .number value => [.number value]
  | .literal value => [.literal value]
  | .path start steps =>
    match start with
    | .root => if steps.isEmpty then [.fixed ['/']] else furtherSteps steps
    | .context => (furtherSteps steps).tail
    | .expr nodes => enclosed spare 10 nodes nodes.bare ++ furtherSteps steps
  | .filter primary predicates => enclosed spare 11 primary primary.bare ++ brackets predicates
  | .call function arguments =>
    .fixed function :: .fixed ['('] :: (separated 0 [','] arguments).tail ++ [.fixed [')']]
  | .binary operator left right =>
    enclosed spare operator.level left left.bare ++
      .fixed operator.token :: enclosed spare (operator.level + 1) right right.bare
  | .negate operand => .fixed ['-'] :: enclosed spare 7 operand operand.bare
  | .union branches => (separated 9 ['|'] branches).tail

/-- The tokens of expressions of some level, each behind a separator. -/
def separated (level : Nat) (separator : Text) : List Expr → List Token
  | [] => []
  | expr :: exprs =>
    .fixed separator :: enclosed spare level expr expr.bare ++ separated level separator exprs

/-- The tokens of predicates in their brackets. -/
def brackets : List Expr → List Token
  | [] => []
  | predicate :: predicates =>
    .fixed ['['] :: enclosed spare 0 predicate predicate.bare ++ .fixed [']'] :: brackets predicates

/-- The tokens of steps, each behind a slash. -/
def furtherSteps : List Step → List Token
  | [] => []
  | .mk axis test predicates :: steps =>
    .fixed ['/'] :: .fixed axis.name :: .fixed "::".toList :: test.tokens ++ brackets predicates ++
      furtherSteps steps

end

theorem Expr.bare_number (value : Number) : (Expr.number value).bare spare = [.number value] := by
  rw [Expr.bare]

theorem Expr.bare_literal (value : Text) : (Expr.literal value).bare spare = [.literal value] := by
  rw [Expr.bare]

/-- The tokens of an expression. -/
def Expr.tokens (expr : Expr) : List Token := enclosed spare 0 expr (expr.bare spare)

end TreeSelect.XPath
