import TreeSelect.Number.Decimal
import TreeSelect.XPath.Expr
import TreeSelect.XPath.Lexeme

/-!
# The grammar of XPath expressions

Each rule of the grammar is a parser that gives the expression it has read.  The rules that hold
expressions in brackets take the parser of those as an argument, and `exprAt` closes the circle: it
reads expressions up to a depth of brackets.  No text has more open brackets than characters, so
`parse` gives a depth that is always enough.

Binary operators group to the left and bind, from the loosest: `or`, `and`, equality, order,
addition, `div` and `mod`; then come the minus sign, `|`, and paths.
-/

namespace TreeSelect.XPath
namespace Grammar

open TreeSelect.XPath.Parser

/-- A lexeme that is a rule of its own. -/
def token (scan : Text → Option (Text × Text)) : Parser Text := rule (lexeme scan)

/-! ## Steps -/

/-- The names of the axes, in the order in which they are tried. -/
def axes : List Axis := [
  .ancestorOrSelf, .ancestor, .attribute, .child, .descendantOrSelf, .descendant,
  .followingSibling, .parent, .precedingSibling, .self]

/-- The name of an axis. -/
def axisName : Parser Axis :=
  rule (oneOf (axes.map fun axis => do
    let _ ← exactly axis.name
    return axis))

/-- An axis: its name before two colons, or the sign `@`. -/
def axisSpecifier : Parser Axis :=
  rule (orElse
    (rule do
      let _ ← exactly "@".toList
      return .attribute)
    (do
      let axis ← axisName
      blanks
      let _ ← exactly "::".toList
      return axis))

/-- The kinds of nodes that have a test of their own. -/
def nodeType : Parser NodeTest :=
  rule (oneOf [
    (do let _ ← exactly "node".toList; return .node),
    (do let _ ← exactly "text".toList; return .text),
    (do let _ ← exactly "comment".toList; return .comment)])

/-- A test of the kind of a node. -/
def kindTest : Parser NodeTest := rule do
  let test ← nodeType
  blanks
  let _ ← exactly "(".toList
  blanks
  let _ ← exactly ")".toList
  return test

/-- A test of the name of a node. -/
def nameTest : Parser NodeTest := do
  let name ← token Lexeme.scanNameTest
  return if name = ['*'] then .any else .name name

/-- A node test. -/
def nodeTest : Parser NodeTest := rule (orElse kindTest nameTest)

/-- An expression in square brackets. -/
def predicate (expr : Parser Expr) : Parser Expr := rule do
  let _ ← exactly "[".toList
  blanks
  let condition ← expr
  blanks
  let _ ← exactly "]".toList
  return condition

/-- A step with an axis that may be left out, a node test and predicates. -/
def axisStep (expr : Parser Expr) : Parser Step := rule do
  let axis ← optional axisSpecifier
  blanks
  let test ← nodeTest
  blanks
  let predicates ← many (predicate expr)
  return .mk (axis.getD .child) test predicates

/-- A step. -/
def step (expr : Parser Expr) : Parser Step :=
  rule (oneOf [
    rule (do let _ ← exactly "..".toList; return .mk .parent .node []),
    rule (do let _ ← exactly ".".toList; return .mk .self .node []),
    axisStep expr])

/-! ## Paths -/

/-- The steps that stand before the next one: `//` stands for one, `/` for none. -/
def pathSeparator : Parser (List Step) := do
  let sign ← token (Lexeme.scanFirst ["//".toList, "/".toList])
  return if sign = "//".toList then [.descendantOrSelf] else []

/-- Steps with separators between them. -/
def relativePath (expr : Parser Expr) : Parser (List Step) := rule do
  let first ← step expr
  blanks
  let others ← many do
    let skipped ← pathSeparator
    blanks
    let next ← step expr
    return skipped ++ [next]
  return first :: others.flatten

/-- A path from the root. -/
def absolutePath (expr : Parser Expr) : Parser Expr :=
  rule (orElse
    (do
      let _ ← rule (exactly "//".toList)
      blanks
      let steps ← relativePath expr
      return .path .root (.descendantOrSelf :: steps))
    (do
      let _ ← rule (exactly "/".toList)
      blanks
      let steps ← optional (relativePath expr)
      return .path .root (steps.getD [])))

/-- A path from the root or from the context node. -/
def locationPath (expr : Parser Expr) : Parser Expr :=
  rule (orElse (absolutePath expr) do
    let steps ← relativePath expr
    return .path .context steps)

/-! ## Primary expressions -/

/-- A string. -/
def literal : Parser Expr := do
  let quoted ← token Lexeme.scanString
  return .literal (quoted.drop 1).dropLast

/-- A number. -/
def number : Parser Expr := do
  let digits ← token Lexeme.scanNumber
  return .number ((Number.ofDecimal? digits).getD .nan)

/-- The arguments of a call. -/
def arguments (expr : Parser Expr) : Parser (List Expr) := do
  let first ← expr
  blanks
  let others ← many do
    let _ ← exactly ",".toList
    blanks
    expr
  return first :: others

/-- A call of a function; a test of the kind of a node is none. -/
def functionCall (expr : Parser Expr) : Parser Expr := rule do
  absent do
    let _ ← nodeType
    blanks
    exactly "(".toList
  blanks
  let name ← token Lexeme.scanName
  blanks
  let _ ← exactly "(".toList
  blanks
  let values ← optional (arguments expr)
  blanks
  let _ ← exactly ")".toList
  return .call name (values.getD [])

/-- An expression in parentheses, a string, a number or a call. -/
def primary (expr : Parser Expr) : Parser Expr :=
  rule (oneOf [
    (do
      let _ ← exactly "(".toList
      blanks
      let inner ← expr
      blanks
      let _ ← exactly ")".toList
      return inner),
    literal,
    number,
    functionCall expr])

/-- A primary expression and the predicates that filter its nodes. -/
def filterExpr (expr : Parser Expr) : Parser Expr := rule do
  let inner ← primary expr
  blanks
  let predicates ← many (predicate expr)
  return if predicates.isEmpty then inner else .filter inner predicates

/-- A primary expression, from whose nodes a path may go on. -/
def filterPath (expr : Parser Expr) : Parser Expr := rule do
  let base ← filterExpr expr
  blanks
  let steps ← optional do
    let skipped ← pathSeparator
    blanks
    let steps ← relativePath expr
    return skipped ++ steps
  return match steps with
    | none => base
    | some steps => .path (.expr base) steps

/-- A path of either kind. -/
def pathExpr (expr : Parser Expr) : Parser Expr :=
  rule (orElse (filterPath expr) (locationPath expr))

/-! ## Operators -/

/-- Operands with operators between them, which group to the left. -/
def chain (operand : Parser Expr) (operator : Parser Operator) : Parser Expr := rule do
  let first ← operand
  blanks
  let others ← many do
    let operator ← operator
    blanks
    let right ← operand
    return (operator, right)
  return others.foldl (fun left other => .binary other.1 left other.2) first

/-- An operator that is a sign. -/
def signOperator (operators : List Operator) : Parser Operator :=
  rule (oneOf (operators.map fun operator => do
    let _ ← exactly operator.token
    return operator))

/-- An operator that is a word. -/
def wordOperator (operator : Operator) : Parser Operator := do
  let _ ← token (Lexeme.scanWord operator.token)
  return operator

/-- Paths with `|` between them. -/
def unionExpr (expr : Parser Expr) : Parser Expr := rule do
  let first ← pathExpr expr
  blanks
  let others ← many do
    let _ ← exactly "|".toList
    blanks
    pathExpr expr
  return if others.isEmpty then first else .union (first :: others)

/-- A union behind minus signs. -/
def unaryExpr (expr : Parser Expr) : Parser Expr := rule do
  let signs ← many (rule (exactly "-".toList))
  blanks
  let operand ← unionExpr expr
  return signs.foldl (fun operand _ => .negate operand) operand

/-- Operands of `div` and `mod`. -/
def multiplicative (expr : Parser Expr) : Parser Expr :=
  chain (unaryExpr expr) (orElse (wordOperator .div) (wordOperator .mod))

/-- Operands of `+` and `-`. -/
def additive (expr : Parser Expr) : Parser Expr :=
  chain (multiplicative expr) (signOperator [.add, .sub])

/-- Operands of the order signs. -/
def relational (expr : Parser Expr) : Parser Expr :=
  chain (additive expr) (signOperator [.le, .ge, .lt, .gt])

/-- Operands of the equality signs. -/
def equality (expr : Parser Expr) : Parser Expr :=
  chain (relational expr) (signOperator [.ne, .eq])

/-- Operands of `and`. -/
def conjunction (expr : Parser Expr) : Parser Expr := chain (equality expr) (wordOperator .and)

/-- Operands of `or`. -/
def disjunction (expr : Parser Expr) : Parser Expr := chain (conjunction expr) (wordOperator .or)

/-! ## Expressions -/

/-- An expression with brackets at most `depth` deep. -/
def exprAt : Nat → Cursor → Outcome Expr
  | 0, _ => ⟨none, 0⟩
  | depth + 1, cursor => rule (disjunction (exprAt depth)) cursor

/-- The end of the text. -/
def atEnd : Parser Unit :=
  rule fun cursor => ⟨if cursor.rest.isEmpty then some ((), cursor) else none, 0⟩

/-- A whole text. -/
def whole (expr : Parser Expr) : Parser Expr := rule do
  blanks
  let result ← expr
  blanks
  atEnd
  return result

end Grammar

/-- The expression that a text writes, or the byte position at which it stops being one. -/
def parse (s : Text) : Except Nat Expr :=
  let outcome := Grammar.whole (Grammar.exprAt (s.length + 1)) ⟨0, s⟩
  match outcome.result with
  | some (expr, _) => .ok expr
  | none => .error outcome.furthest

end TreeSelect.XPath
