import TreeSelect.Number.Decimal
import TreeSelect.Text.Quoted
import TreeSelect.XPath.Grammar
import TreeSelect.XPath.Rules

/-!
# Expressions from pairs

A match of the grammar is a tree of pairs, and the builder makes an expression of it.  Each function
relies on the pairs that the pattern of its rule gives, and has an error for everything else.
-/

namespace TreeSelect.XPath

/-! ## Errors -/

/-- Why pairs make no expression. -/
inductive BuildError
  | missing (what : Text)
  | unexpected (rule : Rule) (place : Text)
  | unknownOperator (token : Text)
  | unknownAxis (name : Text)
  | unknownNodeType (name : Text)
  | stepWithoutNodeTest
  | emptyUnion
  | invalidNumber (digits : Text)
  deriving DecidableEq, Repr

namespace BuildError

/-- The text of an error. -/
def message : BuildError → Text
  | missing what => "missing ".toList ++ what
  | unexpected rule place => "unexpected ".toList ++ rule.name ++ " in ".toList ++ place
  | unknownOperator token => "unknown operator ".toList ++ token.quoted
  | unknownAxis name => "unknown axis ".toList ++ name.quoted
  | unknownNodeType name => "unknown node type ".toList ++ name.quoted
  | stepWithoutNodeTest => "step without node test".toList
  | emptyUnion => "empty union".toList
  | invalidNumber digits =>
    "invalid number ".toList ++ digits.quoted ++ ": ".toList ++
      if digits.isEmpty then "cannot parse float from empty string".toList
      else "invalid float literal".toList

end BuildError

/-! ## Words -/

/-- All operators. -/
def Operator.all : List Operator :=
  [.or, .and, .eq, .ne, .lt, .le, .gt, .ge, .add, .sub, .div, .mod]

/-- The operator that a sign or a word stands for. -/
def Operator.ofToken? (token : Text) : Option Operator :=
  Operator.all.find? fun operator => operator.token = token

/-- The axis with a name. -/
def Axis.ofName? (name : Text) : Option Axis := Grammar.axes.find? fun axis => axis.name = name

/-- The steps that a separator stands for. -/
def separatorSteps (separator : Text) : List Step :=
  if separator = "//".toList then [.descendantOrSelf] else []

namespace Builder

open TreeSelect.Peg (Pair)

/-! ## Parts of steps -/

/-- The axis that an axis specifier names. -/
def buildAxis : List (Pair Rule) → Except BuildError Axis
  | [] => .error (.missing "axis".toList)
  | pair :: _ =>
    match pair.rule with
    | .abbrevAttr => .ok .attribute
    | _ =>
      match Axis.ofName? pair.text with
      | some axis => .ok axis
      | none => .error (.unknownAxis pair.text)

/-- The test of the kind of a node. -/
def buildKindTest : List (Pair Rule) → Except BuildError NodeTest
  | [] => .error (.missing "node type".toList)
  | kind :: _ =>
    if kind.text = "node".toList then .ok .node
    else if kind.text = "text".toList then .ok .text
    else if kind.text = "comment".toList then .ok .comment
    else .error (.unknownNodeType kind.text)

/-- A node test. -/
def buildNodeTest : List (Pair Rule) → Except BuildError NodeTest
  | [] => .error (.missing "node test".toList)
  | pair :: _ =>
    match pair.rule with
    | .kindTest => buildKindTest pair.inner
    | _ => .ok (if pair.text = ['*'] then .any else .name pair.text)

/-- An operand behind minus signs. -/
def negated : Nat → Expr → Expr
  | 0, operand => operand
  | negations + 1, operand => negated negations (.negate operand)

/-! ## Expressions -/

mutual

/-- The expression that a pair stands for. -/
def buildExpr : Pair Rule → Except BuildError Expr
  | .node rule text inner =>
    match rule with
    | .expr | .primaryExpr | .pathExpr => buildFirst "operand".toList inner
    | .orExpr | .andExpr | .equalityExpr | .relationalExpr | .additiveExpr
    | .multiplicativeExpr => buildChain inner
    | .unaryExpr => buildUnary 0 inner
    | .unionExpr => do
      let branches ← buildAll inner
      if branches.length = 1 then
        match branches.getLast? with
        | some branch => return branch
        | none => .error .emptyUnion
      else return .union branches
    | .filterPath => buildFilterPath inner
    | .filterExpr => buildFilter inner
    | .locationPath => buildLocationPath inner
    | .literal => return .literal ((inner.head?.map Pair.text).getD [])
    | .number =>
      match Number.ofDecimal? text with
      | some value => return .number value
      | none => .error (.invalidNumber text)
    | .functionCall => buildCall inner
    | other => .error (.unexpected other "expression".toList)

/-- The expression of the first pair. -/
def buildFirst (what : Text) : List (Pair Rule) → Except BuildError Expr
  | [] => .error (.missing what)
  | pair :: _ => buildExpr pair

/-- The expressions of all pairs. -/
def buildAll : List (Pair Rule) → Except BuildError (List Expr)
  | [] => return []
  | pair :: pairs => do
    let expr ← buildExpr pair
    let exprs ← buildAll pairs
    return expr :: exprs

/-- A chain of operands, which group to the left. -/
def buildChain : List (Pair Rule) → Except BuildError Expr
  | [] => .error (.missing "operand".toList)
  | pair :: pairs => do
    let left ← buildExpr pair
    buildOperators left pairs

/-- The remainder of a chain behind its left operand. -/
def buildOperators (left : Expr) : List (Pair Rule) → Except BuildError Expr
  | [] => return left
  | [sign] =>
    match Operator.ofToken? sign.text with
    | none => .error (.unknownOperator sign.text)
    | some _ => .error (.missing "right operand".toList)
  | sign :: pair :: pairs =>
    match Operator.ofToken? sign.text with
    | none => .error (.unknownOperator sign.text)
    | some operator => do
      let right ← buildExpr pair
      buildOperators (.binary operator left right) pairs

/-- An operand behind minus signs, of which some have been counted. -/
def buildUnary (negations : Nat) : List (Pair Rule) → Except BuildError Expr
  | [] => .error (.missing "operand after '-'".toList)
  | pair :: pairs =>
    if pair.rule = .neg then buildUnary (negations + 1) pairs
    else do
      let operand ← buildExpr pair
      return negated negations operand

/-- A call of a function. -/
def buildCall : List (Pair Rule) → Except BuildError Expr
  | [] => .error (.missing "function name".toList)
  | name :: pairs => do
    let arguments ← buildAll pairs
    return .call name.text arguments

/-- A primary expression and its predicates. -/
def buildFilter : List (Pair Rule) → Except BuildError Expr
  | [] => .error (.missing "primary expression".toList)
  | pair :: pairs => do
    let primary ← buildExpr pair
    let predicates ← buildPredicates pairs
    return if predicates.isEmpty then primary else .filter primary predicates

/-- A filtered expression, from whose nodes a path may go on. -/
def buildFilterPath : List (Pair Rule) → Except BuildError Expr
  | [] => .error (.missing "filter expression".toList)
  | .node _ _ filter :: pairs => do
    let base ← buildFilter filter
    match pairs with
    | [] => return base
    | [_] => .error (.missing "relative path".toList)
    | separator :: .node _ _ path :: _ => do
      let steps ← buildRelative path
      return .path (.expr base) (separatorSteps separator.text ++ steps)

/-- A path from the root or from the context node. -/
def buildLocationPath : List (Pair Rule) → Except BuildError Expr
  | [] => .error (.missing "location path".toList)
  | .node .absolutePath _ path :: _ => buildAbsolute path
  | .node _ _ path :: _ => do
    let steps ← buildRelative path
    return .path .context steps

/-- A path from the root. -/
def buildAbsolute : List (Pair Rule) → Except BuildError Expr
  | [] => .error (.missing "path anchor".toList)
  | [anchor] => return .path .root (if anchor.rule = .descendantRoot then [.descendantOrSelf] else [])
  | anchor :: .node _ _ path :: _ => do
    let steps ← buildRelative path
    return .path .root
      ((if anchor.rule = .descendantRoot then [.descendantOrSelf] else []) ++ steps)

/-- The steps of a path. -/
def buildRelative : List (Pair Rule) → Except BuildError (List Step)
  | [] => return []
  | .node rule text inner :: pairs =>
    match rule with
    | .pathSep => do
      let steps ← buildRelative pairs
      return separatorSteps text ++ steps
    | .step => do
      let step ← buildStep inner
      let steps ← buildRelative pairs
      return step :: steps
    | other => .error (.unexpected other "path".toList)

/-- A step. -/
def buildStep : List (Pair Rule) → Except BuildError Step
  | [] => .error (.missing "step".toList)
  | .node rule _ inner :: _ =>
    match rule with
    | .abbrevParent => return .mk .parent .node []
    | .abbrevSelf => return .mk .self .node []
    | .axisStep => buildParts .child none [] inner
    | other => .error (.unexpected other "step".toList)

/-- The remaining parts of a step. -/
def buildParts (axis : Axis) (test : Option NodeTest) (predicates : List Expr) :
    List (Pair Rule) → Except BuildError Step
  | [] =>
    match test with
    | none => .error .stepWithoutNodeTest
    | some test => return .mk axis test predicates
  | .node rule _ inner :: pairs =>
    match rule with
    | .axisSpecifier => do
      let axis ← buildAxis inner
      buildParts axis test predicates pairs
    | .nodeTest => do
      let test ← buildNodeTest inner
      buildParts axis (some test) predicates pairs
    | .predicate => do
      let predicate ← buildFirst "predicate expression".toList inner
      buildParts axis test (predicates ++ [predicate]) pairs
    | other => .error (.unexpected other "step".toList)

/-- The conditions of predicates. -/
def buildPredicates : List (Pair Rule) → Except BuildError (List Expr)
  | [] => return []
  | .node _ _ inner :: pairs => do
    let predicate ← buildFirst "predicate expression".toList inner
    let predicates ← buildPredicates pairs
    return predicate :: predicates

end

/-- The expression that the pairs of a match of the whole grammar stand for. -/
def build : List (Pair Rule) → Except BuildError Expr
  | [] => .error (.missing "xpath".toList)
  | root :: _ =>
    match root.inner with
    | [] => .error (.missing "expression".toList)
    | pair :: _ => buildExpr pair

end Builder
end TreeSelect.XPath
