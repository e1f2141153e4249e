import TreeSelect.Peg.Basic
import TreeSelect.XPath.Expr
import TreeSelect.XPath.Lexeme

/-!
# The rules of XPath expressions

The grammar of the XPath subset as a table: which rules there are, what each of them does about gaps
and pairs, and its pattern.
-/

namespace TreeSelect.XPath

/-- The rules of the grammar. -/
inductive Rule
  | whitespace
  | endOfInput
  | xpath
  | expr
  | orExpr
  | andExpr
  | equalityExpr
  | relationalExpr
  | additiveExpr
  | multiplicativeExpr
  | unaryExpr
  | unionExpr
  | equalityOp
  | relationalOp
  | additiveOp
  | neg
  | pathExpr
  | filterPath
  | filterExpr
  | primaryExpr
  | functionCall
  | functionName
  | locationPath
  | absolutePath
  | descendantRoot
  | root
  | relativePath
  | pathSep
  | step
  | abbrevParent
  | abbrevSelf
  | axisStep
  | axisSpecifier
  | abbrevAttr
  | axisName
  | nodeTest
  | kindTest
  | nodeType
  | nameTest
  | predicate
  | literal
  | doubleQuoted
  | singleQuoted
  | number
  | qname
  | ncname
  | nameChar
  | keywordOr
  | keywordAnd
  | keywordDiv
  | keywordMod
  deriving DecidableEq, Repr

namespace Rule

/-- The name of a rule in messages. -/
def name : Rule → Text
  | .whitespace => "WHITESPACE".toList
  | .endOfInput => "EOI".toList
  | .xpath => "xpath".toList
  | .expr => "expr".toList
  | .orExpr => "or_expr".toList
  | .andExpr => "and_expr".toList
  | .equalityExpr => "equality_expr".toList
  | .relationalExpr => "relational_expr".toList
  | .additiveExpr => "additive_expr".toList
  | .multiplicativeExpr => "multiplicative_expr".toList
  | .unaryExpr => "unary_expr".toList
  | .unionExpr => "union_expr".toList
  | .equalityOp => "equality_op".toList
  | .relationalOp => "relational_op".toList
  | .additiveOp => "additive_op".toList
  | .neg => "neg".toList
  | .pathExpr => "path_expr".toList
  | .filterPath => "filter_path".toList
  | .filterExpr => "filter_expr".toList
  | .primaryExpr => "primary_expr".toList
  | .functionCall => "function_call".toList
  | .functionName => "function_name".toList
  | .locationPath => "location_path".toList
  | .absolutePath => "absolute_path".toList
  | .descendantRoot => "descendant_root".toList
  | .root => "root".toList
  | .relativePath => "relative_path".toList
  | .pathSep => "path_sep".toList
  | .step => "step".toList
  | .abbrevParent => "abbrev_parent".toList
  | .abbrevSelf => "abbrev_self".toList
  | .axisStep => "axis_step".toList
  | .axisSpecifier => "axis_specifier".toList
  | .abbrevAttr => "abbrev_attr".toList
  | .axisName => "axis_name".toList
  | .nodeTest => "node_test".toList
  | .kindTest => "kind_test".toList
  | .nodeType => "node_type".toList
  | .nameTest => "name_test".toList
  | .predicate => "predicate".toList
  | .literal => "literal".toList
  | .doubleQuoted => "dq_inner".toList
  | .singleQuoted => "sq_inner".toList
  | .number => "number".toList
  | .qname => "qname".toList
  | .ncname => "ncname".toList
  | .nameChar => "name_char".toList
  | .keywordOr => "K_OR".toList
  | .keywordAnd => "K_AND".toList
  | .keywordDiv => "K_DIV".toList
  | .keywordMod => "K_MOD".toList

open Peg (Modifier)

/-- What a rule does about gaps and pairs. -/
def modifier : Rule → Modifier
  | .whitespace | .nameChar => .silent
  | .literal => .compound
  | .equalityOp | .relationalOp | .additiveOp | .neg | .functionName | .pathSep | .axisName
  | .nodeType | .nameTest | .doubleQuoted | .singleQuoted | .number | .qname | .ncname
  | .keywordOr | .keywordAnd | .keywordDiv | .keywordMod => .atomic
  | _ => .normal

open Peg.Pattern (sequence firstOf many atLeastOne)

/-- A given text. -/
def sign (expected : String) : Peg.Pattern Rule := .text expected.toList

/-- An operator of the grammar that is a word: no name goes on behind it. -/
def keyword (word : String) : Peg.Pattern Rule := sequence (sign word) [.absent (.rule .nameChar)]

/-- Operands with operators between them. -/
def operands (operand : Rule) (operator : Peg.Pattern Rule) : Peg.Pattern Rule :=
  sequence (.rule operand) [many (sequence operator [.rule operand])]

/-- The characters up to a quote mark. -/
def unquoted (mark : String) : Peg.Pattern Rule :=
  many (sequence (.absent (sign mark)) [.char fun _ => true])

/-- The pattern of a rule. -/
def body : Rule → Peg.Pattern Rule
  | .whitespace => firstOf (sign " ") [sign "\t", sign "\r", sign "\n"]
  | .endOfInput => .finish
  | .xpath => sequence .start [.rule .expr, .rule .endOfInput]
  | .expr => .rule .orExpr
  | .orExpr => operands .andExpr (.rule .keywordOr)
  | .andExpr => operands .equalityExpr (.rule .keywordAnd)
  | .equalityExpr => operands .relationalExpr (.rule .equalityOp)
  | .relationalExpr => operands .additiveExpr (.rule .relationalOp)
  | .additiveExpr => operands .multiplicativeExpr (.rule .additiveOp)
  | .multiplicativeExpr =>
    operands .unaryExpr (firstOf (.rule .keywordDiv) [.rule .keywordMod])
  | .unaryExpr => sequence (many (.rule .neg)) [.rule .unionExpr]
  | .unionExpr => operands .pathExpr (sign "|")
  | .equalityOp => firstOf (sign "!=") [sign "="]
  | .relationalOp => firstOf (sign "<=") [sign ">=", sign "<", sign ">"]
  | .additiveOp => firstOf (sign "+") [sign "-"]
  | .neg => sign "-"
  | .pathExpr => firstOf (.rule .filterPath) [.rule .locationPath]
  | .filterPath =>
    sequence (.rule .filterExpr) [.optional (sequence (.rule .pathSep) [.rule .relativePath])]
  | .filterExpr => sequence (.rule .primaryExpr) [many (.rule .predicate)]
  | .primaryExpr =>
    firstOf (sequence (sign "(") [.rule .expr, sign ")"])
      [.rule .literal, .rule .number, .rule .functionCall]
  | .functionCall =>
    sequence (.absent (sequence (.rule .nodeType) [sign "("])) [.rule .functionName, sign "(",
      .optional (sequence (.rule .expr) [many (sequence (sign ",") [.rule .expr])]), sign ")"]
  | .functionName => .rule .qname
  | .locationPath => firstOf (.rule .absolutePath) [.rule .relativePath]
  | .absolutePath =>
    firstOf (sequence (.rule .descendantRoot) [.rule .relativePath])
      [sequence (.rule .root) [.optional (.rule .relativePath)]]
  | .descendantRoot => sign "//"
  | .root => sign "/"
  | .relativePath => operands .step (.rule .pathSep)
  | .pathSep => firstOf (sign "//") [sign "/"]
  | .step => firstOf (.rule .abbrevParent) [.rule .abbrevSelf, .rule .axisStep]
  | .abbrevParent => sign ".."
  | .abbrevSelf => sign "."
  | .axisStep =>
    sequence (.optional (.rule .axisSpecifier)) [.rule .nodeTest, many (.rule .predicate)]
  | .axisSpecifier => firstOf (.rule .abbrevAttr) [sequence (.rule .axisName) [sign "::"]]
  | .abbrevAttr => sign "@"
  | .axisName =>
    firstOf (sign "ancestor-or-self") [sign "ancestor", sign "attribute", sign "child",
      sign "descendant-or-self", sign "descendant", sign "following-sibling", sign "parent",
      sign "preceding-sibling", sign "self"]
  | .nodeTest => firstOf (.rule .kindTest) [.rule .nameTest]
  | .kindTest => sequence (.rule .nodeType) [sign "(", sign ")"]
  | .nodeType => firstOf (sign "node") [sign "text", sign "comment"]
  | .nameTest => firstOf (sign "*") [.rule .qname]
  | .predicate => sequence (sign "[") [.rule .expr, sign "]"]
  | .literal =>
    firstOf (sequence (sign "\"") [.rule .doubleQuoted, sign "\""])
      [sequence (sign "'") [.rule .singleQuoted, sign "'"]]
  | .doubleQuoted => unquoted "\""
  | .singleQuoted => unquoted "'"
  | .number =>
    firstOf
      (sequence (atLeastOne (.char Char.isDigit))
        [.optional (sequence (sign ".") [many (.char Char.isDigit)])])
      [sequence (sign ".") [atLeastOne (.char Char.isDigit)]]
  | .qname => sequence (.rule .ncname) [.optional (sequence (sign ":") [.rule .ncname])]
  | .ncname =>
    sequence (firstOf (.char Char.isAlpha) [sign "_"]) [many (.rule .nameChar)]
  | .nameChar => firstOf (.char Char.isAlphanum) [sign "_", sign "-", sign "."]
  | .keywordOr => keyword "or"
  | .keywordAnd => keyword "and"
  | .keywordDiv => keyword "div"
  | .keywordMod => keyword "mod"

end Rule

/-- The grammar of XPath expressions. -/
def grammar : Peg.Grammar Rule where
  modifier := Rule.modifier
  body := Rule.body
  gap := .whitespace

end TreeSelect.XPath
