import TreeSelect.Number.Basic
import TreeSelect.Text.Basic

/-!
# XPath expressions

The expressions of an XPath 1.0 subset: location paths with predicates, unions, the operators except
multiplication, and function calls.  Abbreviations are written out: `//` is a step of its own.
-/

namespace TreeSelect.XPath

/-- The directions in which a step looks from its node. -/
inductive Axis
  | child
  | descendant
  | descendantOrSelf
  | self
  | parent
  | attribute
  | ancestor
  | ancestorOrSelf
  | followingSibling
  | precedingSibling
  deriving DecidableEq, Repr

namespace Axis

/-- The name of an axis in an expression. -/
def name : Axis → Text
  | .child => "child".toList
  | .descendant => "descendant".toList
  | .descendantOrSelf => "descendant-or-self".toList
  | .self => "self".toList
  | .parent => "parent".toList
  | .attribute => "attribute".toList
  | .ancestor => "ancestor".toList
  | .ancestorOrSelf => "ancestor-or-self".toList
  | .followingSibling => "following-sibling".toList
  | .precedingSibling => "preceding-sibling".toList

/-- Whether an axis lists its nodes from the nearest back to the start of the document. -/
def isReverse : Axis → Bool
  | .ancestor | .ancestorOrSelf | .precedingSibling => true
  | _ => false

end Axis

/-- What a step asks of a node beside its place. -/
inductive NodeTest
  /-- A node of the kind that the axis is about: an attribute or an element. -/
  | any
  /-- A node of that kind with this name. -/
  | name (name : Text)
  | node
  | text
  | comment
  deriving DecidableEq, Repr

/-- The operators with two operands. -/
inductive Operator
  | or
  | and
  | eq
  | ne
  | lt
  | le
  | gt
  | ge
  | add
  | sub
  | div
  | mod
  deriving DecidableEq, Repr

namespace Operator

/-- The sign or the word of an operator. -/
def token : Operator → Text
  | .or => "or".toList
  | .and => "and".toList
  | .eq => "=".toList
  | .ne => "!=".toList
  | .lt => "<".toList
  | .le => "<=".toList
  | .gt => ">".toList
  | .ge => ">=".toList
  | .add => "+".toList
  | .sub => "-".toList
  | .div => "div".toList
  | .mod => "mod".toList

/-- Whether an operator compares its operands. -/
def isComparison : Operator → Bool
  | .eq | .ne | .lt | .le | .gt | .ge => true
  | _ => false

end Operator

mutual

/-- An expression. -/
inductive Expr
  | number (value : Number)
  | literal (value : Text)
  | path (start : Start) (steps : List Step)
  | filter (primary : Expr) (predicates : List Expr)
  | call (function : Text) (arguments : List Expr)
  | binary (operator : Operator) (left right : Expr)
  | negate (operand : Expr)
  | union (branches : List Expr)

/-- Where a path starts. -/
inductive Start
  /-- At the root of the tree. -/
  | root
  /-- At the context node. -/
  | context
  /-- At the nodes of an expression. -/
  | expr (nodes : Expr)

/-- One step of a path: an axis, a node test and predicates. -/
inductive Step
  | mk (axis : Axis) (test : NodeTest) (predicates : List Expr)

end

instance : Inhabited Expr := ⟨.literal []⟩

namespace Step

/-- The axis of a step. -/
def axis : Step → Axis
  | .mk axis _ _ => axis

/-- The node test of a step. -/
def test : Step → NodeTest
  | .mk _ test _ => test

/-- The predicates of a step. -/
def predicates : Step → List Expr
  | .mk _ _ predicates => predicates

/-- The step that `//` stands for. -/
def descendantOrSelf : Step := .mk .descendantOrSelf .node []

end Step
end TreeSelect.XPath
