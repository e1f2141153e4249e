import TreeSelect.Number.Decimal
import TreeSelect.Tree.Order
import TreeSelect.XPath.Expr

/-!
# XPath values

A value is a list of nodes or a scalar: a number, a text or a truth value.  Each kind can be taken
for each scalar kind, and comparison chooses the kind to compare as.  Nodes are compared by their
string values, and a comparison with nodes holds if it holds for one of them.
-/

namespace TreeSelect.XPath

/-- A value that is not nodes. -/
inductive Scalar
  | number (value : Number)
  | text (value : Text)
  | boolean (value : Bool)
  deriving DecidableEq

/-- The value of an expression. -/
inductive Value
  | nodes (nodes : List Address)
  | scalar (value : Scalar)
  deriving DecidableEq

/-! ## Conversions -/

/-- The text of a truth value. -/
def booleanText (value : Bool) : Text := if value then "true".toList else "false".toList

namespace Scalar

/-- A scalar as a number. -/
def toNumber : Scalar → Number
  | .number value => value
  | .text value => Number.ofText value
  | .boolean value => Number.ofBool value

/-- A scalar as a truth value. -/
def toBoolean : Scalar → Bool
  | .number value => value.isTrue
  | .text value => !value.isEmpty
  | .boolean value => value

/-- A scalar as a text. -/
def toText : Scalar → Text
  | .number value => value.text
  | .text value => value
  | .boolean value => booleanText value

end Scalar

namespace Value

/-- A value as a scalar; nodes give the string value of the first of them. -/
def toScalar (tree : Tree) : Value → Scalar
  | .nodes found => .text ((found.head?.map tree.valueAt).getD [])
  | .scalar value => value

/-- A value as a number. -/
def toNumber (tree : Tree) (value : Value) : Number := (value.toScalar tree).toNumber

/-- A value as a text. -/
def toText (tree : Tree) (value : Value) : Text := (value.toScalar tree).toText

/-- A value as a truth value; nodes are true if there are any. -/
def toBoolean : Value → Bool
  | .nodes found => !found.isEmpty
  | .scalar value => value.toBoolean

/-- Whether a predicate with this value keeps the node at a position: a number asks for its
position. -/
def selects (value : Value) (position : Nat) : Bool :=
  match value with
  | .scalar (.number number) => number.eq (.ofNat position)
  | other => other.toBoolean

end Value

/-! ## Comparison -/

/-- Whether two scalars are equal: as truth values if one is, else as numbers if one is, else as
texts. -/
def Scalar.eq : Scalar → Scalar → Bool
  | .boolean a, b => a == b.toBoolean
  | a, .boolean b => a.toBoolean == b
  | .number a, b => a.eq b.toNumber
  | a, .number b => a.toNumber.eq b
  | .text a, .text b => a = b

/-- Whether a comparison of two scalars holds.  The order is that of numbers. -/
def compareScalars (operator : Operator) (a b : Scalar) : Bool :=
  match operator with
  | .eq => a.eq b
  | .ne => !a.eq b
  | .lt => a.toNumber.lt b.toNumber
  | .le => a.toNumber.le b.toNumber
  | .gt => b.toNumber.lt a.toNumber
  | .ge => b.toNumber.le a.toNumber
  | _ => false

/-- The scalar that a node stands for beside another scalar: a number beside a number, else its
text. -/
def nodeScalar (tree : Tree) (node : Address) : Scalar → Scalar
  | .number _ => .number (Number.ofText (tree.valueAt node))
  | _ => .text (tree.valueAt node)

/-- Whether a comparison holds.  Beside a truth value, nodes are a truth value too. -/
def compareValues (tree : Tree) (operator : Operator) : Value → Value → Bool
  | .nodes a, .nodes b =>
    a.any fun x => b.any fun y =>
      compareScalars operator (.text (tree.valueAt x)) (.text (tree.valueAt y))
  | .nodes a, .scalar (.boolean b) => compareScalars operator (.boolean !a.isEmpty) (.boolean b)
  | .scalar (.boolean a), .nodes b => compareScalars operator (.boolean a) (.boolean !b.isEmpty)
  | .nodes a, .scalar b => a.any fun x => compareScalars operator (nodeScalar tree x b) b
  | .scalar a, .nodes b => b.any fun y => compareScalars operator a (nodeScalar tree y a)
  | .scalar a, .scalar b => compareScalars operator a b

end TreeSelect.XPath
