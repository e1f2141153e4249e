import TreeSelect.XPath.Axes
import TreeSelect.XPath.Function
import TreeSelect.XPath.Grammar

/-!
# Evaluation of XPath expressions

An expression has a value at a focus.  A path goes step by step: each node of the step before gives
the nodes along the axis that pass the test and all predicates, and the nodes of all of them are put
in document order, each once.  A predicate is evaluated at each node with its position in the list
that the predicates before it have left.
-/

namespace TreeSelect.XPath

/-- The nodes, the first of them at `position` of `size`, that a condition selects. -/
def keepSelected (condition : Focus → Result Value) (size : Nat) :
    Nat → List Address → Result (List Address)
  | _, [] => .ok []
  | position, node :: rest => do
    let value ← condition ⟨node, position, size⟩
    let others ← keepSelected condition size (position + 1) rest
    return if value.selects position then node :: others else others

/-- The nodes that `next` gives for each of several nodes, one list after another. -/
def collect (next : Address → Result (List Address)) : List Address → Result (List Address)
  | [] => .ok []
  | node :: rest => do
    let found ← next node
    let others ← collect next rest
    return found ++ others

/-- The value of an arithmetic operator. -/
def arithmetic (operator : Operator) (a b : Number) : Number :=
  match operator with
  | .add => a.add b
  | .sub => a.sub b
  | .div => a.div b
  | _ => a.rem b

mutual

/-- The value of an expression at a focus. -/
def eval (tree : Tree) (focus : Focus) : Expr → Result Value
  | .number value => .ok (.scalar (.number value))
  | .literal value => .ok (.scalar (.text value))
  | .path start steps => do
    let nodes ← startNodes tree focus start
    let nodes ← walk tree steps nodes
    return .nodes nodes
  | .filter primary predicates => do
    let nodes ← (← eval tree focus primary).nodesFor .filter
    let nodes ← applyPredicates tree predicates (Address.documentOrder nodes)
    return .nodes nodes
  | .call name arguments => callFunction tree focus name (evalEach tree focus arguments)
  | .binary operator left right => do
    let a ← eval tree focus left
    match operator with
    | .or =>
      if a.toBoolean then return .scalar (.boolean true)
      else return .scalar (.boolean (← eval tree focus right).toBoolean)
    | .and =>
      if a.toBoolean then return .scalar (.boolean (← eval tree focus right).toBoolean)
      else return .scalar (.boolean false)
    | operator =>
      let b ← eval tree focus right
      if operator.isComparison then return .scalar (.boolean (compareValues tree operator a b))
      else return .scalar (.number (arithmetic operator (a.toNumber tree) (b.toNumber tree)))
  | .negate operand => do
    let value ← eval tree focus operand
    return .scalar (.number (value.toNumber tree).neg)
  | .union branches => do
    let nodes ← unionNodes tree focus branches
    return .nodes (Address.documentOrder nodes)

/-- The nodes at which a path starts. -/
def startNodes (tree : Tree) (focus : Focus) : Start → Result (List Address)
  | .root => .ok [[]]
  | .context => .ok [focus.node]
  | .expr nodes => do
    let nodes ← (← eval tree focus nodes).nodesFor .path
    return Address.documentOrder nodes

/-- The nodes to which steps lead from some nodes. -/
def walk (tree : Tree) : List Step → List Address → Result (List Address)
  | [], nodes => .ok nodes
  | .mk axis test predicates :: steps, nodes => do
    let found ← collect (fun node => applyPredicates tree predicates (candidates tree axis test node))
      nodes
    walk tree steps (Address.documentOrder found)

/-- The nodes that all predicates select, each from what the ones before it have left. -/
def applyPredicates (tree : Tree) : List Expr → List Address → Result (List Address)
  | [], nodes => .ok nodes
  | predicate :: predicates, nodes => do
    let kept ← keepSelected (fun focus => eval tree focus predicate) nodes.length 1 nodes
    applyPredicates tree predicates kept

/-- The values of several expressions at one focus. -/
def evalEach (tree : Tree) (focus : Focus) : List Expr → List (Result Value)
  | [] => []
  | expr :: exprs => eval tree focus expr :: evalEach tree focus exprs

/-- The nodes of several expressions, one list after another. -/
def unionNodes (tree : Tree) (focus : Focus) : List Expr → Result (List Address)
  | [] => .ok []
  | expr :: exprs => do
    let nodes ← (← eval tree focus expr).nodesFor .union
    let others ← unionNodes tree focus exprs
    return nodes ++ others

end

/-! ## Queries -/

/-- Why a query has no result. -/
inductive QueryError
  /-- The text stops being an expression at this byte position. -/
  | unreadable (offset : Nat)
  /-- The expression has no value. -/
  | evaluation (error : EvalError)
  deriving DecidableEq, Repr

/-- The value of an expression at a node. -/
def query (tree : Tree) (node : Address) (expression : Text) : Except QueryError Value :=
  match parse expression with
  | .error offset => .error (.unreadable offset)
  | .ok expr => (eval tree ⟨node, 1, 1⟩ expr).mapError .evaluation

/-- One thing that a query finds. -/
inductive Item
  | node (node : Address)
  | scalar (value : Scalar)
  deriving DecidableEq

/-- What a value holds: its nodes, or itself. -/
def Value.items : Value → List Item
  | .nodes found => found.map .node
  | .scalar value => [.scalar value]

/-- The number of nodes among items. -/
def countNodes (items : List Item) : Nat :=
  items.countP fun
    | .node _ => true
    | .scalar _ => false

end TreeSelect.XPath
