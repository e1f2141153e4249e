import TreeSelect.XPath.Value

/-!
# Functions of XPath

A call gives a function the outcomes of its arguments.  The number of arguments is checked before any
of them is looked at, and of several arguments that fail the first one counts.
-/

namespace TreeSelect.XPath

/-! ## Errors -/

/-- What only nodes can be used for. -/
inductive NodeUse
  | filter
  | union
  | path
  | count
  | name
  deriving DecidableEq, Repr

/-- Why an expression has no value. -/
inductive EvalError
  /-- Something other than nodes was used for what needs nodes. -/
  | notNodes (use : NodeUse)
  /-- The function does not take so many arguments. -/
  | argumentCount (function : Text) (count : Nat)
  /-- There is no function of this name. -/
  | unknownFunction (name : Text)
  deriving DecidableEq, Repr

/-- The wording of a use of nodes. -/
def NodeUse.text : NodeUse → Text
  | .filter => "filter predicate".toList
  | .union => "union operand".toList
  | .path => "path".toList
  | .count => "count()".toList
  | .name => "name()".toList

/-- The wording of an error. -/
def EvalError.message : EvalError → Text
  | .notNodes use => "xpath evaluation error: ".toList ++ use.text ++ " requires a node-set".toList
  | .argumentCount function count =>
    "xpath evaluation error: ".toList ++ function ++ "() called with ".toList ++
      Nat.toDigits 10 count ++ " argument(s)".toList
  | .unknownFunction name => "unknown function '".toList ++ name ++ "()'".toList

/-- The outcome of evaluating an expression. -/
abbrev Result (α : Type) := Except EvalError α

/-- The nodes of a value that is to be used as nodes. -/
def Value.nodesFor (use : NodeUse) : Value → Result (List Address)
  | .nodes found => .ok found
  | .scalar _ => .error (.notNodes use)

/-! ## Functions -/

/-- The node an expression is evaluated at, its position, and how many nodes it is among. -/
structure Focus where
  node : Address
  position : Nat
  size : Nat
  deriving DecidableEq, Repr

/-- The functions. -/
inductive Function
  | position
  | last
  | count
  | contains
  | startsWith
  | concat
  | normalizeSpace
  | string
  | stringLength
  | number
  | not
  | true
  | false
  | name
  | localName
  deriving DecidableEq, Repr

namespace Function

/-- The name of a function. -/
def text : Function → Text
  | .position => "position".toList
  | .last => "last".toList
  | .count => "count".toList
  | .contains => "contains".toList
  | .startsWith => "starts-with".toList
  | .concat => "concat".toList
  | .normalizeSpace => "normalize-space".toList
  | .string => "string".toList
  | .stringLength => "string-length".toList
  | .number => "number".toList
  | .not => "not".toList
  | .true => "true".toList
  | .false => "false".toList
  | .name => "name".toList
  | .localName => "local-name".toList

/-- All functions. -/
def all : List Function := [
  .position, .last, .count, .contains, .startsWith, .concat, .normalizeSpace, .string,
  .stringLength, .number, .not, .true, .false, .name, .localName]

/-- The function of a name. -/
def ofName? (name : Text) : Option Function := all.find? fun function => function.text = name

/-- Whether a function takes so many arguments. -/
def takes (function : Function) (count : Nat) : Bool :=
  match function with
  | .position | .last | .true | .false => count = 0
  | .count | .not => count = 1
  | .contains | .startsWith => count = 2
  | .concat => 2 ≤ count
  | .normalizeSpace | .string | .stringLength | .number | .name | .localName => count ≤ 1

/-- The first argument as a text; without one, the string value of the node. -/
def textArgument (tree : Tree) (focus : Focus) : List (Result Value) → Result Text
  | [] => .ok (tree.valueAt focus.node)
  | argument :: _ => argument.map (·.toText tree)

/-- The first two arguments as texts. -/
def twoTexts (tree : Tree) : List (Result Value) → Result (Text × Text)
  | first :: second :: _ => do
    let a ← first
    let b ← second
    return (a.toText tree, b.toText tree)
  | _ => .ok ([], [])

/-- The first argument as it is. -/
def oneValue : List (Result Value) → Result Value
  | [] => .ok (.nodes [])
  | argument :: _ => argument

/-- The name of the first node of the first argument; without one, of the node. -/
def nameArgument (tree : Tree) (focus : Focus) : List (Result Value) → Result Text
  | [] => .ok ((tree.name? focus.node).getD [])
  | argument :: _ => do
    let nodes ← (← argument).nodesFor .name
    return (nodes.head?.bind tree.name?).getD []

/-- The part of a name after its last colon. -/
def afterColon (name : Text) : Text := (name.reverse.takeWhile (· ≠ ':')).reverse

/-- The value of a function at a focus for as many arguments as it takes. -/
def value (tree : Tree) (focus : Focus) (arguments : List (Result Value)) :
    Function → Result Value
  | .position => .ok (.scalar (.number (.ofNat focus.position)))
  | .last => .ok (.scalar (.number (.ofNat focus.size)))
  | .count => do
    let nodes ← (← oneValue arguments).nodesFor .count
    return .scalar (.number (.ofNat nodes.length))
  | .contains => do
    let (whole, part) ← twoTexts tree arguments
    return .scalar (.boolean (Text.includes part whole))
  | .startsWith => do
    let (whole, part) ← twoTexts tree arguments
    return .scalar (.boolean (part.isPrefixOf whole))
  | .concat => do
    let values ← arguments.mapM id
    return .scalar (.text (values.flatMap (·.toText tree)))
  | .normalizeSpace => do
    let text ← textArgument tree focus arguments
    return .scalar (.text text.collapseBlanks)
  | .string => do
    let text ← textArgument tree focus arguments
    return .scalar (.text text)
  | .stringLength => do
    let text ← textArgument tree focus arguments
    return .scalar (.number (.ofNat text.length))
  | .number =>
    match arguments with
    | [] => .ok (.scalar (.number (.ofText (tree.valueAt focus.node))))
    | argument :: _ => argument.map fun value => .scalar (.number (value.toNumber tree))
  | .not => do
    let value ← oneValue arguments
    return .scalar (.boolean !value.toBoolean)
  | .true => .ok (.scalar (.boolean Bool.true))
  | .false => .ok (.scalar (.boolean Bool.false))
  | .name => do
    let name ← nameArgument tree focus arguments
    return .scalar (.text name)
  | .localName => do
    let name ← nameArgument tree focus arguments
    return .scalar (.text (afterColon name))

end Function

/-- The value of a call. -/
def callFunction (tree : Tree) (focus : Focus) (name : Text) (arguments : List (Result Value)) :
    Result Value :=
  match Function.ofName? name with
  | none => .error (.unknownFunction name)
  | some function =>
    if function.takes arguments.length then function.value tree focus arguments
    else .error (.argumentCount name arguments.length)

end TreeSelect.XPath
