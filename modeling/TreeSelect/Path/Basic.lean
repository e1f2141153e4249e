import TreeSelect.Path.Literal
import TreeSelect.Path.Position

/-!
# Paths

A path is what a selector is compiled to: steps, each with an axis, a tag and predicates.  The text
of a path is an XPath expression.  Several predicates of a step are written as one condition, so that
a position among them counts the same elements as a position alone.
-/

namespace TreeSelect

namespace Path

/-- Where a step looks for elements. -/
inductive Axis
  /-- Below the root, or below the element of the step before. -/
  | descendant
  /-- Among the children of the element of the step before. -/
  | child
  /-- Below the context node. -/
  | descendantFromContext
  deriving DecidableEq, Repr

/-- The sign of an axis. -/
def Axis.text : Axis → Text
  | .descendant => "//".toList
  | .child => "/".toList
  | .descendantFromContext => ".//".toList

/-- A condition on the elements of a step. -/
inductive Predicate
  /-- The attribute `id` has this value. -/
  | id (value : Text)
  /-- The attribute is there, with this value if one is given. -/
  | attribute (name : Text) (value : Option Text)
  /-- The class is among the words of the attribute `class`. -/
  | hasClass (name : Text)
  /-- The position is as the condition says. -/
  | position (condition : Position)
  deriving DecidableEq, Repr

/-- A predicate as it stands in brackets. -/
def Predicate.text : Predicate → Text
  | .id value => "@id=".toList ++ value.literal
  | .attribute name none => '@' :: name
  | .attribute name (some value) => '@' :: name ++ '=' :: value.literal
  | .hasClass name =>
    "contains(concat(' ', normalize-space(@class), ' '), ' ".toList ++ name ++ " ')".toList
  | .position condition => condition.text

/-- One step of a path. -/
structure Step where
  axis : Axis
  tag : Text
  predicates : List Predicate
  deriving DecidableEq, Repr

/-- The predicates of a step in brackets: one stands alone, several are joined by `and`. -/
def bracketed : List Predicate → Text
  | [] => []
  | [predicate] => '[' :: predicate.text ++ [']']
  | predicates =>
    '[' :: " and ".toList.intercalate (predicates.map fun p => '(' :: p.text ++ [')']) ++ [']']

/-- A step with its axis, its tag and its predicates. -/
def Step.text (step : Step) : Text := step.axis.text ++ step.tag ++ bracketed step.predicates

end Path

/-- A path is its steps from the first to the last. -/
structure Path where
  steps : List Path.Step
  deriving DecidableEq, Repr

/-- The XPath expression of a path. -/
def Path.text (path : Path) : Text := path.steps.flatMap Path.Step.text

end TreeSelect
