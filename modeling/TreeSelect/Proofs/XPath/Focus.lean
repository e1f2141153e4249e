import TreeSelect.Proofs.Tree.Elements
import TreeSelect.XPath.Evaluation

/-!
# What an expression reads of its focus

An expression is evaluated at a focus, and so are its parts, except those inside predicates, which
have foci of their own.  Of all those parts only two kinds look at the focus: a path that starts at
the context node, and a call without arguments.

* `Expr.outside` lists the parts that share the focus of an expression.
* `eval_congr` is the induction over an expression: at two foci that are alike to these parts it has
  the same value, or the same error.
* `eval_of_isPositionFree`: without calls of `position` and `last` outside predicates, only the node
  of the focus counts.
* `eval_anchored`: where everything starts at the root, the focus does not count at all.
-/

namespace TreeSelect.XPath

/-! ## Parts outside predicates -/

mutual

/-- The parts of an expression that are not inside predicates, the expression among them. -/
def Expr.outside : Expr → List Expr
  | .number value => [.number value]
  | .literal value => [.literal value]
  | .path start steps => .path start steps :: start.outside
  | .filter primary predicates => .filter primary predicates :: primary.outside
  | .call function arguments => .call function arguments :: outsideEach arguments
  | .binary operator left right => .binary operator left right :: (left.outside ++ right.outside)
  | .negate operand => .negate operand :: operand.outside
  | .union branches => .union branches :: outsideEach branches

/-- The parts of the expression at whose nodes a path starts. -/
def Start.outside : Start → List Expr
  | .root | .context => []
  | .expr nodes => nodes.outside

/-- The parts of several expressions. -/
def outsideEach : List Expr → List Expr
  | [] => []
  | expr :: exprs => expr.outside ++ outsideEach exprs

end

namespace Expr

/-- Whether an expression is a call that asks for the position or the size of its focus. -/
def asksPosition : Expr → Bool
  | .call name [] => name = "position".toList || name = "last".toList
  | _ => false

/-- Whether an expression calls `position` and `last` inside predicates alone. -/
def isPositionFree (expr : Expr) : Bool := expr.outside.all (!·.asksPosition)

/-- Whether an expression looks at its focus itself.  Without an argument most functions take the
node, and `position` and `last` take the rest of the focus. -/
def asksFocus : Expr → Bool
  | .path .context _ => true
  | .call name [] => !(name = "true".toList || name = "false".toList)
  | _ => false

/-- Whether the paths of an expression start at the root and its functions have arguments, inside
predicates apart. -/
def isAnchored (expr : Expr) : Bool := expr.outside.all (!·.asksFocus)

/-- Whether two foci look the same to an expression itself: to a path from the context node if they
have one node, and to a call without arguments if the call has one outcome. -/
def SeesAlike (tree : Tree) (focus other : Focus) : Expr → Prop
  | .path .context _ => focus.node = other.node
  | .call name [] => callFunction tree focus name [] = callFunction tree other name []
  | _ => True

end Expr

variable {tree : Tree} {focus other : Focus}

/-! ## Calls -/

/-- A function that has an argument takes nothing from the focus. -/
theorem callFunction_cons (name : Text) (first : Result Value) (others : List (Result Value)) :
    callFunction tree focus name (first :: others) =
      callFunction tree other name (first :: others) := by
  unfold callFunction
  split
  · rfl
  · rename_i function _
    cases function with
    | position | last => simp [Function.takes]
    | _ => rfl

/-- Apart from `position` and `last`, functions take the node alone. -/
theorem callFunction_nil (hnode : focus.node = other.node) {name : Text}
    (hposition : name ≠ "position".toList) (hlast : name ≠ "last".toList) :
    callFunction tree focus name [] = callFunction tree other name [] := by
  unfold callFunction
  split
  · rfl
  · rename_i function hfunction
    have hname : function.text = name := by simpa using List.find?_some hfunction
    cases function with
    | position => exact absurd hname.symm hposition
    | last => exact absurd hname.symm hlast
    | _ => simp [Function.value, Function.textArgument, Function.nameArgument, hnode]

/-! ## Two foci -/

mutual

theorem eval_congr (expr : Expr) (h : ∀ part ∈ expr.outside, part.SeesAlike tree focus other) :
    eval tree focus expr = eval tree other expr := by
  match expr with
  | .number _ => rw [eval, eval]
  | .literal _ => rw [eval, eval]
  | .path start steps =>
    rw [Expr.outside] at h
    rw [eval, eval, startNodes_congr start steps h]
  | .filter primary predicates =>
    rw [Expr.outside, List.forall_mem_cons] at h
    rw [eval, eval, eval_congr primary h.2]
  | .call name arguments =>
    rw [Expr.outside, List.forall_mem_cons] at h
    rw [eval, eval, evalEach_congr arguments h.2]
    cases arguments with
    | nil => exact h.1
    | cons first others => exact callFunction_cons name _ _
  | .binary operator left right =>
    rw [Expr.outside, List.forall_mem_cons, List.forall_mem_append] at h
    rw [eval, eval, eval_congr left h.2.1, eval_congr right h.2.2]
  | .negate operand =>
    rw [Expr.outside, List.forall_mem_cons] at h
    rw [eval, eval, eval_congr operand h.2]
  | .union branches =>
    rw [Expr.outside, List.forall_mem_cons] at h
    rw [eval, eval, unionNodes_congr branches h.2]

theorem startNodes_congr (start : Start) (steps : List Step)
    (h : ∀ part ∈ .path start steps :: start.outside, part.SeesAlike tree focus other) :
    startNodes tree focus start = startNodes tree other start := by
  rw [List.forall_mem_cons] at h
  match start with
  | .root => rw [startNodes, startNodes]
  | .context =>
    have hnode : focus.node = other.node := h.1
    rw [startNodes, startNodes, hnode]
  | .expr nodes =>
    rw [Start.outside] at h
    rw [startNodes, startNodes, eval_congr nodes h.2]

theorem evalEach_congr (exprs : List Expr)
    (h : ∀ part ∈ outsideEach exprs, part.SeesAlike tree focus other) :
    evalEach tree focus exprs = evalEach tree other exprs := by
  match exprs with
  | [] => rw [evalEach, evalEach]
  | expr :: exprs =>
    rw [outsideEach, List.forall_mem_append] at h
    rw [evalEach, evalEach, eval_congr expr h.1, evalEach_congr exprs h.2]

theorem unionNodes_congr (branches : List Expr)
    (h : ∀ part ∈ outsideEach branches, part.SeesAlike tree focus other) :
    unionNodes tree focus branches = unionNodes tree other branches := by
  match branches with
  | [] => rw [unionNodes, unionNodes]
  | branch :: branches =>
    rw [outsideEach, List.forall_mem_append] at h
    rw [unionNodes, unionNodes, eval_congr branch h.1, unionNodes_congr branches h.2]

end

/-! ## Expressions to which foci are alike -/

/-- Without calls of `position` and `last` outside predicates, an expression has the same value, or
the same error, wherever its node stands among others. -/
theorem eval_of_isPositionFree {expr : Expr} (h : expr.isPositionFree = true)
    (hnode : focus.node = other.node) : eval tree focus expr = eval tree other expr := by
  apply eval_congr
  intro part hpart
  have hasks : part.asksPosition = false := by simpa using List.all_eq_true.1 h part hpart
  unfold Expr.SeesAlike
  split
  · exact hnode
  · rename_i name
    rw [Expr.asksPosition, Bool.or_eq_false_iff, decide_eq_false_iff_not,
      decide_eq_false_iff_not] at hasks
    exact callFunction_nil hnode hasks.1 hasks.2
  · trivial

/-- A path from the root has the same value, or the same error, at every focus: from all nodes the
way up ends at the one root.  So has every expression whose paths start at the root and whose
functions have arguments, as far as these are not inside predicates. -/
theorem eval_anchored (tree : Tree) (focus other : Focus) :
    (startNodes tree focus .root = .ok [focus.node.root] ∧ focus.node.root = other.node.root) ∧
      (∀ steps, eval tree focus (.path .root steps) = eval tree other (.path .root steps)) ∧
        ∀ expr : Expr, expr.isAnchored = true → eval tree focus expr = eval tree other expr := by
  have hanchored : ∀ expr : Expr, expr.isAnchored = true →
      eval tree focus expr = eval tree other expr := by
    intro expr h
    apply eval_congr
    intro part hpart
    have hasks : part.asksFocus = false := by simpa using List.all_eq_true.1 h part hpart
    unfold Expr.SeesAlike
    split
    · cases hasks
    · rename_i name
      rw [Expr.asksFocus, Bool.not_eq_false', Bool.or_eq_true, decide_eq_true_eq,
        decide_eq_true_eq] at hasks
      rcases hasks with rfl | rfl <;> rfl
    · trivial
  refine ⟨⟨?_, ?_⟩, fun steps => hanchored _ ?_, hanchored⟩
  · rw [startNodes, Address.root_eq]
  · rw [Address.root_eq, Address.root_eq]
  · rfl

/-- A count from the root, with a path from the context node and a position inside a predicate,
evaluated at an attribute and at an element. -/
theorem eval_anchored_count :
    let tree := (Tree.element "ul".toList).withChildren [
      (Tree.element "li".toList).withAttribute "id".toList "x".toList, .element "li".toList]
    let expr := Expr.binary .eq
      (.call "count".toList [.path .root [.mk .descendant (.name "li".toList) [
        .binary .and (.path .context [.mk .attribute (.name "id".toList) []])
          (.binary .eq (.call "position".toList []) (.call "last".toList []))]]])
      (.call "string-length".toList [.literal []])
    expr.isAnchored = true ∧
      eval tree ⟨[.child 0, .attribute 0], 1, 1⟩ expr = eval tree ⟨[.child 1], 2, 2⟩ expr := by
  intro tree expr
  have hanchored : expr.isAnchored = true := by decide
  exact ⟨hanchored, (eval_anchored tree _ _).2.2 expr hanchored⟩

end TreeSelect.XPath
