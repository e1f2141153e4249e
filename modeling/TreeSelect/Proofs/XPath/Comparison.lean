import TreeSelect.XPath.Value

/-!
# Comparisons from the other side

A comparison is as true of two values as the mirrored comparison (less for greater, an equation for
itself) is of the values in the other order, whatever kinds the values have.  The cases with nodes come
in pairs; the second of each pair is the first one read from the other side, as exchanging the sides
twice changes nothing (`Operator.swapped_swapped`).

* `Scalar.eq_swap` and `compareScalars_swapped`: two scalars.
* `nodes_scalar_swapped`: nodes beside a scalar.
* `compareValues_swapped`: all values.
-/

namespace TreeSelect

namespace Number

theorem compare_flip (relation : Int → Int → Bool) (x y : Number) :
    compare relation x y = compare (fun a b => relation b a) y x := by
  unfold compare
  cases x.place? <;> cases y.place? <;> rfl

/-- An equation of two numbers says the same when it is read from the other side. -/
theorem eq_swap (x y : Number) : x.eq y = y.eq x := by
  have hsides : (fun a b : Int => decide (a = b)) = fun a b => decide (b = a) := by
    funext a b
    rw [decide_eq_decide]
    exact eq_comm
  rw [Number.eq, compare_flip, Number.eq, hsides]

end Number

namespace XPath

/-- The operator that compares the other way round. -/
def Operator.swapped : Operator → Operator
  | .lt => .gt
  | .le => .ge
  | .gt => .lt
  | .ge => .le
  | other => other

theorem Operator.swapped_swapped (operator : Operator) : operator.swapped.swapped = operator := by
  cases operator <;> rfl

/-! ## Scalars -/

/-- Which conversion two scalars are compared by does not depend on their order. -/
theorem Scalar.eq_swap (a b : Scalar) : a.eq b = b.eq a := by
  cases a with
  | boolean a => cases b <;> exact Bool.beq_comm
  | number a =>
    cases b with
    | boolean b => exact Bool.beq_comm
    | number b => exact a.eq_swap b
    | text b => exact a.eq_swap (Number.ofText b)
  | text a =>
    cases b with
    | boolean b => exact Bool.beq_comm
    | number b => exact (Number.ofText a).eq_swap b
    | text b =>
      show decide (a = b) = decide (b = a)
      rw [decide_eq_decide]
      exact eq_comm

theorem compareScalars_swapped (operator : Operator) (a b : Scalar) :
    compareScalars operator a b = compareScalars operator.swapped b a := by
  cases operator with
  | eq => exact a.eq_swap b
  | ne => exact congrArg not (a.eq_swap b)
  | lt | le | gt | ge | or | and | add | sub | div | mod => rfl

/-! ## Nodes -/

variable (tree : Tree) (operator : Operator)

/-- A pair of nodes for which the comparison holds is one from either side. -/
theorem nodes_nodes_swapped (a b : List Address) :
    compareValues tree operator (.nodes a) (.nodes b) =
      compareValues tree operator.swapped (.nodes b) (.nodes a) := by
  rw [Bool.eq_iff_iff]
  simp only [compareValues, List.any_eq_true]
  constructor
  · rintro ⟨x, hx, y, hy, hholds⟩
    exact ⟨y, hy, x, hx, by rwa [← compareScalars_swapped]⟩
  · rintro ⟨y, hy, x, hx, hholds⟩
    exact ⟨x, hx, y, hy, by rwa [compareScalars_swapped]⟩

/-- A node stands for the same scalar on either side of the other operand. -/
theorem nodes_scalar_swapped (a : List Address) (b : Scalar) :
    compareValues tree operator (.nodes a) (.scalar b) =
      compareValues tree operator.swapped (.scalar b) (.nodes a) := by
  cases b with
  | boolean b => exact compareScalars_swapped operator (.boolean !a.isEmpty) (.boolean b)
  | number b =>
    simp only [compareValues]
    congr 1
    funext x
    exact compareScalars_swapped operator _ _
  | text b =>
    simp only [compareValues]
    congr 1
    funext x
    exact compareScalars_swapped operator _ _

/-! ## All values -/

/-- A comparison of two values, nodes and scalars of any kinds, is the mirrored comparison of the
values in the other order. -/
theorem compareValues_swapped (a b : Value) :
    compareValues tree operator a b = compareValues tree operator.swapped b a := by
  cases a with
  | nodes a =>
    cases b with
    | nodes b => exact nodes_nodes_swapped tree operator a b
    | scalar b => exact nodes_scalar_swapped tree operator a b
  | scalar a =>
    cases b with
    | nodes b =>
      have hmirrored := nodes_scalar_swapped tree operator.swapped b a
      rw [operator.swapped_swapped] at hmirrored
      exact hmirrored.symm
    | scalar b =>
      cases a <;> cases b <;> exact compareScalars_swapped operator _ _

end XPath
end TreeSelect
