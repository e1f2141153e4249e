import TreeSelect.Proofs.Number.Whole
import TreeSelect.Proofs.Path.Meaning
import TreeSelect.Proofs.XPath.Places

/-!
# What a position asks for

A position is counted among the children of one node that have the tag of the step.  `Placed` says at
which foci the predicates of a step from the root are evaluated.  Most positions are written as
conditions, which hold at a place or do not.  The first and the last one are written as the number of
a place, and a number that is joined to a condition by `and` is only asked whether it is zero.

* `eval_step`: the elements that a step finds, by their places, and `eval_singleStep` for a step from
  the root.
* `selects_position`: a position alone in the brackets.
* `selects_plain` and `selects_beside`: other predicates, and a position behind them.
-/

namespace TreeSelect

open TreeSelect.XPath

variable {tree : Tree} {focus : Focus}

/-! ## The values of positions -/

/-- Whether a position is written as a condition and not as the number of a place. -/
def Position.isCondition : Position → Bool
  | .odd | .even | .index _ | .cycle .. => true
  | .first | .last | .raw _ => false

theorem eval_digitsExpr (digits : Text) :
    eval tree focus (digitsExpr digits) =
      .ok (.scalar (.number (Number.ofDigits digits []))) := by
  rw [digitsExpr, eval]

theorem eval_positionExpr (tree : Tree) (focus : Focus) :
    eval tree focus positionExpr = .ok (.scalar (.number (.ofNat focus.position))) := by
  have hname : Function.ofName? "position".toList = some .position := by decide
  rw [positionExpr, eval, callFunction, hname, evalEach]
  rfl

theorem eval_lastExpr (tree : Tree) (focus : Focus) :
    eval tree focus (Position.expr .last) = .ok (.scalar (.number (.ofNat focus.size))) := by
  have hname : Function.ofName? "last".toList = some .last := by decide
  show eval tree focus (.call "last".toList []) = _
  rw [eval, callFunction, hname, evalEach]
  rfl

section Numbers

variable {left right : Expr} {x y : Number}
  (hleft : eval tree focus left = .ok (.scalar (.number x)))
  (hright : eval tree focus right = .ok (.scalar (.number y)))

include hleft hright

theorem eval_difference :
    eval tree focus (.binary .sub left right) = .ok (.scalar (.number (x.sub y))) :=
  eval_operator (by decide : Operator.sub ≠ .or) (by decide) hleft hright

theorem eval_remainder :
    eval tree focus (.binary .mod left right) = .ok (.scalar (.number (x.rem y))) :=
  eval_operator (by decide : Operator.mod ≠ .or) (by decide) hleft hright

theorem eval_equation :
    eval tree focus (.binary .eq left right) = .ok (.scalar (.boolean (x.eq y))) :=
  eval_operator (by decide : Operator.eq ≠ .or) (by decide) hleft hright

theorem eval_bound :
    eval tree focus (.binary .ge left right) = .ok (.scalar (.boolean (y.le x))) :=
  eval_operator (by decide : Operator.ge ≠ .or) (by decide) hleft hright

end Numbers

theorem eval_conjunction {left right : Expr} {p q : Bool}
    (hleft : eval tree focus left = .ok (.scalar (.boolean p)))
    (hright : eval tree focus right = .ok (.scalar (.boolean q))) :
    eval tree focus (.binary .and left right) = .ok (.scalar (.boolean (p && q))) :=
  eval_and hleft hright

/-- A recurring position holds where the remainder is zero and the place is not below the bound. -/
theorem eval_recurringExpr {counted : Expr} {x : Number} (multiple bound : Text)
    (h : eval tree focus counted = .ok (.scalar (.number x))) :
    eval tree focus (recurringExpr counted multiple bound) =
      .ok (.scalar (.boolean ((x.rem (.ofDigits multiple [])).eq (.ofDigits ['0'] []) &&
        (Number.ofDigits bound []).le (.ofNat focus.position)))) :=
  eval_conjunction
    (eval_equation (eval_remainder h (eval_digitsExpr multiple)) (eval_digitsExpr ['0']))
    (eval_bound (eval_positionExpr tree focus) (eval_digitsExpr bound))

/-- A cycle is counted from its offset. -/
theorem eval_cycle (multiple offset : Text) :
    eval tree focus (Position.expr (.cycle multiple offset)) =
      .ok (.scalar (.boolean
        ((((Number.ofNat focus.position).sub (.ofDigits offset [])).rem
          (.ofDigits multiple [])).eq (.ofDigits ['0'] []) &&
            (Number.ofDigits offset []).le (.ofNat focus.position)))) :=
  eval_recurringExpr multiple offset
    (eval_difference (eval_positionExpr tree focus) (eval_digitsExpr offset))

/-- The even places are counted from zero. -/
theorem eval_even :
    eval tree focus (Position.expr .even) =
      .ok (.scalar (.boolean
        (((Number.ofNat focus.position).rem (.ofDigits ['2'] [])).eq (.ofDigits ['0'] []) &&
          (Number.ofDigits ['0'] []).le (.ofNat focus.position)))) :=
  eval_recurringExpr ['2'] ['0'] (eval_positionExpr tree focus)

theorem eval_index (n : Text) :
    eval tree focus (Position.expr (.index n)) =
      .ok (.scalar (.boolean ((Number.ofNat focus.position).eq (.ofDigits n [])))) :=
  eval_equation (eval_positionExpr tree focus) (eval_digitsExpr n)

/-- A position that is written as a condition holds at a focus or does not. -/
theorem Position.eval_condition {position : Position} (h : position.isCondition = true)
    (tree : Tree) (focus : Focus) :
    ∃ truth, eval tree focus position.expr = .ok (.scalar (.boolean truth)) := by
  cases position with
  | odd => exact ⟨_, eval_cycle ['2'] ['1']⟩
  | even => exact ⟨_, eval_even⟩
  | index n => exact ⟨_, eval_index n⟩
  | cycle multiple offset => exact ⟨_, eval_cycle multiple offset⟩
  | first | last | raw => cases h

/-- The number of the first or the last place is not zero. -/
theorem Position.eval_number {position : Position} (h : position = .first ∨ position = .last)
    (tree : Tree) {focus : Focus} (hsize : 0 < focus.size) :
    ∃ number, eval tree focus position.expr = .ok (.scalar (.number number)) ∧
      number.isTrue = true := by
  rcases h with rfl | rfl
  · exact ⟨_, eval_digitsExpr ['1'], by decide +kernel⟩
  · exact ⟨_, eval_lastExpr tree focus, Number.isTrue_ofNat hsize⟩

/-- The first and the last position are the only ones that are written as numbers. -/
theorem Position.cases_of_isReadable {position : Position} (h : position.isReadable = true) :
    position.isCondition = true ∨
      position.isCondition = false ∧ (position = .first ∨ position = .last) := by
  cases position with
  | odd | even | index | cycle => exact .inl rfl
  | first => exact .inr ⟨rfl, .inl rfl⟩
  | last => exact .inr ⟨rfl, .inr rfl⟩
  | raw => cases h

namespace Path

/-! ## Predicates at a place -/

/-- Whether a position, alone in the brackets, keeps the node of a focus. -/
def Keeps (tree : Tree) (position : Position) (focus : Focus) : Prop :=
  ∃ value, eval tree focus position.expr = .ok value ∧ value.selects focus.position = true

/-- Alone in the brackets, a position with a value selects the nodes that it keeps. -/
theorem selects_of_eval {position : Position} {value : Value}
    (h : eval tree focus position.expr = .ok value) :
    Selects tree focus position.expr (Keeps tree position focus) := by
  refine ⟨value, h, ?_⟩
  constructor
  · intro hselects
    exact ⟨value, h, hselects⟩
  · intro hcase
    rcases hcase with ⟨other, hother, hselects⟩
    rw [h] at hother
    cases hother
    exact hselects

/-- A condition keeps the node where it holds. -/
theorem keeps_of_boolean {position : Position} {truth : Bool}
    (h : eval tree focus position.expr = .ok (.scalar (.boolean truth))) :
    Keeps tree position focus ↔ truth = true := by
  obtain ⟨value, hvalue, hselects⟩ := selects_of_eval h
  rw [h] at hvalue
  cases hvalue
  exact hselects.symm

/-- A cycle whose number is zero keeps no place, as there is no remainder. -/
theorem not_keeps_cycle {multiple : Text} (h : Number.digitsValue multiple = 0) (offset : Text) :
    ¬ Keeps tree (.cycle multiple offset) focus := by
  rw [keeps_of_boolean (eval_cycle multiple offset), Number.ofDigits_nil multiple, h,
    Number.rem_zero, Number.nan_eq, Bool.false_and]
  exact Bool.false_ne_true

/-- A cycle keeps the places that are its offset and a multiple of its number more, unless that
number is zero. -/
theorem keeps_cycle {multiple offset : Text} (h : focus.position < Number.exactLimit) :
    Keeps tree (.cycle multiple offset) focus ↔
      Number.digitsValue multiple ≠ 0 ∧ ∃ times,
        focus.position = Number.digitsValue multiple * times + Number.digitsValue offset := by
  have hzero : Number.digitsValue ['0'] = 0 := rfl
  rw [keeps_of_boolean (eval_cycle multiple offset)]
  simp only [Number.ofDigits_nil, hzero, Bool.and_eq_true]
  generalize Number.digitsValue multiple = m, Number.digitsValue offset = b
  rw [Number.le_ofNat_iff (.inr h)]
  by_cases hle : b ≤ focus.position
  · have hless : focus.position - b < Number.exactLimit := by omega
    rw [Number.sub_ofNat h hle, Number.rem_eq_zero_iff hless, and_iff_left hle]
    refine and_congr_right fun _ => exists_congr fun times => ?_
    omega
  · constructor
    · intro hcase
      exact absurd hcase.2 hle
    · rintro ⟨-, times, htimes⟩
      omega

/-- A number keeps the node at its place. -/
theorem keeps_of_number {position : Position} {number : Number}
    (h : eval tree focus position.expr = .ok (.scalar (.number number))) :
    Keeps tree position focus ↔ number.eq (.ofNat focus.position) = true := by
  obtain ⟨value, hvalue, hselects⟩ := selects_of_eval h
  rw [h] at hvalue
  cases hvalue
  exact hselects.symm

theorem keeps_first : Keeps tree .first focus ↔ focus.position = 1 := by
  have hone : Number.digitsValue ['1'] = 1 := rfl
  have hsmall : 1 < Number.exactLimit := by decide
  rw [keeps_of_number (eval_digitsExpr ['1']), Number.ofDigits_nil, hone,
    Number.eq_ofNat_iff hsmall, eq_comm]

theorem keeps_last (h : focus.size < Number.exactLimit) :
    Keeps tree .last focus ↔ focus.position = focus.size := by
  rw [keeps_of_number (eval_lastExpr tree focus), Number.eq_ofNat_iff h, eq_comm]

/-- A number too large to be exact is the place of no node. -/
theorem keeps_index (h : focus.position < Number.exactLimit) (n : Text) :
    Keeps tree (.index n) focus ↔ focus.position = Number.digitsValue n := by
  rw [keeps_of_boolean (eval_index n), Number.ofDigits_nil, Number.eq_ofNat_iff h]

/-- The odd places are a cycle, and are written as one. -/
theorem keeps_odd (h : focus.position < Number.exactLimit) :
    Keeps tree .odd focus ↔ focus.position % 2 = 1 := by
  have hcycle : Keeps tree .odd focus ↔ Keeps tree (.cycle ['2'] ['1']) focus := Iff.rfl
  have htwo : Number.digitsValue ['2'] = 2 := rfl
  have hone : Number.digitsValue ['1'] = 1 := rfl
  rw [hcycle, keeps_cycle h, htwo, hone]
  constructor
  · rintro ⟨-, times, htimes⟩
    omega
  · intro hodd
    exact ⟨by decide, focus.position / 2, by omega⟩

/-- The bound of the condition always holds. -/
theorem keeps_even (h : focus.position < Number.exactLimit) :
    Keeps tree .even focus ↔ focus.position % 2 = 0 := by
  have htwo : Number.digitsValue ['2'] = 2 := rfl
  have hzero : Number.digitsValue ['0'] = 0 := rfl
  rw [keeps_of_boolean eval_even]
  simp only [Number.ofDigits_nil, htwo, hzero, Bool.and_eq_true]
  rw [Number.rem_eq_zero_iff h, Number.le_ofNat_iff (.inr h)]
  omega

theorem selects_position {position : Position} (h : position.isReadable = true)
    (hsize : 0 < focus.size) :
    Selects tree focus position.expr (Keeps tree position focus) := by
  rcases Position.cases_of_isReadable h with hcondition | ⟨-, hnumber⟩
  · obtain ⟨truth, htruth⟩ := position.eval_condition hcondition tree focus
    exact selects_of_eval htruth
  · obtain ⟨number, heval, -⟩ := Position.eval_number hnumber tree hsize
    exact selects_of_eval heval

/-- Predicates without a position select the nodes for which they hold. -/
theorem selects_plain {first : Predicate} {others : List Predicate}
    (h : ∀ predicate ∈ first :: others, predicate.isPlain = true) :
    Selects tree focus
      (others.foldl (fun left predicate => .binary .and left predicate.expr) first.expr)
      (∀ predicate ∈ first :: others, predicate.Holds tree focus.node) := by
  obtain ⟨value, hvalue, htruth, hselects⟩ := tells_conditions h focus.position focus.size
  exact ⟨value, hvalue, by rw [hselects, htruth]⟩

/-- A position behind other predicates is one more operand. -/
theorem conditions_concat (first last : Predicate) (others : List Predicate) :
    conditions (first :: others ++ [last]) =
      [.binary .and
        (others.foldl (fun left predicate => .binary .and left predicate.expr) first.expr)
        last.expr] := by
  show [(others ++ [last]).foldl _ first.expr] = _
  rw [List.foldl_append]
  rfl

/-- Behind other predicates, a position that is a condition has to keep the node too.  The number
of a place asks for nothing there, as it is not zero. -/
theorem selects_beside {first : Predicate} {others : List Predicate}
    (h : ∀ predicate ∈ first :: others, predicate.isPlain = true) {position : Position}
    (hposition : position.isReadable = true) (hsize : 0 < focus.size) :
    Selects tree focus
      (.binary .and
        (others.foldl (fun left predicate => .binary .and left predicate.expr) first.expr)
        position.expr)
      ((∀ predicate ∈ first :: others, predicate.Holds tree focus.node) ∧
        (position.isCondition = true → Keeps tree position focus)) := by
  obtain ⟨value, hvalue, htruth, -⟩ := tells_conditions h focus.position focus.size
  rcases Position.cases_of_isReadable hposition with hcondition | ⟨hno, hnumber⟩
  · obtain ⟨truth, heval⟩ := position.eval_condition hcondition tree focus
    refine ⟨_, eval_and hvalue heval, ?_⟩
    show (value.toBoolean && truth) = true ↔ _
    rw [Bool.and_eq_true, htruth, keeps_of_boolean heval, hcondition, imp_iff_right rfl]
  · obtain ⟨number, heval, htrue⟩ := Position.eval_number hnumber tree hsize
    refine ⟨_, eval_and hvalue heval, ?_⟩
    show (value.toBoolean && number.isTrue) = true ↔ _
    rw [Bool.and_eq_true, htruth, htrue, and_iff_left rfl, hno, and_iff_left (by simp)]

/-! ## One step -/

/-- The foci at which the predicates of a step from the root are evaluated: among the children of
one node that have the tag. -/
def Placed (tree : Tree) (tag : Text) (focus : Focus) : Prop :=
  ∃ above, FocusIn (candidates tree .child (.ofName tag) above) focus

theorem nodup_candidates_child (tree : Tree) (test : NodeTest) (above : Address) :
    (candidates tree .child test above).Nodup := by
  have hchildren : (tree.childrenOf above).Nodup :=
    ((Tree.inDocumentOrder_offspring tree above).sublist (List.sublist_append_right _ _)).nodup
  exact hchildren.sublist List.filter_sublist

theorem Placed.size_pos {tag : Text} (h : Placed tree tag focus) : 0 < focus.size := by
  obtain ⟨above, hfocus⟩ := h
  exact hfocus.size_pos

theorem Placed.element {tag : Text} (h : Placed tree tag focus) :
    tree.kind? focus.node = some .element := by
  obtain ⟨above, hfocus⟩ := h
  exact (holds_ofName.1 (List.mem_filter.1 hfocus.mem).2).1

theorem parent_of_focusIn {tag : Text} {above : Address}
    (h : FocusIn (candidates tree .child (.ofName tag) above) focus) :
    focus.node.parent? = some above := by
  obtain ⟨index, hindex, -⟩ := Tree.mem_childrenOf.1 (List.mem_filter.1 h.mem).1
  exact Address.parent?_eq_some_iff.2 ⟨_, hindex⟩

/-- An element has one place among the children of its parent. -/
theorem Placed.eq {tag : Text} {other : Focus} (h : Placed tree tag focus)
    (hother : Placed tree tag other) (hnode : focus.node = other.node) : focus = other := by
  obtain ⟨above, hfocus⟩ := h
  obtain ⟨above', hfocus'⟩ := hother
  have habove : above = above' := by
    have hparent := parent_of_focusIn hfocus
    rw [hnode, parent_of_focusIn hfocus'] at hparent
    exact (Option.some.inj hparent).symm
  subst habove
  exact FocusIn.eq (nodup_candidates_child _ _ _) hfocus hfocus' hnode

/-- A step finds the nodes, related to its start as its axis says, that its condition selects at
their places. -/
theorem eval_step (tree : Tree) (axis : Axis) {tag : Text} {predicates : List Predicate}
    {condition : Expr} (hconditions : conditions predicates = [condition]) {holds : Focus → Prop}
    (h : ∀ focus, Placed tree tag focus → Selects tree focus condition (holds focus))
    (start : Focus) :
    ∃ nodes, eval tree start (Path.expr ⟨[⟨axis, tag, predicates⟩]⟩) = .ok (.nodes nodes) ∧
      ∀ node, node ∈ nodes ↔ ∃ focus, Placed tree tag focus ∧ focus.node = node ∧
        axis.Relates (axis.origin start.node) node ∧ holds focus := by
  obtain ⟨between, hbetween, hmemBetween⟩ := axis.walk_steps tree [axis.origin start.node]
  have hchildren : ∀ above ∈ between, ∃ list,
      applyPredicates tree [condition] (candidates tree .child (.ofName tag) above) = .ok list ∧
        ∀ other, other ∈ list ↔ ∃ focus,
          FocusIn (candidates tree .child (.ofName tag) above) focus ∧ focus.node = other ∧
            holds focus :=
    fun above _ => applyPredicates_of_selects fun focus hfocus => h focus ⟨above, hfocus⟩
  obtain ⟨nodes, hnodes, hmem⟩ := walk_step hchildren
  refine ⟨nodes, ?_, fun node => ?_⟩
  · rw [Path.expr, eval]
    show startNodes tree start axis.start >>= _ = _
    rw [axis.startNodes_start]
    show walk tree (axis.steps ++ [.mk .child (.ofName tag) (conditions predicates)] ++ []) _
      >>= _ = _
    rw [List.append_nil, walk_append, hbetween, hconditions]
    show walk tree [.mk .child (.ofName tag) [condition]] between >>= _ = _
    rw [hnodes]
    rfl
  · have hrelates : ∀ {above : Address}, node.parent? = some above →
        tree.kind? node = some .element →
          (above ∈ between ↔ axis.Relates (axis.origin start.node) node) := by
      intro above hparent helement
      have hiff := hmemBetween node helement
      simp only [List.mem_singleton, exists_eq_left, hparent, Option.some.injEq,
        exists_eq_right'] at hiff
      exact hiff
    rw [hmem]
    constructor
    · intro hcase
      rcases hcase with ⟨above, habove, focus, hfocus, rfl, hholds⟩
      have hplaced : Placed tree tag focus := ⟨above, hfocus⟩
      exact ⟨focus, hplaced, rfl, (hrelates (parent_of_focusIn hfocus) hplaced.element).1 habove,
        hholds⟩
    · intro hcase
      rcases hcase with ⟨focus, hplaced, rfl, haxis, hholds⟩
      obtain ⟨above, hfocus⟩ := hplaced
      have hplaced : Placed tree tag focus := ⟨above, hfocus⟩
      exact ⟨above, (hrelates (parent_of_focusIn hfocus) hplaced.element).2 haxis, focus, hfocus, rfl,
        hholds⟩

/-- A step from the root finds the nodes that its condition selects at their places. -/
theorem eval_singleStep {tag : Text} {predicates : List Predicate} {condition : Expr}
    (hconditions : conditions predicates = [condition]) {holds : Focus → Prop}
    (h : ∀ focus, Placed tree tag focus → Selects tree focus condition (holds focus))
    (start : Focus) :
    ∃ nodes, eval tree start (Path.expr ⟨[⟨.descendant, tag, predicates⟩]⟩) = .ok (.nodes nodes) ∧
      ∀ node, node ∈ nodes ↔ ∃ focus, Placed tree tag focus ∧ focus.node = node ∧ holds focus := by
  obtain ⟨nodes, hnodes, hmem⟩ := eval_step tree .descendant hconditions h start
  refine ⟨nodes, hnodes, fun node => ?_⟩
  rw [hmem]
  constructor
  · intro hcase
    rcases hcase with ⟨focus, hplaced, hnode, -, hholds⟩
    exact ⟨focus, hplaced, hnode, hholds⟩
  · intro hcase
    rcases hcase with ⟨focus, ⟨above, hfocus⟩, rfl, hholds⟩
    obtain ⟨edge, hedge⟩ := Address.parent?_eq_some_iff.1 (parent_of_focusIn hfocus)
    have hne : focus.node ≠ [] := by
      rw [hedge]
      exact List.append_ne_nil_of_right_ne_nil _ (List.cons_ne_nil _ _)
    have hroot : [] ∈ focus.node.ancestors := Address.mem_ancestors.2 ⟨_, hne, rfl⟩
    exact ⟨focus, ⟨above, hfocus⟩, rfl, hroot, hholds⟩

end Path
end TreeSelect
