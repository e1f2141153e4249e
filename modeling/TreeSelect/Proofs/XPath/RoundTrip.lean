import TreeSelect.Proofs.XPath.TokenRules

/-!
# Expressions are read as they are written

An expression that can be read can be written as tokens, with parentheses where it binds looser than
its place, and whatever text spells the tokens is read as the expression again.

* `Fits` says of tokens that they may stand in a place of some level.  The levels with operators say
  more than that the rule takes them: operands group to the left (`Chained`), and minus signs to the
  right (`Signed`).
* `Fits.enclosed`: with parentheses where it needs them, an expression fits every place.
* `fits_of_readable` is the induction over expressions, and `parse_tokens` what comes of it.
-/

namespace TreeSelect.XPath

open TreeSelect.XPath.Parser TreeSelect.XPath.Grammar TreeSelect.XPath.Lexeme

/-! ## The rules of the levels -/

/-- The rule of a level. -/
def parserAt : Nat → Parser Expr
  | 0 => expr
  | 1 => disjunction expr
  | 2 => conjunction expr
  | 3 => equality expr
  | 4 => relational expr
  | 5 => additive expr
  | 6 => multiplicative expr
  | 7 => unaryExpr expr
  | 8 => unionExpr expr
  | 9 => pathExpr expr
  | 10 => filterExpr expr
  | _ => primary expr

/-- The rule for the operators of a level. -/
def operatorAt : Nat → Parser Operator
  | 1 => wordOperator .or
  | 2 => wordOperator .and
  | 6 => orElse (wordOperator .div) (wordOperator .mod)
  | level => signOperator (operatorsAt level)

theorem parserAt_eq_chain {level : Nat} (hpos : 1 ≤ level) (hlevel : level ≤ 6) :
    parserAt level = chain (parserAt (level + 1)) (operatorAt level) := by
  obtain rfl | rfl | rfl | rfl | rfl | rfl :
      level = 1 ∨ level = 2 ∨ level = 3 ∨ level = 4 ∨ level = 5 ∨ level = 6 := by omega
  all_goals rfl

theorem takes_wordOperator (op : Operator) :
    Takes (wordOperator op) [.fixed op.token] op Anyhow :=
  (takes_fixed fun _ hrest => scanWord_eq_some_iff.2 ⟨rfl, rfl, fun c hc =>
    (ends_name_of_isGap hrest c hc).1⟩).rule.bind_pure fun _ => op

theorem takes_signOperator {operators : List Operator}
    (horder : operators.Pairwise fun first second => ¬ first.token <+: second.token)
    {op : Operator} (h : op ∈ operators) :
    Takes (signOperator operators) [.fixed op.token] op Anyhow := by
  have hgaps : ∀ choice ∈ operators.map fun op => (op.token, op), ∀ c ∈ choice.1,
      isGap c = false := by
    intro choice hchoice
    obtain ⟨op, -, rfl⟩ := List.mem_map.1 hchoice
    cases op <;> decide
  have hchoice := takes_choice (operators.map fun op => (op.token, op))
    (List.pairwise_map.2 horder) hgaps (List.mem_map_of_mem h)
  rw [List.map_map] at hchoice
  exact hchoice.rule

/-- The rule of its level takes an operator. -/
theorem takes_operator (op : Operator) : Takes (operatorAt op.level) [.fixed op.token] op Anyhow := by
  cases op with
  | or | and => exact takes_wordOperator _
  | eq | ne | lt | le | gt | ge | add | sub => exact takes_signOperator (by decide) (by decide)
  | div => exact (takes_wordOperator .div).orElse _
  | mod =>
    have hdiv : Balks (wordOperator .div) [.fixed (Operator.token .mod)] :=
      balks_of_avoids (avoids_fixed (by decide : Avoids ['d'] (Operator.token .mod)))
        fun _ hs => refuses_wordOperator hs (by decide)
    exact hdiv.orElse_takes (takes_wordOperator .mod)

/-- No operator of its own level stands behind an expression. -/
theorem refuses_operator {level : Nat} (hpos : 1 ≤ level) (hlevel : level ≤ 6) {more : List Token}
    {s : Text} (h : Behind level more) (hs : Spelled more s) (hgap : skipGap s = s) :
    (operatorAt level).Refuses s := by
  have havoids : ∀ chars : List Char, (∀ sign ∈ signsBehind level, Avoids chars sign) →
      Avoids chars s := fun _ hsigns => Followed.avoids h hs hgap hsigns
  obtain rfl | rfl | rfl | rfl | rfl | rfl :
      level = 1 ∨ level = 2 ∨ level = 3 ∨ level = 4 ∨ level = 5 ∨ level = 6 := by omega
  · exact refuses_wordOperator (havoids ['o'] (by decide)) (by decide)
  · exact refuses_wordOperator (havoids ['a'] (by decide)) (by decide)
  · exact refuses_signOperator (havoids ['!', '='] (by decide)) (by decide)
  · exact refuses_signOperator (havoids ['<', '>'] (by decide)) (by decide)
  · exact refuses_signOperator (havoids ['+', '-'] (by decide)) (by decide)
  · exact (refuses_wordOperator (havoids ['d', 'm'] (by decide)) (by decide)).orElse
      (refuses_wordOperator (havoids ['d', 'm'] (by decide)) (by decide))

/-! ## Operands with operators between them -/

/-- Operands of the next level with operators of this one between them, which group to the left. -/
inductive Chained (level : Nat) : List Token → Expr → Prop
  | operand {ts : List Token} {e : Expr}
      (h : Takes (parserAt (level + 1)) ts e (Behind (level + 1))) : Chained level ts e
  | more {ts us : List Token} {op : Operator} {left right : Expr} (hleft : Chained level ts left)
      (hop : op.level = level) (hright : Takes (parserAt (level + 1)) us right (Behind (level + 1))) :
      Chained level (ts ++ .fixed op.token :: us) (.binary op left right)

/-- An operator and its right operand. -/
def operation (level : Nat) : Parser (Operator × Expr) := do
  let operator ← operatorAt level
  blanks
  let right ← parserAt (level + 1)
  return (operator, right)

theorem isPart_operation {op : Operator} {us : List Token} {right : Expr}
    (h : Takes (parserAt (op.level + 1)) us right (Behind (op.level + 1))) :
    IsPart (operation op.level) (signsBehind (op.level + 1)) (.fixed op.token :: us) (op, right) where
  takes := (takes_operator op).bind_blanks (h.bind_pure fun right => (op, right)) fun _ _ => trivial
  begins := by
    have hsign : op.token ∈ signsAt op.level := by
      cases op <;> decide
    exact ⟨op.token, List.mem_append_right _ hsign, us, rfl⟩

/-- A chain is a first operand and operators with their right operands. -/
theorem Chained.parts {level : Nat} {ts : List Token} {e : Expr} (h : Chained level ts e) :
    ∃ first us, ∃ others : List (List Token × (Operator × Expr)),
      Takes (parserAt (level + 1)) us first (Behind (level + 1)) ∧
        (∀ p ∈ others, IsPart (operation level) (signsBehind (level + 1)) p.1 p.2) ∧
          ts = us ++ others.flatMap (·.1) ∧
            e = (others.map (·.2)).foldl (fun left other => .binary other.1 left other.2) first := by
  induction h with
  | @operand ts e h => exact ⟨e, ts, [], h, by simp, by simp, rfl⟩
  | @more _ us op _ right _ hop hright ih =>
    obtain ⟨first, vs, others, hfirst, hothers, rfl, rfl⟩ := ih
    subst hop
    refine ⟨first, vs, others ++ [(.fixed op.token :: us, (op, right))], hfirst, ?_, by simp, ?_⟩
    · intro p hp
      rcases List.mem_append.1 hp with hp | hp
      · exact hothers p hp
      · rw [List.mem_singleton.1 hp]
        exact isPart_operation hright
    · rw [List.map_append, List.foldl_append]
      rfl

theorem Chained.takes {level : Nat} (hpos : 1 ≤ level) (hlevel : level ≤ 6) {ts : List Token}
    {e : Expr} (h : Chained level ts e) : Takes (parserAt level) ts e (Behind level) := by
  obtain ⟨first, us, others, hfirst, hothers, rfl, rfl⟩ := h.parts
  rw [parserAt_eq_chain hpos hlevel]
  have hstop : ∀ more s, Behind level more → Spelled more s → skipGap s = s →
      (operation level).Refuses s :=
    fun _ _ hmore hs hgap => (refuses_operator hpos hlevel hmore hs hgap).bind _
  have hchain := hfirst.many (fun first (others : List (Operator × Expr)) =>
    others.foldl (fun left other => Expr.binary other.1 left other.2) first) hothers
    (fun _ hmore => Behind.mono (Nat.le_succ level) hmore) hstop
  exact hchain.rule

/-! ## Minus signs -/

/-- Minus signs before a union. -/
inductive Signed (follow : List Token → Prop) : List Token → Expr → Prop
  | operand {token : Token} {ts : List Token} {e : Expr}
      (h : Takes (unionExpr expr) (token :: ts) e follow) (hminus : token.Avoids ['-']) :
      Signed follow (token :: ts) e
  | minus {ts : List Token} {e : Expr} (h : Signed follow ts e) :
      Signed follow (.fixed ['-'] :: ts) (.negate e)

theorem foldl_negate (signs : List Text) (operand : Expr) :
    signs.foldl (fun operand _ => Expr.negate operand) (.negate operand) =
      .negate (signs.foldl (fun operand _ => Expr.negate operand) operand) := by
  induction signs generalizing operand with
  | nil => rfl
  | cons sign signs ih => exact ih (.negate operand)

theorem Signed.repeats {follow : List Token → Prop} {ts : List Token} {e : Expr}
    (h : Signed follow ts e) {more : List Token} (hmore : follow more) {s : Text}
    (hs : Spelled (ts ++ more) s) :
    ∃ signs middle operand left, Repeats (rule (exactly "-".toList)) s signs middle ∧
      (unionExpr expr).Reads (skipGap middle) operand left ∧ Spelled more left ∧
        left.length < s.length ∧
          e = signs.foldl (fun operand _ => Expr.negate operand) operand := by
  induction h generalizing s with
  | @operand token ts e h hminus =>
    obtain ⟨left, hreads, hleft, hlt⟩ := h more _ hmore hs.skipGap (skipGap_skipGap s)
    have hstop : (rule (exactly "-".toList)).Refuses (skipGap s) :=
      (balks_exactly hminus (by decide)).rule _ _ hs.skipGap (skipGap_skipGap s)
    have hle := length_skipGap_le s
    exact ⟨[], s, e, left, .stop hstop, hreads, hleft, by omega, rfl⟩
  | @minus ts e _ ih =>
    obtain ⟨next, hsign, hnext, hshorter⟩ :=
      (takes_exactly ['-']).rule (ts ++ more) _ trivial hs.skipGap (skipGap_skipGap s)
    obtain ⟨signs, middle, operand, left, hrepeats, hreads, hleft, hlt, rfl⟩ := ih hnext
    have hle := length_skipGap_le s
    refine ⟨_ :: signs, middle, operand, left, .next hsign (by omega) hrepeats, hreads, hleft,
      by omega, ?_⟩
    rw [List.foldl_cons, foldl_negate]

theorem Signed.takes {follow : List Token → Prop} {ts : List Token} {e : Expr}
    (h : Signed follow ts e) : Takes (unaryExpr expr) ts e follow := by
  intro more s hmore hs hgap
  obtain ⟨signs, middle, operand, left, hrepeats, hreads, hleft, hlt, rfl⟩ := h.repeats hmore hs
  have hvalue := reads_pure (signs.foldl (fun operand _ => Expr.negate operand) operand) left
  refine ⟨left, Reads.rule ?_, hleft, hlt⟩
  exact (reads_many hrepeats hgap).bind ((reads_blanks middle).bind (hreads.bind hvalue))

/-! ## Places -/

/-- What the rule of the next level takes alone, the rule of a level takes, too. -/
theorem takes_parserAt {level : Nat} (hlevel : level ≤ 10) {ts : List Token} {e : Expr}
    {follow : List Token → Prop} (h : Takes (parserAt (level + 1)) ts e follow)
    (hfollow : ∀ more, follow more → Behind level more)
    (hminus : level = 7 → ∃ token us, ts = token :: us ∧ token.Avoids ['-']) :
    Takes (parserAt level) ts e follow := by
  by_cases hchain : 1 ≤ level ∧ level ≤ 6
  · rw [parserAt_eq_chain hchain.1 hchain.2]
    have hstop : ∀ more s, follow more → Spelled more s → skipGap s = s →
        (operation level).Refuses s :=
      fun _ _ hmore hs hgap =>
        (refuses_operator hchain.1 hchain.2 (hfollow _ hmore) hs hgap).bind _
    have hchain := h.alone (fun first (others : List (Operator × Expr)) =>
      others.foldl (fun left other => Expr.binary other.1 left other.2) first) hstop
    exact hchain.rule
  obtain rfl | rfl | rfl | rfl | rfl :
      level = 0 ∨ level = 7 ∨ level = 8 ∨ level = 9 ∨ level = 10 := by omega
  · rw [show parserAt 0 = rule (parserAt 1) from expr_eq]
    exact h.rule
  · obtain ⟨token, us, rfl, havoids⟩ := hminus rfl
    exact (Signed.operand h havoids).takes
  · exact takes_unionExpr_alone h hfollow
  · exact takes_filterPath_alone h hfollow
  · exact takes_filterExpr_alone h hfollow

/-- Whether tokens may stand for an expression in a place of some level. -/
structure Fits (level : Nat) (ts : List Token) (e : Expr) : Prop where
  takes : Takes (parserAt level) ts e (Behind level)
  first : 8 ≤ level → ∃ token us, ts = token :: us ∧ token.Avoids ['-']
  chained : 1 ≤ level → level ≤ 6 → Chained level ts e
  signed : level = 7 → Signed (Behind 7) ts e

/-- What fits the next level fits a level. -/
theorem Fits.next {level : Nat} (hlevel : level ≤ 10) {ts : List Token} {e : Expr}
    (h : Fits (level + 1) ts e) : Fits level ts e where
  takes := by
    have hmore := h.takes.mono fun _ => Behind.mono (Nat.le_succ level)
    exact takes_parserAt hlevel hmore (fun _ hmore => hmore) fun hseven => h.first (by omega)
  first := fun height => h.first (by omega)
  chained := fun _ _ => .operand h.takes
  signed := by
    rintro rfl
    obtain ⟨token, us, rfl, havoids⟩ := h.first (by omega)
    exact .operand (h.takes.mono fun _ => Behind.mono (by decide)) havoids

/-- What fits a place fits every looser one. -/
theorem Fits.loosen {level other : Nat} {ts : List Token} {e : Expr} (h : Fits other ts e)
    (hle : level ≤ other) (hother : other ≤ 11) : Fits level ts e := by
  induction hle with
  | refl => exact h
  | step _ ih => exact ih (h.next (by omega)) (by omega)

theorem Fits.of_takes {level : Nat} (hlevel : 8 ≤ level) {token : Token} {us : List Token}
    {e : Expr} (h : Takes (parserAt level) (token :: us) e (Behind level))
    (hminus : token.Avoids ['-']) : Fits level (token :: us) e where
  takes := h
  first := fun _ => ⟨token, us, rfl, hminus⟩
  chained := fun _ _ => by omega
  signed := fun _ => by omega

/-- In parentheses an expression fits every place. -/
theorem Fits.parentheses {ts : List Token} {e : Expr} (h : Fits 0 ts e) :
    Fits 11 (.fixed ['('] :: ts ++ [.fixed [')']]) e :=
  .of_takes (by decide) (takes_parentheses h.takes).anyhow (avoids_fixed (by decide))

theorem Expr.level_le (e : Expr) : e.level ≤ 11 := by
  unfold Expr.level
  split <;> try decide
  rename_i op _ _
  cases op <;> decide

variable {spare : Nat → Expr → Bool}

/-- With parentheses where it needs them, an expression fits every place. -/
theorem Fits.enclosed {e : Expr} {ts : List Token} (h : Fits e.level ts e) {level : Nat}
    (hlevel : level ≤ 11) : Fits level (XPath.enclosed spare level e ts) e := by
  unfold XPath.enclosed
  split
  case isTrue =>
    exact (h.loosen (Nat.zero_le _) e.level_le).parentheses.loosen hlevel (Nat.le_refl _)
  case isFalse hcase =>
    rw [not_or, Nat.not_lt] at hcase
    exact h.loosen hcase.1 e.level_le

/-! ## Lists of expressions and steps -/

theorem separated_eq (level : Nat) (separator : Text) (exprs : List Expr) :
    separated spare level separator exprs = exprs.flatMap fun e =>
      .fixed separator :: enclosed spare level e (e.bare spare) := by
  induction exprs with
  | nil => rw [separated, List.flatMap_nil]
  | cons e exprs ih => rw [separated, ih, List.flatMap_cons]

theorem brackets_eq (predicates : List Expr) :
    brackets spare predicates = predicates.flatMap fun e =>
      .fixed ['['] :: enclosed spare 0 e (e.bare spare) ++ [.fixed [']']] := by
  induction predicates with
  | nil => rw [brackets, List.flatMap_nil]
  | cons e predicates ih =>
    rw [brackets, ih, List.flatMap_cons]
    simp

/-- The tokens of a step. -/
def stepTokens (spare : Nat → Expr → Bool) (step : Step) : List Token :=
  .fixed step.axis.name :: .fixed "::".toList ::
    (step.test.tokens ++ brackets spare step.predicates)

theorem furtherSteps_eq (steps : List Step) :
    furtherSteps spare steps = steps.flatMap fun step => .fixed ['/'] :: stepTokens spare step := by
  induction steps with
  | nil => rw [furtherSteps, List.flatMap_nil]
  | cons step steps ih =>
    obtain ⟨axis, test, predicates⟩ := step
    rw [furtherSteps, ih, List.flatMap_cons]
    simp [stepTokens, Step.axis, Step.test, Step.predicates]

/-- Whether the tokens of an expression fit the places of its own level. -/
def FitsOwn (spare : Nat → Expr → Bool) (e : Expr) : Prop := Fits e.level (e.bare spare) e

theorem FitsOwn.enclosed {e : Expr} (h : FitsOwn spare e) {level : Nat} (hlevel : level ≤ 11) :
    Fits level (XPath.enclosed spare level e (e.bare spare)) e :=
  Fits.enclosed h hlevel

/-- Predicates in their brackets are further parts. -/
theorem isPart_brackets {predicates : List Expr} (h : ∀ e ∈ predicates, FitsOwn spare e) :
    ∃ parts : List (List Token × Expr), parts.map (·.2) = predicates ∧
      parts.flatMap (·.1) = brackets spare predicates ∧
        ∀ p ∈ parts, IsPart (predicate expr) (signsBehind 11) p.1 p.2 := by
  refine ⟨predicates.map fun e =>
    (.fixed ['['] :: enclosed spare 0 e (e.bare spare) ++ [.fixed [']']], e), ?_, ?_, ?_⟩
  · exact map_values _ predicates
  · rw [List.flatMap_map, brackets_eq]
  · refine List.forall_mem_map.2 fun e he => ?_
    have hinside : Takes expr (enclosed spare 0 e (e.bare spare)) e (Behind 0) :=
      ((h e he).enclosed (Nat.zero_le 11)).takes
    exact isPart_predicate hinside

theorem takes_stepTokens {step : Step} (htest : step.test.IsWritten)
    (h : ∀ e ∈ step.predicates, FitsOwn spare e) :
    Takes (Grammar.step expr) (stepTokens spare step) step (Behind 10) := by
  obtain ⟨axis, test, predicates⟩ := step
  obtain ⟨parts, hvalues, htokens, hparts⟩ := isPart_brackets h
  have hstep := takes_step axis htest hparts
  rw [hvalues, htokens] at hstep
  exact hstep

/-- Steps with slashes between them are a relative path, which begins with the name of an axis. -/
theorem takes_furtherSteps {steps : List Step} (hne : steps ≠ [])
    (htests : ∀ step ∈ steps, step.test.IsWritten)
    (h : ∀ step ∈ steps, ∀ e ∈ step.predicates, FitsOwn spare e) :
    ∃ axis us, furtherSteps spare steps =
        .fixed ['/'] :: .fixed (Axis.name axis) :: .fixed "::".toList :: us ∧
      Takes (relativePath expr) (.fixed axis.name :: .fixed "::".toList :: us) steps (Behind 9) := by
  obtain ⟨first, others, rfl⟩ := List.exists_cons_of_ne_nil hne
  have hsteps : ∀ step ∈ first :: others,
      Takes (Grammar.step expr) (stepTokens spare step) step (Behind 10) :=
    fun step hstep => takes_stepTokens (htests step hstep) (h step hstep)
  have hothers : ∀ other ∈ others.map fun step => (stepTokens spare step, step),
      Takes (Grammar.step expr) other.1 other.2 (Behind 10) :=
    List.forall_mem_map.2 fun step hstep => hsteps step (List.mem_cons_of_mem first hstep)
  have hpath := takes_relativePath (hsteps first List.mem_cons_self) hothers
  rw [List.flatMap_map, map_values] at hpath
  refine ⟨first.axis, first.test.tokens ++ brackets spare first.predicates ++
    others.flatMap (fun step => .fixed ['/'] :: stepTokens spare step), ?_, hpath⟩
  rw [furtherSteps_eq]
  rfl

/-- The parts of a union or of arguments, each behind a separator. -/
theorem tail_separated {level : Nat} {separator : Text} {first : Expr} {others : List Expr} :
    (separated spare level separator (first :: others)).tail =
      enclosed spare level first (first.bare spare) ++
        others.flatMap fun e => .fixed separator :: enclosed spare level e (e.bare spare) := by
  rw [separated_eq, List.flatMap_cons, List.cons_append, List.tail_cons]

/-! ## Expressions -/

/-- What a rule takes where brackets close or the text ends is an expression there. -/
theorem takes_expr {level : Nat} (hlevel : level ≤ 11) {token : Token} {us : List Token} {e : Expr}
    (h : Takes (parserAt level) (token :: us) e (Behind 0)) (hminus : token.Avoids ['-']) :
    Takes expr (token :: us) e (Behind 0) := by
  induction level with
  | zero => exact h
  | succ level ih =>
    exact ih (by omega) (takes_parserAt (by omega) h (fun _ => Behind.mono (Nat.zero_le level))
      fun _ => ⟨token, us, rfl, hminus⟩)

/-- The root alone fits no places but those for whole expressions. -/
theorem fitsOwn_root : FitsOwn spare (.path .root []) := by
  have hroot : Takes expr [.fixed ['/']] (.path .root []) (Behind 0) :=
    takes_expr (by decide : 9 ≤ 11) takes_root (avoids_fixed (by decide))
  show Fits 0 _ _
  rw [Expr.bare]
  exact {
    takes := hroot
    first := fun height => absurd height (by decide)
    chained := fun hpos _ => absurd hpos (by decide)
    signed := fun hseven => absurd hseven (by decide) }

/-- A path fits its own places. -/
theorem fitsOwn_path {start : Start} {steps : List Step} {token : Token} {us : List Token}
    (hlevel : (Expr.path start steps).level = 9)
    (hbare : (Expr.path start steps).bare spare = token :: us)
    (h : Takes (pathExpr expr) (token :: us) (.path start steps) (Behind 9))
    (hminus : token.Avoids ['-']) : FitsOwn spare (.path start steps) := by
  rw [FitsOwn, hlevel, hbare]
  exact .of_takes (by decide) h hminus

theorem fitsOwn_filter {primary : Expr} {predicates : List Expr} (hprimary : FitsOwn spare primary)
    (hne : predicates ≠ []) (hpredicates : ∀ e ∈ predicates, FitsOwn spare e) :
    FitsOwn spare (.filter primary predicates) := by
  obtain ⟨parts, rfl, htokens, hparts⟩ := isPart_brackets hpredicates
  have hfirst := hprimary.enclosed (Nat.le_refl 11)
  obtain ⟨token, us, hstarts, hminus⟩ := hfirst.first (by decide)
  have hfilter := takes_filterExpr hfirst.takes (by simpa using hne) hparts
  rw [htokens, hstarts] at hfilter
  show Fits 10 _ _
  rw [Expr.bare, hstarts]
  exact .of_takes (by decide) hfilter hminus

theorem fitsOwn_call {function : Text} {arguments : List Expr} (hname : isName function = true)
    (hkind : ∀ kind ∈ kindWords, function ≠ kind.1) (h : ∀ e ∈ arguments, FitsOwn spare e) :
    FitsOwn spare (.call function arguments) := by
  have hvalues : ∀ value ∈ arguments.map fun e => (enclosed spare 0 e (e.bare spare), e),
      Takes expr value.1 value.2 (Behind 0) :=
    List.forall_mem_map.2 fun e he => ((h e he).enclosed (Nat.zero_le 11)).takes
  have hcall := takes_call hname hkind hvalues
  rw [map_values, List.flatMap_map, ← separated_eq] at hcall
  show Fits 11 _ _
  rw [Expr.bare]
  exact .of_takes (by decide) hcall.anyhow
    (avoids_fixed ((avoids_of_isName hname).mono (by decide)))

theorem fitsOwn_binary {operator : Operator} {left right : Expr} (hleft : FitsOwn spare left)
    (hright : FitsOwn spare right) : FitsOwn spare (.binary operator left right) := by
  have hlevel : 1 ≤ operator.level ∧ operator.level ≤ 6 := by
    cases operator <;> decide
  have hchained : Chained operator.level ((Expr.binary operator left right).bare spare)
      (.binary operator left right) := by
    rw [Expr.bare]
    exact .more ((hleft.enclosed (by omega)).chained hlevel.1 hlevel.2) rfl
      (hright.enclosed (by omega)).takes
  exact {
    takes := hchained.takes hlevel.1 hlevel.2
    first := fun height => by
      have hten : 8 ≤ operator.level := height
      omega
    chained := fun _ _ => hchained
    signed := fun hseven => by
      have heq : operator.level = 7 := hseven
      omega }

theorem fitsOwn_negate {operand : Expr} (h : FitsOwn spare operand) :
    FitsOwn spare (.negate operand) := by
  have hsigned : Signed (Behind 7) ((Expr.negate operand).bare spare) (.negate operand) := by
    rw [Expr.bare]
    exact .minus ((h.enclosed (by decide)).signed rfl)
  exact {
    takes := hsigned.takes
    first := fun height => absurd height (by decide : ¬ 8 ≤ 7)
    chained := fun _ hsix => absurd hsix (by decide : ¬ 7 ≤ 6)
    signed := fun _ => hsigned }

theorem fitsOwn_union {branches : List Expr} (hlength : 2 ≤ branches.length)
    (h : ∀ e ∈ branches, FitsOwn spare e) : FitsOwn spare (.union branches) := by
  have hplaces : ∀ e ∈ branches, Fits 9 (enclosed spare 9 e (e.bare spare)) e :=
    fun e he => (h e he).enclosed (by decide)
  have hvalues : ∀ value ∈ branches.map fun e => (enclosed spare 9 e (e.bare spare), e),
      Takes (pathExpr expr) value.1 value.2 (Behind 9) :=
    List.forall_mem_map.2 fun e he => (hplaces e he).takes
  have hunion := takes_unionExpr (by rwa [List.length_map]) hvalues
  rw [map_values, List.flatMap_map, ← separated_eq] at hunion
  obtain ⟨first, others, rfl⟩ := List.exists_cons_of_length_pos (Nat.zero_lt_of_lt hlength)
  obtain ⟨token, us, hstarts, hminus⟩ := (hplaces first List.mem_cons_self).first (by decide)
  rw [tail_separated, hstarts] at hunion
  show Fits 8 _ _
  rw [Expr.bare, tail_separated, hstarts]
  exact .of_takes (by decide) hunion hminus

/-- What can be written fits the places that its tokens need. -/
theorem fits_of_readable {e : Expr} (h : Readable e) : FitsOwn spare e := by
  induction h with
  | @number value h =>
    show Fits 11 _ _
    rw [Expr.bare_number]
    exact .of_takes (by decide) (takes_primary_number value).anyhow (avoids_number (by decide) value)
  | @literal value h =>
    show Fits 11 _ _
    rw [Expr.bare_literal]
    exact .of_takes (by decide) (takes_primary_literal value).anyhow
      (avoids_literal (by decide) value)
  | @root steps htests _ ih =>
    by_cases hne : steps = []
    · subst hne
      exact fitsOwn_root
    · obtain ⟨axis, us, htokens, hsteps⟩ := takes_furtherSteps hne htests ih
      obtain ⟨first, others, rfl⟩ := List.exists_cons_of_ne_nil hne
      refine fitsOwn_path rfl ?_ (takes_rootPath hsteps) (avoids_fixed (by decide))
      rw [Expr.bare]
      simp only [htokens, List.isEmpty_cons, Bool.false_eq_true, if_false]
  | @context steps hne htests _ ih =>
    obtain ⟨axis, us, htokens, hsteps⟩ := takes_furtherSteps hne htests ih
    refine fitsOwn_path rfl ?_ (takes_contextPath hsteps) ?_
    · rw [Expr.bare]
      simp only [htokens, List.tail_cons]
    · exact avoids_fixed ((avoids_of_isName (isName_axisName axis)).mono (by decide))
  | @path nodes steps _ hne htests _ ihNodes ih =>
    obtain ⟨axis, us, htokens, hsteps⟩ := takes_furtherSteps hne htests ih
    have hbase := ihNodes.enclosed (by decide : 10 ≤ 11)
    obtain ⟨token, vs, hstarts, hminus⟩ := hbase.first (by decide)
    have hpath := takes_filterPath hbase.takes hsteps
    rw [hstarts] at hpath
    refine fitsOwn_path rfl ?_ hpath hminus
    rw [Expr.bare]
    simp only [htokens, hstarts, List.cons_append]
    rfl
  | filter _ hne _ ihPrimary ih => exact fitsOwn_filter ihPrimary hne ih
  | call hname hkind _ ih => exact fitsOwn_call hname hkind ih
  | binary _ _ ihLeft ihRight => exact fitsOwn_binary ihLeft ihRight
  | negate _ ih => exact fitsOwn_negate ih
  | union hlength _ ih => exact fitsOwn_union hlength ih

/-! ## Whole texts -/

/-- A text that spells the tokens of an expression that can be written is read as the expression. -/
theorem parse_of_spelled {e : Expr} (h : Readable e) {text : Text}
    (htext : Spelled (e.tokens spare) text) : parse text = .ok e := by
  have hexpr : Takes expr (e.tokens spare) e (Behind 0) :=
    ((fits_of_readable h).enclosed (Nat.zero_le 11)).takes
  have hspelled : Spelled (e.tokens spare ++ []) (skipGap text) := by
    rw [List.append_nil]
    exact htext.skipGap
  have hend : Behind 0 [] := by
    intro token htoken
    cases htoken
  obtain ⟨left, hreads, hleft, -⟩ := hexpr [] _ hend hspelled (skipGap_skipGap text)
  have hnothing := reads_blanks left
  rw [hleft.skipGap.eq_nil (skipGap_skipGap left)] at hnothing
  have hatEnd : atEnd.Reads [] () [] := Reads.rule fun offset => ⟨offset, 0, rfl⟩
  refine parse_eq_ok (Reads.rule ?_)
  exact (reads_blanks text).bind (hreads.bind (hnothing.bind (hatEnd.bind (reads_pure e []))))

/-! ## Texts for tokens -/

/-- Whether each of the tokens has a text. -/
def Spellable (tokens : List Token) : Prop := ∀ token ∈ tokens, ∃ s, token.Spells s

theorem Spellable.append {ts us : List Token} (hts : Spellable ts) (hus : Spellable us) :
    Spellable (ts ++ us) := by
  intro token htoken
  rcases List.mem_append.1 htoken with htoken | htoken
  · exact hts token htoken
  · exact hus token htoken

theorem spellable_flatMap {α : Type} {list : List α} {f : α → List Token}
    (h : ∀ a ∈ list, Spellable (f a)) : Spellable (list.flatMap f) := by
  intro token htoken
  obtain ⟨a, ha, htoken⟩ := List.mem_flatMap.1 htoken
  exact h a ha token htoken

theorem spellable_fixed {text : Text} (hne : text ≠ []) (hgap : ∀ c ∈ text, isGap c = false) :
    Spellable [.fixed text] := by
  intro token htoken
  rw [List.mem_singleton.1 htoken]
  exact ⟨text, rfl, hne, hgap⟩

theorem spellable_name {name : Text} (h : isName name = true) : Spellable [.fixed name] := by
  obtain ⟨c, rest, hcons, -⟩ := exists_isNameStart h
  exact spellable_fixed (by rw [hcons]; exact List.cons_ne_nil _ _) fun c hc =>
    (not_gap_of_isName h c hc).1

theorem Spellable.enclosed {ts : List Token} (h : Spellable ts) (level : Nat) (e : Expr) :
    Spellable (XPath.enclosed spare level e ts) := by
  unfold XPath.enclosed
  split
  case isTrue =>
    exact ((spellable_fixed (by decide) (by decide) : Spellable [.fixed ['(']]).append h).append
      (spellable_fixed (by decide) (by decide))
  case isFalse => exact h

theorem spellable_brackets {predicates : List Expr}
    (h : ∀ e ∈ predicates, Spellable (e.bare spare)) : Spellable (brackets spare predicates) := by
  rw [brackets_eq]
  refine spellable_flatMap fun e he => ?_
  exact ((spellable_fixed (by decide) (by decide) : Spellable [.fixed ['[']]).append
    ((h e he).enclosed 0 e)).append (spellable_fixed (by decide) (by decide))

theorem spellable_separated {level : Nat} {separator : Text} {exprs : List Expr}
    (hseparator : Spellable [.fixed separator]) (h : ∀ e ∈ exprs, Spellable (e.bare spare)) :
    Spellable (separated spare level separator exprs) := by
  rw [separated_eq]
  exact spellable_flatMap fun e he => hseparator.append ((h e he).enclosed level e)

theorem spellable_furtherSteps {steps : List Step} (htests : ∀ step ∈ steps, step.test.IsWritten)
    (h : ∀ step ∈ steps, ∀ e ∈ step.predicates, Spellable (e.bare spare)) :
    Spellable (furtherSteps spare steps) := by
  rw [furtherSteps_eq]
  refine spellable_flatMap fun step hstep => ?_
  have htest : Spellable step.test.tokens := by
    have hwritten := htests step hstep
    have hkind {word : Text} (hne : word ≠ []) (hgap : ∀ c ∈ word, isGap c = false) :
        Spellable [.fixed word, .fixed ['('], .fixed [')']] :=
      ((spellable_fixed hne hgap).append (spellable_fixed (by decide) (by decide))).append
        (spellable_fixed (by decide) (by decide))
    cases htest : step.test with
    | any => exact spellable_fixed (by decide) (by decide)
    | name expected =>
      rw [htest] at hwritten
      exact spellable_name hwritten
    | node | text | comment => exact hkind (by decide) (by decide)
  have haxis : Spellable [.fixed ['/'], .fixed step.axis.name, .fixed "::".toList] :=
    ((spellable_fixed (by decide) (by decide) : Spellable [.fixed ['/']]).append
      (spellable_name (isName_axisName step.axis))).append
        (spellable_fixed (by decide) (by decide))
  exact haxis.append (htest.append (spellable_brackets (h step hstep)))

/-- Each token of an expression that can be written has a text. -/
theorem spellable_bare {e : Expr} (h : Readable e) : Spellable (e.bare spare) := by
  induction h with
  | number h | literal h =>
    simp only [Expr.bare_number, Expr.bare_literal]
    intro token htoken
    rw [List.mem_singleton.1 htoken]
    exact h
  | root htests _ ih =>
    rw [Expr.bare]
    split
    case isTrue => exact spellable_fixed (by decide) (by decide)
    case isFalse => exact spellable_furtherSteps htests ih
  | context _ htests _ ih =>
    rw [Expr.bare]
    exact fun token htoken => spellable_furtherSteps htests ih token (List.mem_of_mem_tail htoken)
  | path _ _ htests _ ihNodes ih =>
    rw [Expr.bare]
    exact (ihNodes.enclosed 10 _).append (spellable_furtherSteps htests ih)
  | filter _ _ _ ihPrimary ih =>
    rw [Expr.bare]
    exact (ihPrimary.enclosed 11 _).append (spellable_brackets ih)
  | call hname _ _ ih =>
    rw [Expr.bare]
    have hcomma : Spellable [.fixed [',']] := spellable_fixed (by decide) (by decide)
    have harguments : Spellable (separated spare 0 [','] _) := spellable_separated hcomma ih
    have hopen : Spellable [.fixed ['(']] := spellable_fixed (by decide) (by decide)
    refine (((spellable_name hname).append hopen).append fun token htoken => ?_).append
      (spellable_fixed (by decide) (by decide))
    exact harguments token (List.mem_of_mem_tail htoken)
  | @binary operator _ _ _ _ ihLeft ihRight =>
    rw [Expr.bare]
    have hoperator : Spellable [.fixed operator.token] := by
      cases operator <;> exact spellable_fixed (by decide) (by decide)
    exact (ihLeft.enclosed _ _).append (hoperator.append (ihRight.enclosed _ _))
  | negate _ ih =>
    rw [Expr.bare]
    exact (spellable_fixed (by decide) (by decide) : Spellable [.fixed ['-']]).append
      (ih.enclosed 7 _)
  | union _ _ ih =>
    rw [Expr.bare]
    have hbar : Spellable [.fixed ['|']] := spellable_fixed (by decide) (by decide)
    exact fun token htoken => spellable_separated hbar ih token (List.mem_of_mem_tail htoken)

/-- Texts of tokens with a blank before each of them spell the tokens. -/
theorem spelled_flatMap {pairs : List (Token × Text)} (h : ∀ p ∈ pairs, p.1.Spells p.2) :
    Spelled (pairs.map (·.1)) (pairs.flatMap fun p => ' ' :: p.2) := by
  induction pairs with
  | nil =>
    intro c hc
    cases hc
  | cons p pairs ih =>
    have hlater := ih fun q hq => h q (List.mem_cons_of_mem p hq)
    refine ⟨[' '], p.2, pairs.flatMap fun q => ' ' :: q.2, rfl, by decide, h p List.mem_cons_self,
      ?_, hlater⟩
    intro c hc
    cases pairs with
    | nil => cases hc
    | cons q pairs =>
      cases hc
      decide

theorem spelled_words (words : List Text)
    (h : ∀ word ∈ words, word ≠ [] ∧ ∀ c ∈ word, isGap c = false) :
    Spelled (words.map .fixed) (words.flatMap fun word => ' ' :: word) := by
  have hpairs : ∀ p ∈ words.map fun word => (Token.fixed word, word), p.1.Spells p.2 := by
    intro p hp
    obtain ⟨word, hword, rfl⟩ := List.mem_map.1 hp
    exact ⟨rfl, h word hword⟩
  have hspelled := spelled_flatMap hpairs
  rwa [List.map_map, List.flatMap_map] at hspelled

theorem exists_spelled {tokens : List Token} (h : Spellable tokens) :
    ∃ text, Spelled tokens text := by
  have hpairs : ∃ pairs : List (Token × Text), pairs.map (·.1) = tokens ∧
      ∀ p ∈ pairs, p.1.Spells p.2 := by
    induction tokens with
    | nil => exact ⟨[], rfl, by simp⟩
    | cons token tokens ih =>
      obtain ⟨s, hs⟩ := h token List.mem_cons_self
      obtain ⟨pairs, rfl, hpairs⟩ := ih fun other hother =>
        h other (List.mem_cons_of_mem token hother)
      refine ⟨(token, s) :: pairs, rfl, fun p hp => ?_⟩
      rcases List.mem_cons.1 hp with rfl | hp
      · exact hs
      · exact hpairs p hp
  obtain ⟨pairs, rfl, hpairs⟩ := hpairs
  exact ⟨_, spelled_flatMap hpairs⟩

/-! ## The round trip -/

/-- Whatever expression a text is read as, it can be written as tokens, with axes and node tests in
full and with parentheses where it needs them or where `spare` wants them; and each text that spells
the tokens is read as the expression again.  Where `spare` wants none there are only those that the
grammar needs. -/
theorem parse_tokens {s : Text} {e : Expr} (h : parse s = .ok e) (spare : Nat → Expr → Bool) :
    (∃ text, Spelled (e.tokens spare) text) ∧
      ∀ text, Spelled (e.tokens spare) text → parse text = .ok e := by
  have hreadable := readable_of_parse h
  refine ⟨exists_spelled ?_, fun text htext => parse_of_spelled hreadable htext⟩
  exact (spellable_bare hreadable).enclosed 0 e

/-- The parentheses around the right operand stay, those around the whole expression go, and the words
of the operators are names where they stand behind an axis. -/
theorem parse_tokens_minus :
    parse " ( - child :: or - ( child :: mod - last ( ) ) )".toList =
        .ok (.binary .sub (.negate (.path .context [.mk .child (.name "or".toList) []]))
          (.binary .sub (.path .context [.mk .child (.name "mod".toList) []])
            (.call "last".toList []))) ∧
      parse " - child :: or - ( child :: mod - last ( ) )".toList =
        .ok (.binary .sub (.negate (.path .context [.mk .child (.name "or".toList) []]))
          (.binary .sub (.path .context [.mk .child (.name "mod".toList) []])
            (.call "last".toList []))) := by
  let words : List Text := ["-", "child", "::", "or", "-", "(", "child", "::", "mod", "-", "last",
    "(", ")", ")"].map String.toList
  have hpath {name : Text} (h : isName name = true) :
      Readable (.path .context [.mk .child (.name name) []]) :=
    .context (by simp) (by simpa [Step.test, NodeTest.IsWritten] using h)
      (by simp [Step.predicates])
  have hcall : Readable (.call "last".toList []) := .call (by decide) (by decide) (by simp)
  have hreadable : Readable
      (.binary .sub (.negate (.path .context [.mk .child (.name "or".toList) []]))
        (.binary .sub (.path .context [.mk .child (.name "mod".toList) []])
          (.call "last".toList []))) :=
    .binary (.negate (hpath (by decide))) (.binary (hpath (by decide)) hcall)
  have hclosed : Spelled (['('] :: words ++ [[')']] |>.map Token.fixed)
      " ( - child :: or - ( child :: mod - last ( ) ) )".toList := spelled_words _ (by decide)
  have hround := @parse_of_spelled (fun level _ => level == 0) _ hreadable _ hclosed
  exact ⟨hround, (parse_tokens hround fun _ _ => false).2 _ (spelled_words words (by decide))⟩

end TreeSelect.XPath
