import TreeSelect.Proofs.XPath.Lexemes
import TreeSelect.XPath.Grammar

/-!
# The depth of brackets is no limit

`Grammar.exprAt` reads expressions up to a depth of brackets.  Each bracket takes a character, so a
depth above the length of the text changes nothing, and reading without a limit is well defined:
`Grammar.expr` is the parser that gives each text a depth that is enough for it.  `expr_eq` is the
equation of the grammar's rule for expressions, with no depth in it, and all that is said about
reading expressions starts from it.

`Agrees n p q` says that two parsers do the same on texts shorter than `n` and never leave more text
than they were given.  Each rule of the grammar has one lemma, which carries agreement of the parsers
of the expressions in brackets over to the rule.
-/

namespace TreeSelect.XPath

namespace Parser

variable {α β : Type}

/-- Two parsers do the same on texts shorter than `n`, and what they leave is no longer than what
they were given. -/
def Agrees (n : Nat) (p q : Parser α) : Prop :=
  ∀ cursor : Cursor, cursor.rest.length < n → p cursor = q cursor ∧
    ∀ value next furthest, p cursor = ⟨some (value, next), furthest⟩ →
      next.rest.length ≤ cursor.rest.length

/-! ## Combinators -/

theorem agrees_pure (n : Nat) (value : α) : Agrees n (pure value) (pure value) := by
  intro cursor _
  refine ⟨rfl, ?_⟩
  intro _ next _ h
  cases h
  exact Nat.le_refl _

theorem agrees_fail (n : Nat) : Agrees n (fail : Parser α) fail := by
  intro cursor _
  refine ⟨rfl, ?_⟩
  intro _ _ _ h
  cases h

theorem agrees_blanks (n : Nat) : Agrees n blanks blanks := by
  intro cursor _
  refine ⟨rfl, ?_⟩
  intro _ next _ h
  cases h
  exact length_skipGap_le cursor.rest

theorem agrees_lexeme (n : Nat) {scan : Text → Option (Text × Text)} (hscan : Lexeme.Splits scan) :
    Agrees n (lexeme scan) (lexeme scan) := by
  intro cursor _
  refine ⟨rfl, ?_⟩
  intro _ next _ h
  unfold lexeme at h
  split at h
  case h_1 taken rest hsome =>
    cases h
    show rest.length ≤ cursor.rest.length
    rw [hscan _ _ _ hsome, List.length_append]
    exact Nat.le_add_left _ _
  case h_2 => cases h

theorem agrees_exactly (n : Nat) (expected : Text) :
    Agrees n (exactly expected) (exactly expected) :=
  agrees_lexeme n (Lexeme.splits_scanText expected)

theorem Agrees.bind {n : Nat} {p q : Parser α} {f g : α → Parser β} (h : Agrees n p q)
    (hnext : ∀ a, Agrees n (f a) (g a)) : Agrees n (p >>= f) (q >>= g) := by
  intro cursor hlt
  obtain ⟨heq, hle⟩ := h cursor hlt
  show andThen p f cursor = andThen q g cursor ∧ _
  rw [show (p >>= f) = andThen p f from rfl]
  unfold andThen
  rw [← heq]
  rcases hp : p cursor with ⟨_ | ⟨a, next⟩, furthest⟩
  · refine ⟨rfl, ?_⟩
    intro _ _ _ hnone
    cases hnone
  · have hnextLe := hle a next furthest hp
    obtain ⟨hsame, hless⟩ := hnext a next (by omega)
    simp only [← hsame]
    refine ⟨trivial, ?_⟩
    rcases hf : f a next with ⟨result, others⟩
    intro value last total hlast
    cases hlast
    exact Nat.le_trans (hless value last others hf) hnextLe

/-- Behind a sign there is less text, so that what follows has to agree on shorter texts only. -/
theorem agrees_exactly_bind {n : Nat} {expected : Text} (hne : expected ≠ [])
    {f g : Text → Parser β} (hnext : ∀ a, Agrees n (f a) (g a)) :
    Agrees (n + 1) (exactly expected >>= f) (exactly expected >>= g) := by
  intro cursor hlt
  rw [show (exactly expected >>= f) = andThen (exactly expected) f from rfl,
    show (exactly expected >>= g) = andThen (exactly expected) g from rfl]
  unfold andThen exactly lexeme
  rcases hscan : scanText expected cursor.rest with _ | ⟨taken, rest⟩
  · refine ⟨rfl, ?_⟩
    intro _ _ _ hnone
    cases hnone
  · obtain ⟨rfl, hrest⟩ := scanText_eq_some_iff.1 hscan
    have hlength : cursor.rest.length = taken.length + rest.length := by
      rw [hrest, List.length_append]
    have hpos : 0 < taken.length := List.length_pos_iff.2 hne
    obtain ⟨hsame, hless⟩ := hnext taken ⟨cursor.offset + taken.bytes, rest⟩
      (show rest.length < n by omega)
    simp only [← hsame]
    refine ⟨trivial, ?_⟩
    rcases hf : f taken ⟨cursor.offset + taken.bytes, rest⟩ with ⟨result, others⟩
    intro value last total hlast
    cases hlast
    have hle : last.rest.length ≤ rest.length := hless value last others hf
    omega

theorem Agrees.orElse {n : Nat} {p p' q q' : Parser α} (h : Agrees n p q) (h' : Agrees n p' q') :
    Agrees n (Parser.orElse p p') (Parser.orElse q q') := by
  intro cursor hlt
  obtain ⟨heq, hle⟩ := h cursor hlt
  obtain ⟨heq', hle'⟩ := h' cursor hlt
  unfold Parser.orElse
  rw [← heq, ← heq']
  rcases hp : p cursor with ⟨_ | taken, furthest⟩
  · refine ⟨rfl, ?_⟩
    rcases hp' : p' cursor with ⟨result, others⟩
    intro value next total hlast
    cases hlast
    exact hle' value next others hp'
  · refine ⟨rfl, ?_⟩
    intro value next total hlast
    cases hlast
    exact hle value next furthest hp

theorem Agrees.oneOf_cons {n : Nat} {p q : Parser α} {ps qs : List (Parser α)} (h : Agrees n p q)
    (hothers : Agrees n (oneOf ps) (oneOf qs)) : Agrees n (oneOf (p :: ps)) (oneOf (q :: qs)) :=
  h.orElse hothers

theorem agrees_oneOf {n : Nat} {ps : List (Parser α)} (h : ∀ p ∈ ps, Agrees n p p) :
    Agrees n (oneOf ps) (oneOf ps) := by
  induction ps with
  | nil => exact agrees_fail n
  | cons p ps ih =>
    exact (h p List.mem_cons_self).oneOf_cons
      (ih fun other hother => h other (List.mem_cons_of_mem _ hother))

theorem Agrees.optional {n : Nat} {p q : Parser α} (h : Agrees n p q) :
    Agrees n (Parser.optional p) (Parser.optional q) :=
  (h.bind fun a => agrees_pure n (some a)).orElse (agrees_pure n none)

theorem Agrees.absent {n : Nat} {p q : Parser α} (h : Agrees n p q) :
    Agrees n (Parser.absent p) (Parser.absent q) := by
  intro cursor hlt
  obtain ⟨heq, -⟩ := h cursor hlt
  unfold Parser.absent
  rw [← heq]
  refine ⟨rfl, ?_⟩
  intro _ _ _ hsome
  split at hsome
  · cases hsome
  · cases hsome
    exact Nat.le_refl _

theorem Agrees.rule {n : Nat} {p q : Parser α} (h : Agrees n p q) :
    Agrees n (Parser.rule p) (Parser.rule q) := by
  intro cursor hlt
  obtain ⟨heq, hle⟩ := h cursor hlt
  unfold Parser.rule
  rw [← heq]
  refine ⟨rfl, ?_⟩
  rcases hp : p cursor with ⟨_ | ⟨a, last⟩, furthest⟩
  · intro _ _ _ hnone
    cases hnone
  · intro value next total hsome
    cases hsome
    exact hle a last furthest hp

theorem Agrees.manyDirect {n : Nat} {p q : Parser α} (h : Agrees n p q) :
    Agrees n (Parser.manyDirect p) (Parser.manyDirect q) := by
  intro cursor
  induction hlength : cursor.rest.length using Nat.strongRecOn generalizing cursor with
  | _ length ih =>
    intro hlt
    obtain ⟨heq, hle⟩ := h cursor (by omega)
    rw [Parser.manyDirect, Parser.manyDirect, ← heq]
    rcases hp : p cursor with ⟨_ | ⟨a, next⟩, furthest⟩
    · refine ⟨rfl, ?_⟩
      intro _ last _ hnone
      cases hnone
      omega
    · have hnext := hle a next furthest hp
      by_cases hshorter : next.rest.length < cursor.rest.length
      · obtain ⟨hsame, hless⟩ := ih next.rest.length (by omega) next rfl (by omega)
        simp only [dif_pos hshorter, ← hsame]
        refine ⟨trivial, ?_⟩
        rcases hmany : Parser.manyDirect p next with ⟨_ | ⟨values, last⟩, others⟩
        · intro _ _ _ hnone
          cases hnone
        · intro value end' total hsome
          cases hsome
          have := hless values last others hmany
          omega
      · simp only [dif_neg hshorter]
        refine ⟨trivial, ?_⟩
        intro _ last _ hsome
        cases hsome
        omega

theorem Agrees.many {n : Nat} {p q : Parser α} (h : Agrees n p q) :
    Agrees n (Parser.many p) (Parser.many q) := by
  have hbehind : Agrees n (do blanks; p) (do blanks; q) := (agrees_blanks n).bind fun _ => h
  refine Agrees.orElse (h.bind fun first => ?_) (agrees_pure n [])
  exact hbehind.manyDirect.bind fun others => agrees_pure n (first :: others)

end Parser

namespace Grammar

open TreeSelect.XPath.Parser

/-! ## Rules with no expressions inside -/

theorem agrees_token (n : Nat) {scan : Text → Option (Text × Text)} (hscan : Lexeme.Splits scan) :
    Agrees n (token scan) (token scan) :=
  (agrees_lexeme n hscan).rule

theorem agrees_exactly_return {α : Type} (n : Nat) (expected : Text) (value : α) :
    Agrees n (exactly expected >>= fun _ => pure value) (exactly expected >>= fun _ => pure value) :=
  (agrees_exactly n expected).bind fun _ => agrees_pure n value

theorem agrees_axisSpecifier (n : Nat) : Agrees n axisSpecifier axisSpecifier := by
  have hname : Agrees n axisName axisName := by
    refine Agrees.rule (agrees_oneOf ?_)
    intro p hp
    obtain ⟨axis, -, rfl⟩ := List.mem_map.1 hp
    exact agrees_exactly_return n axis.name axis
  refine Agrees.rule (Agrees.orElse (agrees_exactly_return n _ _).rule ?_)
  refine hname.bind fun axis => (agrees_blanks n).bind fun _ => ?_
  exact agrees_exactly_return n _ axis

theorem agrees_nodeType (n : Nat) : Agrees n nodeType nodeType := by
  refine Agrees.rule ((agrees_exactly_return n _ _).oneOf_cons ?_)
  apply (agrees_exactly_return n _ _).oneOf_cons
  exact (agrees_exactly_return n _ _).oneOf_cons (agrees_fail n)

theorem agrees_nodeTest (n : Nat) : Agrees n nodeTest nodeTest := by
  have hkind : Agrees n kindTest kindTest := by
    refine Agrees.rule ((agrees_nodeType n).bind fun test => (agrees_blanks n).bind fun _ => ?_)
    refine (agrees_exactly n _).bind fun _ => (agrees_blanks n).bind fun _ => ?_
    exact agrees_exactly_return n _ test
  have hname : Agrees n nameTest nameTest :=
    (agrees_token n Lexeme.splits_scanNameTest).bind fun name => agrees_pure n _
  exact (hkind.orElse hname).rule

theorem agrees_pathSeparator (n : Nat) : Agrees n pathSeparator pathSeparator :=
  (agrees_token n (Lexeme.splits_scanFirst _)).bind fun _ => agrees_pure n _

theorem agrees_literal (n : Nat) : Agrees n literal literal :=
  (agrees_token n Lexeme.splits_scanString).bind fun _ => agrees_pure n _

theorem agrees_number (n : Nat) : Agrees n number number :=
  (agrees_token n Lexeme.splits_scanNumber).bind fun _ => agrees_pure n _

theorem agrees_signOperator (n : Nat) (operators : List Operator) :
    Agrees n (signOperator operators) (signOperator operators) := by
  refine Agrees.rule (agrees_oneOf ?_)
  intro p hp
  obtain ⟨operator, -, rfl⟩ := List.mem_map.1 hp
  exact agrees_exactly_return n operator.token operator

theorem agrees_wordOperator (n : Nat) (operator : Operator) :
    Agrees n (wordOperator operator) (wordOperator operator) :=
  (agrees_token n (Lexeme.splits_scanWord _)).bind fun _ => agrees_pure n _

/-! ## Rules with expressions in brackets

The bracket has taken a character by the time an expression is read, so that parsers of expressions
that agree on texts shorter than `n` give rules that agree on texts shorter than `n + 1`. -/

variable {n : Nat} {p q : Parser Expr}

theorem agrees_predicate (h : Agrees n p q) : Agrees (n + 1) (predicate p) (predicate q) := by
  refine Agrees.rule (agrees_exactly_bind (by decide) fun _ => (agrees_blanks n).bind fun _ => ?_)
  refine h.bind fun condition => (agrees_blanks n).bind fun _ => ?_
  exact agrees_exactly_return n _ condition

theorem agrees_axisStep (h : Agrees n p q) : Agrees (n + 1) (axisStep p) (axisStep q) := by
  refine Agrees.rule ((agrees_axisSpecifier _).optional.bind fun axis => ?_)
  refine (agrees_blanks _).bind fun _ => (agrees_nodeTest _).bind fun test => ?_
  refine (agrees_blanks _).bind fun _ => (agrees_predicate h).many.bind fun predicates => ?_
  exact agrees_pure _ _

theorem agrees_step (h : Agrees n p q) : Agrees (n + 1) (step p) (step q) := by
  refine Agrees.rule ((agrees_exactly_return _ _ _).rule.oneOf_cons ?_)
  apply (agrees_exactly_return _ _ _).rule.oneOf_cons
  exact (agrees_axisStep h).oneOf_cons (agrees_fail _)

theorem agrees_relativePath (h : Agrees n p q) :
    Agrees (n + 1) (relativePath p) (relativePath q) := by
  refine Agrees.rule ((agrees_step h).bind fun first => (agrees_blanks _).bind fun _ => ?_)
  refine Agrees.bind (Agrees.many ?_) fun others => agrees_pure _ _
  refine (agrees_pathSeparator _).bind fun skipped => (agrees_blanks _).bind fun _ => ?_
  exact (agrees_step h).bind fun next => agrees_pure _ _

theorem agrees_locationPath (h : Agrees n p q) :
    Agrees (n + 1) (locationPath p) (locationPath q) := by
  have habsolute : Agrees (n + 1) (absolutePath p) (absolutePath q) := by
    refine Agrees.rule (Agrees.orElse ?_ ?_)
    · refine (agrees_exactly _ _).rule.bind fun _ => (agrees_blanks _).bind fun _ => ?_
      exact (agrees_relativePath h).bind fun steps => agrees_pure _ _
    · refine (agrees_exactly _ _).rule.bind fun _ => (agrees_blanks _).bind fun _ => ?_
      exact (agrees_relativePath h).optional.bind fun steps => agrees_pure _ _
  exact (habsolute.orElse ((agrees_relativePath h).bind fun steps => agrees_pure _ _)).rule

theorem agrees_arguments (h : Agrees n p q) : Agrees n (arguments p) (arguments q) := by
  refine h.bind fun first => (agrees_blanks n).bind fun _ => ?_
  refine Agrees.bind (Agrees.many ?_) fun others => agrees_pure n _
  exact (agrees_exactly n _).bind fun _ => (agrees_blanks n).bind fun _ => h

theorem agrees_functionCall (h : Agrees n p q) :
    Agrees (n + 1) (functionCall p) (functionCall q) := by
  have hkind : Agrees (n + 1) (do let _ ← nodeType; blanks; exactly "(".toList)
      (do let _ ← nodeType; blanks; exactly "(".toList) :=
    (agrees_nodeType _).bind fun _ => (agrees_blanks _).bind fun _ => agrees_exactly _ _
  refine Agrees.rule (hkind.absent.bind fun _ => (agrees_blanks _).bind fun _ => ?_)
  refine (agrees_token _ Lexeme.splits_scanName).bind fun name => (agrees_blanks _).bind fun _ => ?_
  refine agrees_exactly_bind (by decide) fun _ => (agrees_blanks n).bind fun _ => ?_
  refine (agrees_arguments h).optional.bind fun values => (agrees_blanks n).bind fun _ => ?_
  exact agrees_exactly_return n _ _

theorem agrees_primary (h : Agrees n p q) : Agrees (n + 1) (primary p) (primary q) := by
  refine Agrees.rule (Agrees.oneOf_cons ?_ ?_)
  · refine agrees_exactly_bind (by decide) fun _ => (agrees_blanks n).bind fun _ => ?_
    refine h.bind fun inner => (agrees_blanks n).bind fun _ => ?_
    exact agrees_exactly_return n _ inner
  · refine (agrees_literal _).oneOf_cons ((agrees_number _).oneOf_cons ?_)
    exact (agrees_functionCall h).oneOf_cons (agrees_fail _)

theorem agrees_pathExpr (h : Agrees n p q) : Agrees (n + 1) (pathExpr p) (pathExpr q) := by
  have hfilter : Agrees (n + 1) (filterExpr p) (filterExpr q) := by
    refine Agrees.rule ((agrees_primary h).bind fun inner => (agrees_blanks _).bind fun _ => ?_)
    exact (agrees_predicate h).many.bind fun predicates => agrees_pure _ _
  have hsteps : Agrees (n + 1) (filterPath p) (filterPath q) := by
    refine Agrees.rule (hfilter.bind fun base => (agrees_blanks _).bind fun _ => ?_)
    refine Agrees.bind (Agrees.optional ?_) fun steps => agrees_pure _ _
    refine (agrees_pathSeparator _).bind fun skipped => (agrees_blanks _).bind fun _ => ?_
    exact (agrees_relativePath h).bind fun steps => agrees_pure _ _
  exact (hsteps.orElse (agrees_locationPath h)).rule

theorem agrees_unaryExpr (h : Agrees n p q) : Agrees (n + 1) (unaryExpr p) (unaryExpr q) := by
  have hunion : Agrees (n + 1) (unionExpr p) (unionExpr q) := by
    refine Agrees.rule ((agrees_pathExpr h).bind fun first => (agrees_blanks _).bind fun _ => ?_)
    refine Agrees.bind (Agrees.many ?_) fun others => agrees_pure _ _
    exact (agrees_exactly _ _).bind fun _ => (agrees_blanks _).bind fun _ => agrees_pathExpr h
  refine Agrees.rule ((agrees_exactly _ _).rule.many.bind fun signs => ?_)
  refine (agrees_blanks _).bind fun _ => hunion.bind fun operand => ?_
  exact agrees_pure _ _

theorem agrees_chain {operator : Parser Operator} (h : Agrees n p q)
    (hoperator : Agrees n operator operator) :
    Agrees n (chain p operator) (chain q operator) := by
  refine Agrees.rule (h.bind fun first => (agrees_blanks n).bind fun _ => ?_)
  refine Agrees.bind (Agrees.many ?_) fun others => agrees_pure n _
  refine hoperator.bind fun operator => (agrees_blanks n).bind fun _ => ?_
  exact h.bind fun right => agrees_pure n _

theorem agrees_disjunction (h : Agrees n p q) :
    Agrees (n + 1) (disjunction p) (disjunction q) := by
  have hmultiplicative : Agrees (n + 1) (multiplicative p) (multiplicative q) :=
    agrees_chain (agrees_unaryExpr h)
      ((agrees_wordOperator _ .div).orElse (agrees_wordOperator _ .mod))
  have hadditive : Agrees (n + 1) (additive p) (additive q) :=
    agrees_chain hmultiplicative (agrees_signOperator _ _)
  have hrelational : Agrees (n + 1) (relational p) (relational q) :=
    agrees_chain hadditive (agrees_signOperator _ _)
  have hequality : Agrees (n + 1) (equality p) (equality q) :=
    agrees_chain hrelational (agrees_signOperator _ _)
  have hconjunction : Agrees (n + 1) (conjunction p) (conjunction q) :=
    agrees_chain hequality (agrees_wordOperator _ .and)
  exact agrees_chain hconjunction (agrees_wordOperator _ .or)

/-! ## Expressions -/

/-- From a depth on that is enough for a text, the depth does not matter. -/
theorem agrees_exprAt (n extra : Nat) : Agrees n (exprAt n) (exprAt (n + extra)) := by
  induction n with
  | zero =>
    intro cursor hlt
    exact absurd hlt (Nat.not_lt_zero _)
  | succ n ih =>
    rw [Nat.add_right_comm]
    exact (agrees_disjunction ih).rule

/-- Expressions of any depth. -/
def expr : Parser Expr := fun cursor => exprAt (cursor.rest.length + 1) cursor

theorem exprAt_eq_expr {depth : Nat} {cursor : Cursor} (h : cursor.rest.length < depth) :
    exprAt depth cursor = expr cursor := by
  obtain ⟨extra, rfl⟩ := Nat.exists_eq_add_of_le (Nat.succ_le_of_lt h)
  exact ((agrees_exprAt _ extra cursor (Nat.lt_succ_self _)).1).symm

theorem agrees_expr (n : Nat) : Agrees n (exprAt n) expr := by
  intro cursor hlt
  refine ⟨exprAt_eq_expr hlt, ?_⟩
  exact (agrees_exprAt n 0 cursor hlt).2

/-- The rule for expressions: a disjunction, with expressions in its brackets. -/
theorem expr_eq : expr = rule (disjunction expr) := by
  funext cursor
  exact ((agrees_disjunction (agrees_expr cursor.rest.length)).rule cursor
    (Nat.lt_succ_self _)).1

/-- The rule for whole texts, with expressions of any depth. -/
theorem whole_exprAt (s : Text) :
    whole (exprAt (s.length + 1)) ⟨0, s⟩ = whole expr ⟨0, s⟩ := by
  have hend : Agrees (s.length + 1) atEnd atEnd := by
    apply Agrees.rule
    intro cursor _
    refine ⟨rfl, ?_⟩
    intro value next furthest h
    have hresult : (if cursor.rest.isEmpty then some ((), cursor) else none) = some (value, next) :=
      congrArg Outcome.result h
    split at hresult
    · cases hresult
      exact Nat.le_refl _
    · cases hresult
  have hwhole : Agrees (s.length + 1) (whole (exprAt (s.length + 1))) (whole expr) := by
    refine Agrees.rule ((agrees_blanks _).bind fun _ => (agrees_expr _).bind fun result => ?_)
    refine (agrees_blanks _).bind fun _ => hend.bind fun _ => ?_
    exact agrees_pure _ result
  exact (hwhole ⟨0, s⟩ (Nat.lt_succ_self _)).1

end Grammar

/-- A text is the expression that the rule for whole texts gives, and none if it gives none. -/
theorem result_of_parse (s : Text) :
    (Grammar.whole Grammar.expr ⟨0, s⟩).result.map Prod.fst = (parse s).toOption := by
  unfold parse
  simp only [Grammar.whole_exprAt]
  cases (Grammar.whole Grammar.expr ⟨0, s⟩).result <;> rfl

/-- Where the rule for whole texts reads an expression, `parse` gives it. -/
theorem parse_eq_ok {s : Text} {result : Expr} (h : (Grammar.whole Grammar.expr).Reads s result []) :
    parse s = .ok result := by
  obtain ⟨next, furthest, hwhole⟩ := h 0
  unfold parse
  simp only [Grammar.whole_exprAt]
  rw [hwhole]

end TreeSelect.XPath
