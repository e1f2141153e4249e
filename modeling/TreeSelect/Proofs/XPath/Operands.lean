import TreeSelect.Proofs.XPath.Steps

/-!
# Written primary expressions

Digits, strings, expressions in parentheses and calls of functions are written primary expressions,
and `Written.operand` makes each of them an operand.  All but digits are closed.
-/

namespace TreeSelect.XPath

open TreeSelect.XPath.Parser TreeSelect.XPath.Grammar TreeSelect.XPath.Lexeme

variable {closed : Bool} {s t : Text} {e : Expr}

/-! ## Operands -/

/-- A primary expression with no predicates and no path behind it is an operand. -/
theorem Written.operand (h : Written (primary expr) closed [] s e) :
    Written (pathExpr expr) closed pathSigns s e := by
  have hfilter : Written (filterExpr expr) closed stepSigns s e :=
    (h.alone (List.nil_subset _)
      (fun _ hs => ((refuses_exactly_of_avoids hs (by decide)).bind _).rule)
      fun inner (predicates : List Expr) =>
        if predicates.isEmpty then inner else .filter inner predicates).rule
  constructor
  case starts => exact h.starts
  case reads =>
    intro rest hrest
    have hnone := ((refuses_pathSeparator (hrest.avoids.mono (by decide))).bind fun skipped => do
      blanks
      let steps ← relativePath expr
      return skipped ++ steps).optional
    have hbase := hfilter.reads rest (hrest.mono (by decide))
    have hpath : (filterPath expr).Reads (s ++ rest) e (skipGap rest) :=
      (hbase.bind_blanks (hnone.bind (reads_pure e _))).rule
    exact ⟨skipGap rest, .inr rfl, (hpath.orElse _).rule⟩

/-- An operand alone is an expression. -/
theorem Written.expression (h : Written (pathExpr expr) closed pathSigns s e) :
    Written expr closed disjunctionSigns s e :=
  h.union.unary.multiplicative.additive.relational.equality.conjunction.disjunction

/-! ## Literals -/

theorem refuses_literal (h : Avoids ['"', '\''] s) : literal.Refuses s := by
  have hscan : scanString s = none := by
    cases s with
    | nil => rfl
    | cons c s =>
      have hmark : ¬ (c = '"' ∨ c = '\'') := by
        simpa using h c rfl
      rw [scanString, if_neg hmark]
  exact (refuses_lexeme hscan).rule.bind _

/-- A number begins with a digit or a point. -/
theorem refuses_number {c : Char} (hdigit : c.isDigit = false) (hpoint : c ≠ '.') (s : Text) :
    number.Refuses (c :: s) := by
  have hneg : ¬ c.isDigit = true := by simp [hdigit]
  have hscan : scanNumber (c :: s) = none := by
    simp only [scanNumber, List.takeWhile_cons_of_neg hneg, List.dropWhile_cons_of_neg hneg]
    split
    case h_1 heq =>
      cases heq
      exact absurd rfl hpoint
    case h_2 => rfl
  exact (refuses_lexeme hscan).rule.bind _

/-- Digits are a number. -/
theorem written_digits {digits : Text} (hne : digits ≠ [])
    (hdigits : ∀ c ∈ digits, c.isDigit = true) :
    Written (primary expr) false [] digits (.number (Number.ofDigits digits [])) := by
  obtain ⟨c, t, rfl⟩ := List.exists_cons_of_ne_nil hne
  have hc := hdigits c List.mem_cons_self
  have hhead : c ∉ ['(', '"', '\'', '-', ' ', '\t', '\r', '\n'] := by
    intro hmem
    simp only [List.mem_cons, List.not_mem_nil, or_false] at hmem
    rcases hmem with rfl | rfl | rfl | rfl | rfl | rfl | rfl | rfl <;>
      exact absurd hc (by decide)
  constructor
  case starts =>
    refine ⟨c, t, rfl, ?_, ?_⟩
    · intro hcase
      subst hcase
      exact hhead (by decide)
    · simp only [List.mem_cons, not_or] at hhead
      simp [isGap, hhead]
  case reads =>
    intro rest hrest
    have havoids := avoids_cons hhead (t ++ rest)
    have hscan : scanNumber (c :: t ++ rest) = some (c :: t, rest) :=
      (IsDecimal.whole hne hdigits).scanNumber_append fun d hd =>
        not_number_of_not_isNameChar ((hrest.ends rfl).lexeme d hd)
    have hvalue : Expr.number ((Number.ofDecimal? (c :: t)).getD .nan) =
        .number (Number.ofDigits (c :: t) []) := by
      rw [ofDecimal?_digits hne hdigits, Option.getD_some]
    have hnumber : number.Reads (c :: t ++ rest) (.number (Number.ofDigits (c :: t) [])) rest := by
      rw [← hvalue]
      exact (reads_lexeme hscan).rule.bind (reads_pure _ rest)
    have hbracket : (exactly "(".toList).Refuses (c :: (t ++ rest)) :=
      refuses_exactly_of_avoids havoids (by decide)
    have hliteral := refuses_literal (havoids.mono (by simp))
    exact (((hbracket.bind _).oneOf_cons_reads
      (hliteral.oneOf_cons_reads (reads_oneOf_cons hnumber _))).rule).upTo

/-- A text between quote marks of a kind that it does not hold is a string. -/
theorem written_string {mark : Char} (hmark : mark = '"' ∨ mark = '\'') (hs : mark ∉ s) :
    Written (primary expr) true [] (mark :: s ++ [mark]) (.literal s) where
  starts := by
    refine ⟨mark, s ++ [mark], rfl, ?_, ?_⟩
    · rcases hmark with rfl | rfl <;> decide
    · rcases hmark with rfl | rfl <;> decide
  reads := by
    intro rest hrest
    have hscan : scanString (mark :: s ++ [mark] ++ rest) = some (mark :: s ++ [mark], rest) :=
      scanString_eq_some_iff.2 ⟨mark, s, hmark, hs, rfl, rfl⟩
    have hliteral : literal.Reads (mark :: s ++ [mark] ++ rest) (.literal s) rest := by
      have hread : literal.Reads (mark :: s ++ [mark] ++ rest)
          (.literal ((mark :: s ++ [mark]).drop 1).dropLast) rest :=
        (reads_lexeme hscan).rule.bind (reads_pure _ rest)
      rw [inside_quoted] at hread
      exact hread
    have hbracket : (exactly "(".toList).Refuses (mark :: s ++ [mark] ++ rest) := by
      have havoids : mark ∉ ['('] := by
        rcases hmark with rfl | rfl <;> decide
      exact refuses_exactly_of_avoids (avoids_cons havoids _) (by decide)
    exact (((hbracket.bind _).oneOf_cons_reads (reads_oneOf_cons hliteral _)).rule).upTo

/-! ## Brackets -/

/-- What stands behind an expression in brackets ends it. -/
theorem follows_close (rest : Text) : Follows closed disjunctionSigns (')' :: rest) := by
  refine ⟨fun _ => ends_cons (by decide) (by decide) (by decide) rest, ?_⟩
  rw [skipGap_cons_of_not_isGap (by decide)]
  exact avoids_cons (by decide) rest

/-- The closing bracket and what comes of it. -/
theorem reads_close {α : Type} (value : α) (rest : Text) :
    (do let _ ← exactly ")".toList; return value : Parser α).Reads (skipGap (')' :: rest)) value
      rest := by
  rw [skipGap_cons_of_not_isGap (by decide)]
  exact (reads_exactly ")".toList rest).bind (reads_pure value rest)

theorem reads_parentheses {inner : Parser Expr} {rest : Text} (hstarts : Starts s)
    (h : inner.ReadsUpTo (s ++ ')' :: rest) e (')' :: rest)) :
    (primary inner).Reads ('(' :: (s ++ ')' :: rest)) e rest := by
  rw [← (hstarts.append (')' :: rest)).skipGap] at h
  have hparentheses : (do
      let _ ← exactly "(".toList
      blanks
      let inner ← inner
      blanks
      let _ ← exactly ")".toList
      return inner : Parser Expr).Reads ('(' :: (s ++ ')' :: rest)) e rest :=
    (reads_exactly "(".toList _).bind
      ((reads_blanks _).bind (h.bind_blanks (reads_close e rest)))
  exact (reads_oneOf_cons hparentheses _).rule

/-- An expression in parentheses is one as a whole. -/
theorem written_parentheses (h : Written expr closed disjunctionSigns s e) :
    Written (primary expr) true [] ('(' :: s ++ [')']) e where
  starts := ⟨'(', s ++ [')'], rfl, by decide, by decide⟩
  reads := by
    intro rest _
    have hreads := reads_parentheses h.starts (h.reads _ (follows_close rest))
    have htext : '(' :: s ++ [')'] ++ rest = '(' :: (s ++ ')' :: rest) := by simp
    rw [htext]
    exact hreads.upTo

/-! ## Calls -/

/-- What goes on with arguments: the operators and the comma. -/
def argumentSigns : List Char := ',' :: disjunctionSigns

/-- Arguments with commas between them. -/
theorem written_arguments (h : Written expr false disjunctionSigns s e)
    {others : List (Text × Expr)}
    (hothers : ∀ other ∈ others, Written expr false disjunctionSigns other.1 other.2) :
    Written (arguments expr) false argumentSigns (s ++ others.flatMap (", ".toList ++ ·.1))
      (e :: others.map (·.2)) := by
  have hparts : ∀ p ∈ others.map (fun other => (", ".toList ++ other.1, other.2)),
      Continues (do let _ ← exactly ",".toList; blanks; expr) disjunctionSigns p.1 p.2 := by
    intro p hp
    obtain ⟨other, hother, rfl⟩ := List.mem_map.1 hp
    have hgap : [' '].all isGap = true := by decide
    exact (hothers other hother).continues (List.all_eq_true.1 hgap) (by decide) (by decide)
      (by decide) (by decide)
  have harguments := h.many (by decide : disjunctionSigns ⊆ argumentSigns)
    (fun _ hs => (refuses_exactly_of_avoids hs (by decide)).bind _) hparts
    fun first (others : List Expr) => first :: others
  rw [List.flatMap_map, List.map_map] at harguments
  exact harguments

/-- One argument. -/
theorem Written.argument (h : Written expr false disjunctionSigns s e) :
    Written (arguments expr) false argumentSigns s [e] :=
  h.alone (by decide) (fun _ hs => (refuses_exactly_of_avoids hs (by decide)).bind _)
    fun first (others : List Expr) => first :: others

/-- No step begins where brackets close, where a comma stands or where the text ends. -/
theorem refuses_relativePath (inner : Parser Expr)
    (h : ∀ c ∈ s.head?, c ∈ [')', ']', ',']) : (relativePath inner).Refuses s := by
  have havoids : ∀ signs : List Char, (∀ c ∈ [')', ']', ','], c ∉ signs) → Avoids signs s :=
    fun signs hsigns c hc => hsigns c (h c hc)
  have hskip : skipGap s = s := by
    cases s with
    | nil => rfl
    | cons c s =>
      have hgaps : ∀ c ∈ [')', ']', ','], isGap c = false := by decide
      exact skipGap_cons_of_not_isGap (hgaps c (h c rfl))
  have hbehind : behindName s = s := by
    have hchars : ∀ c ∈ [')', ']', ','], Lexeme.isNameChar c = false := by decide
    rw [behindName, (Text.takeWhile_of_head fun c hc => hchars c (h c hc)).2, hskip]
  have htest : nodeTest.Refuses s := by
    have hkind : kindTest.Refuses s := by
      refine (refuses_kind ?_ ?_).rule
      · rw [hbehind]
        exact havoids _ (by decide)
      · exact fun test s hs => (refuses_exactly_of_avoids hs (by decide)).bind _
    have hscan : scanNameTest s = none := by
      cases s with
      | nil => rfl
      | cons c s =>
        have hc := h c rfl
        simp only [List.mem_cons, List.not_mem_nil, or_false] at hc
        rcases hc with rfl | rfl | rfl <;> rfl
    exact (hkind.orElse ((refuses_lexeme hscan).rule.bind _)).rule
  have haxis : axisSpecifier.Refuses s := by
    apply refuses_axisSpecifier (havoids _ (by decide))
    rw [hbehind]
    exact (havoids [':'] (by decide)).not_begins (by decide)
  have hblanks := reads_blanks s
  rw [hskip] at hblanks
  have hpoint : Avoids ['.'] s := havoids _ (by decide)
  have hstep : (step inner).Refuses s := by
    refine Refuses.rule (refuses_oneOf ?_)
    intro parser hparser
    simp only [List.mem_cons, List.not_mem_nil, or_false] at hparser
    rcases hparser with rfl | rfl | rfl
    · exact ((refuses_exactly_of_avoids hpoint (by decide)).bind _).rule
    · exact ((refuses_exactly_of_avoids hpoint (by decide)).bind _).rule
    · exact (haxis.optional.bind_refuses (hblanks.bind_refuses (htest.bind _))).rule
  exact (hstep.bind _).rule

/-- No path begins with a closing bracket. -/
theorem refuses_pathExpr_close (inner : Parser Expr) (rest : Text) :
    (pathExpr inner).Refuses (')' :: rest) := by
  have hrelative : (relativePath inner).Refuses (')' :: rest) := by
    refine refuses_relativePath inner fun c hc => ?_
    cases hc
    decide
  have habsolute : (absolutePath inner).Refuses (')' :: rest) :=
    refuses_absolutePath (avoids_cons (by decide) rest)
  exact ((refuses_filterPath (.close rest)).orElse (habsolute.orElse (hrelative.bind _)).rule).rule

theorem refuses_chain {operand : Parser Expr} (h : operand.Refuses s) (operator : Parser Operator) :
    (chain operand operator).Refuses s :=
  (h.bind _).rule

/-- No expression begins with a closing bracket. -/
theorem refuses_expr_close (rest : Text) : expr.Refuses (')' :: rest) := by
  have hskip : skipGap (')' :: rest) = ')' :: rest := skipGap_cons_of_not_isGap (by decide)
  have hminus : (rule (exactly "-".toList)).Refuses (skipGap (')' :: rest)) := by
    rw [hskip]
    exact (refuses_exactly_of_avoids (avoids_cons (by decide : ')' ∉ ['-']) rest) (by decide)).rule
  have hblanks := reads_blanks (')' :: rest)
  rw [hskip] at hblanks
  have hunary (inner : Parser Expr) : (unaryExpr inner).Refuses (')' :: rest) := by
    have hunion : (unionExpr inner).Refuses (')' :: rest) :=
      ((refuses_pathExpr_close inner rest).bind _).rule
    exact ((reads_many (.stop hminus) hskip).bind_refuses
      (hblanks.bind_refuses (hunion.bind _))).rule
  have hdisjunction (inner : Parser Expr) : (disjunction inner).Refuses (')' :: rest) := by
    have hmultiplicative : (multiplicative inner).Refuses _ := refuses_chain (hunary inner) _
    have hadditive : (additive inner).Refuses _ := refuses_chain hmultiplicative _
    have hrelational : (relational inner).Refuses _ := refuses_chain hadditive _
    have hequality : (equality inner).Refuses _ := refuses_chain hrelational _
    have hconjunction : (conjunction inner).Refuses _ := refuses_chain hequality _
    exact refuses_chain hconjunction _
  rw [expr_eq]
  exact (hdisjunction expr).rule

/-- The arguments of a call: none, or some with commas between them. -/
inductive Arguments : Text → List Expr → Prop
  | none : Arguments [] []
  | some {s : Text} {values : List Expr}
      (h : Written (arguments expr) false argumentSigns s values) :
      Arguments s values

theorem Arguments.readsUpTo {values : List Expr} (h : Arguments s values) (rest : Text) :
    ∃ found, (optional (arguments expr)).ReadsUpTo (skipGap (s ++ ')' :: rest)) found
      (')' :: rest) ∧ found.getD [] = values := by
  have hskip : skipGap (')' :: rest) = ')' :: rest := skipGap_cons_of_not_isGap (by decide)
  cases h with
  | none =>
    refine ⟨Option.none, ?_, rfl⟩
    rw [List.nil_append, hskip]
    exact ((refuses_expr_close rest).bind _).optional.upTo
  | some h =>
    have hfollows : Follows false argumentSigns (')' :: rest) := by
      refine ⟨fun _ => ends_cons (by decide) (by decide) (by decide) rest, ?_⟩
      rw [hskip]
      exact avoids_cons (by decide) rest
    refine ⟨Option.some values, ?_, rfl⟩
    rw [(h.starts.append _).skipGap]
    exact (h.reads _ hfollows).optional

theorem reads_functionCall {inner : Parser Expr} {name rest : Text} {found : Option (List Expr)}
    (hname : isName name = true) (hkind : nodeType.Refuses (name ++ '(' :: (s ++ ')' :: rest)))
    (h : (optional (arguments inner)).ReadsUpTo (skipGap (s ++ ')' :: rest)) found
      (')' :: rest)) :
    (functionCall inner).Reads (name ++ '(' :: (s ++ ')' :: rest))
      (.call name (found.getD [])) rest := by
  have hhead : ∀ c ∈ ('(' :: (s ++ ')' :: rest)).head?, Lexeme.isNameChar c = false ∧ c ≠ ':' := by
    intro c hc
    cases hc
    decide
  have hstarts : Starts name := starts_of_isNameTest (by simp [isNameTest, hname])
  have hgap := reads_blanks (name ++ '(' :: (s ++ ')' :: rest))
  rw [(hstarts.append _).skipGap] at hgap
  have hscan := (reads_lexeme (scanName_append hname hhead)).rule
  have hopen := reads_exactly "(".toList (s ++ ')' :: rest)
  have hclose := reads_close (Expr.call name (found.getD [])) rest
  have hbracket : skipGap ('(' :: (s ++ ')' :: rest)) = '(' :: (s ++ ')' :: rest) :=
    skipGap_cons_of_not_isGap (by decide)
  have hbehind := reads_blanks ('(' :: (s ++ ')' :: rest))
  rw [hbracket] at hbehind
  exact ((hkind.bind _).absent.bind (hgap.bind (hscan.bind (hbehind.bind
    (hopen.bind ((reads_blanks _).bind (h.bind_blanks hclose))))))).rule

/-- A call, unless its name begins as a word for a kind of nodes does. -/
theorem written_call {name : Text} {values : List Expr} (hname : isName name = true)
    (hkind : ∀ kind ∈ kindWords, ¬ kind.1 <+: name ∧ ¬ name <+: kind.1)
    (h : Arguments s values) :
    Written (primary expr) true [] (name ++ '(' :: (s ++ [')'])) (.call name values) where
  starts := (starts_of_isNameTest (by simp [isNameTest, hname])).append _
  reads := by
    intro rest _
    obtain ⟨found, hfound, hvalues⟩ := h.readsUpTo rest
    have hnode : nodeType.Refuses (name ++ '(' :: (s ++ ')' :: rest)) := by
      rcases nodeType_refuses_or_reads (name ++ '(' :: (s ++ ')' :: rest)) with
        hrefuses | ⟨kind, hmem, after, hs, -⟩
      · exact hrefuses
      · rcases List.prefix_or_prefix_of_prefix ⟨after, hs.symm⟩ (List.prefix_append name _) with
          hprefix | hprefix
        · exact absurd hprefix (hkind kind hmem).1
        · exact absurd hprefix (hkind kind hmem).2
    have hcall := reads_functionCall hname hnode hfound
    rw [hvalues] at hcall
    obtain ⟨c, t, rfl, hc⟩ := exists_isNameStart hname
    have hhead : c ∉ ['(', '"', '\''] := by
      intro hmem
      simp only [List.mem_cons, List.not_mem_nil, or_false] at hmem
      rcases hmem with rfl | rfl | rfl <;> exact absurd hc (by decide)
    have havoids := avoids_cons hhead (t ++ '(' :: (s ++ ')' :: rest))
    have hbracket : (exactly "(".toList).Refuses (c :: (t ++ '(' :: (s ++ ')' :: rest))) :=
      refuses_exactly_of_avoids havoids (by decide)
    have hpoint : c ≠ '.' := by
      intro hcase
      subst hcase
      exact absurd hc (by decide)
    have hnumber := refuses_number (not_isDigit_of_isNameStart hc) hpoint
      (t ++ '(' :: (s ++ ')' :: rest))
    have htext : c :: t ++ '(' :: (s ++ [')']) ++ rest = c :: (t ++ '(' :: (s ++ ')' :: rest)) := by
      simp
    rw [htext]
    exact ((hbracket.bind _).oneOf_cons_reads
      ((refuses_literal (havoids.mono (by simp))).oneOf_cons_reads
        (hnumber.oneOf_cons_reads (reads_oneOf_cons hcall _)))).rule.upTo

end TreeSelect.XPath
