import TreeSelect.Proofs.XPath.NamedSteps
import TreeSelect.Proofs.XPath.Spelling

/-!
# What the rules of the grammar take

The tokens of names, numbers, strings, steps and calls are taken by their rules.  What may stand
behind an expression depends on its level: the signs that close brackets, the comma, and the signs of
all looser levels, but none with which the rule of the level itself could go on (`signsBehind`).
-/

namespace TreeSelect.XPath

open TreeSelect.XPath.Parser TreeSelect.XPath.Grammar TreeSelect.XPath.Lexeme

/-! ## Levels and signs -/

/-- The operators between operands of the next level. -/
def operatorsAt : Nat → List Operator
  | 1 => [.or]
  | 2 => [.and]
  | 3 => [.ne, .eq]
  | 4 => [.le, .ge, .lt, .gt]
  | 5 => [.add, .sub]
  | 6 => [.div, .mod]
  | _ => []

/-- The signs with which a rule goes on behind its first part. -/
def signsAt : Nat → List Text
  | 8 => [['|']]
  | 9 => [['/']]
  | 10 => [['[']]
  | level => (operatorsAt level).map Operator.token

/-- The signs that may stand behind an expression of a level. -/
def signsBehind : Nat → List Text
  | 0 => [[')'], [']'], [',']]
  | level + 1 => signsBehind level ++ signsAt level

theorem signsBehind_subset {level other : Nat} (h : level ≤ other) :
    signsBehind level ⊆ signsBehind other := by
  induction h with
  | refl => exact List.Subset.refl _
  | step _ ih => exact List.Subset.trans ih (List.subset_append_left _ _)

/-- Whether the tokens may stand behind an expression of a level. -/
def Behind (level : Nat) : List Token → Prop := Followed (signsBehind level)

theorem Behind.mono {level other : Nat} (h : level ≤ other) {tokens : List Token}
    (hbehind : Behind level tokens) : Behind other tokens :=
  Followed.mono hbehind (signsBehind_subset h)

/-! ## Names and gaps -/

/-- A gap goes on with no name. -/
theorem ends_name_of_isGap {rest : Text} (h : ∀ c ∈ rest.head?, isGap c = true) :
    ∀ c ∈ rest.head?, Lexeme.isNameChar c = false ∧ c ≠ ':' := by
  have hgaps : ∀ c ∈ [' ', '\t', '\r', '\n'], Lexeme.isNameChar c = false ∧ c ≠ ':' := by decide
  exact fun c hc => hgaps c (isGap_iff.1 (h c hc))

/-- No character of a name is a gap or a bracket. -/
theorem not_gap_of_isName {name : Text} (h : isName name = true) :
    ∀ c ∈ name, isGap c = false ∧ c ≠ '(' := by
  intro c hc
  have hbad : ∀ c ∈ [' ', '\t', '\r', '\n', '('], ¬ (Lexeme.isNameChar c = true ∨ c = ':') := by
    decide
  have hgood := chars_of_isName h c hc
  constructor
  · exact Bool.eq_false_iff.2 fun hgap =>
      hbad c (List.mem_append_left ['('] (isGap_iff.1 hgap)) hgood
  · rintro rfl
    exact hbad '(' (by decide) hgood

/-- A name begins with none of the signs that could stand where it stands. -/
theorem avoids_of_isName {name : Text} (h : isName name = true) :
    Avoids ['(', '"', '\'', '-', '/', '.', '@'] name := by
  obtain ⟨c, rest, rfl, hc⟩ := exists_isNameStart h
  refine avoids_cons ?_ rest
  intro hmem
  simp only [List.mem_cons, List.not_mem_nil, or_false] at hmem
  rcases hmem with rfl | rfl | rfl | rfl | rfl | rfl | rfl <;> exact absurd hc (by decide)

/-! ## Numbers, strings and calls -/

theorem takes_number (value : Number) :
    Takes number [.number value] (.number value) Anyhow := by
  have hgaps : ∀ c ∈ [' ', '\t', '\r', '\n'], c.isDigit = false ∧ c ≠ '.' := by decide
  refine takes_token (fun digits => Expr.number ((Number.ofDecimal? digits).getD .nan))
    fun s rest hs hrest => ⟨?_, by rw [hs.2]⟩
  exact (of_scanNumber hs.1).1.scanNumber_append fun c hc => hgaps c (isGap_iff.1 (hrest c hc))

theorem takes_literal (value : Text) : Takes literal [.literal value] (.literal value) Anyhow := by
  refine takes_token (fun quoted => Expr.literal (quoted.drop 1).dropLast) fun s rest hs _ => ?_
  obtain ⟨mark, hmark, hvalue, rfl⟩ := hs
  exact ⟨scanString_eq_some_iff.2 ⟨mark, value, hmark, hvalue, rfl, rfl⟩,
    congrArg Expr.literal (inside_quoted mark value)⟩

theorem takes_name {name : Text} (h : isName name = true) :
    Takes (Grammar.token scanName) [.fixed name] name Anyhow :=
  (takes_fixed fun _ hrest => scanName_append h (ends_name_of_isGap hrest)).rule

/-- A name that is no word for a kind of nodes is not taken for one. -/
theorem balks_kind {name : Text} (h : isName name = true)
    (hkind : ∀ kind ∈ kindWords, name ≠ kind.1) :
    Balks (do let _ ← nodeType; blanks; exactly "(".toList : Parser Text) [.fixed name] := by
  intro more s hs hgap
  obtain ⟨spelled, rest, rfl, hspells, hhead, -⟩ := hs.first hgap
  rw [hspells.1]
  rcases nodeType_refuses_or_reads (name ++ rest) with hrefuses | ⟨kind, hmem, after, hsplit, hreads⟩
  · exact hrefuses.bind _
  · have hgaps : ∀ kind ∈ kindWords, kind.1.all (fun c => !isGap c) = true := by decide
    have hprefix : kind.1 <+: name := by
      refine prefix_of_head (fun c hc => ?_) hhead ⟨after, hsplit.symm⟩
      simpa using List.all_eq_true.1 (hgaps kind hmem) c hc
    obtain ⟨more, hname⟩ := hprefix
    rw [← hname, List.append_assoc, List.append_cancel_left_eq] at hsplit
    have hmore : more ≠ [] := by
      rintro rfl
      exact hkind kind hmem (by rw [← hname, List.append_nil])
    obtain ⟨c, t, rfl⟩ := List.exists_cons_of_ne_nil hmore
    obtain ⟨hgap, hbracket⟩ := not_gap_of_isName h c (by rw [← hname]; simp)
    rw [← hsplit] at hreads
    refine hreads.bind_refuses ((reads_blanks _).bind_refuses ?_)
    rw [List.cons_append, skipGap_cons_of_not_isGap hgap]
    have havoids : c ∉ ['('] := fun hmem => hbracket (List.mem_singleton.1 hmem)
    exact refuses_exactly_of_avoids (avoids_cons havoids _) (by decide)

/-! ## Steps -/

/-- Where the name of an axis and two colons are spelled, the colons stand behind the name. -/
theorem colons_of_spelled {axis : Axis} {more : List Token} {s : Text}
    (hs : Spelled (.fixed axis.name :: .fixed "::".toList :: more) s) (hgap : skipGap s = s) :
    ∃ after rest, s = axis.name ++ after ∧ skipGap after = "::".toList ++ rest ∧
      Spelled more rest ∧ rest.length < s.length := by
  obtain ⟨name, after, rfl, ⟨rfl, -⟩, -, hafter, hlt⟩ := hs.first hgap
  obtain ⟨colons, rest, hcolons, ⟨rfl, -⟩, -, hrest, hshorter⟩ :=
    hafter.skipGap.first (skipGap_skipGap after)
  have hskip := length_skipGap_le after
  exact ⟨after, rest, rfl, hcolons, hrest, by omega⟩

theorem takes_axisSpecifier (axis : Axis) :
    Takes axisSpecifier [.fixed axis.name, .fixed "::".toList] axis Anyhow := by
  intro more s _ hs hgap
  obtain ⟨after, rest, rfl, hafter, hrest⟩ := colons_of_spelled hs hgap
  exact ⟨rest, reads_axisSpecifier hafter axis, hrest⟩

theorem takes_nodeType {kind : Text × NodeTest} (hkind : kind ∈ kindWords) :
    Takes nodeType [.fixed kind.1] kind.2 Anyhow :=
  (takes_choice kindWords (by decide) (by decide) hkind).rule

/-- What may stand behind the name of a step makes neither a call nor an axis of it. -/
theorem Behind.ends {tokens : List Token} {rest : Text} (h : Behind 11 tokens)
    (hrest : Spelled tokens rest) (hhead : ∀ c ∈ rest.head?, isGap c = true) : Ends rest where
  lexeme := fun c hc => (ends_name_of_isGap hhead c hc).1
  name := Followed.avoids h hrest.skipGap (skipGap_skipGap rest) (by decide)

theorem takes_nodeTest {test : NodeTest} (h : test.IsWritten) :
    Takes nodeTest test.tokens test (Behind 11) := by
  have hkind : ∀ kind ∈ kindWords,
      Takes nodeTest [.fixed kind.1, .fixed ['('], .fixed [')']] kind.2 (Behind 11) := by
    intro kind hkind
    have hclose := (takes_exactly [')']).bind_pure fun _ => kind.2
    have hbrackets : Takes (do let _ ← exactly ['(']; blanks; let _ ← exactly [')']; return kind.2)
        [.fixed ['('], .fixed [')']] kind.2 Anyhow :=
      (takes_exactly ['(']).bind_blanks hclose fun _ _ => trivial
    have hkindTest : Takes kindTest [.fixed kind.1, .fixed ['('], .fixed [')']] kind.2 Anyhow := by
      refine Takes.rule ?_
      exact (takes_nodeType hkind).bind_blanks hbrackets fun _ _ => trivial
    exact (hkindTest.orElse _).rule.anyhow
  have hname : ∀ name, isNameTest name = true →
      Takes nodeTest [.fixed name] (.ofName name) (Behind 11) := by
    intro name hname more s hmore hs hgap
    obtain ⟨spelled, rest, rfl, ⟨rfl, -⟩, hhead, hrest⟩ := hs.first hgap
    exact ⟨rest, reads_nodeTest hname (hmore.ends hrest.1 hhead), hrest⟩
  cases test with
  | any => exact hname ['*'] (by decide)
  | name expected =>
    have hexpected : isName expected = true := h
    have htest := hname expected (by simp [isNameTest, hexpected])
    rw [NodeTest.ofName_of_isName hexpected] at htest
    exact htest
  | node => exact hkind ("node".toList, .node) (by decide)
  | text => exact hkind ("text".toList, .text) (by decide)
  | comment => exact hkind ("comment".toList, .comment) (by decide)

/-- An expression between two signs, of which the second one ends it. -/
theorem takes_between {ts : List Token} {e : Expr} (h : Takes expr ts e (Behind 0)) (opening : Text)
    {closing : Text} (hclosing : closing ∈ signsBehind 0) :
    Takes (do
        let _ ← exactly opening
        blanks
        let e ← expr
        blanks
        let _ ← exactly closing
        return e)
      (.fixed opening :: ts ++ [.fixed closing]) e Anyhow := by
  have hclose := (takes_exactly closing).bind_pure fun _ => e
  have hinside : Takes (do let e ← expr; blanks; let _ ← exactly closing; return e)
      (ts ++ [.fixed closing]) e Anyhow :=
    h.bind_blanks hclose fun _ _ => followed_cons hclosing _
  exact (takes_exactly opening).bind_blanks hinside fun _ _ => trivial

/-- An expression in square brackets is a further part of what stands before it. -/
theorem isPart_predicate {ts : List Token} {e : Expr} (h : Takes expr ts e (Behind 0)) :
    IsPart (predicate expr) (signsBehind 11) (.fixed ['['] :: ts ++ [.fixed [']']]) e where
  takes := (takes_between h ['['] (by decide)).rule.anyhow
  begins := ⟨['['], by decide, _, rfl⟩

theorem refuses_predicate {more : List Token} {s : Text} (h : Behind 10 more) (hs : Spelled more s)
    (hgap : skipGap s = s) : (predicate expr).Refuses s := by
  have havoids : Avoids ['['] s := Followed.avoids h hs hgap (by decide)
  exact ((refuses_exactly_of_avoids havoids (by decide)).bind _).rule

/-- An axis, a node test and predicates are a step. -/
theorem takes_step (axis : Axis) {test : NodeTest} (htest : test.IsWritten)
    {parts : List (List Token × Expr)}
    (hparts : ∀ p ∈ parts, IsPart (predicate expr) (signsBehind 11) p.1 p.2) :
    Takes (step expr)
      ([.fixed axis.name, .fixed "::".toList] ++ (test.tokens ++ parts.flatMap (·.1)))
      (.mk axis test (parts.map (·.2))) (Behind 10) := by
  have htests := (takes_nodeTest htest).many (fun test predicates => Step.mk axis test predicates)
    hparts (fun _ hmore => Behind.mono (by decide) hmore) fun _ _ => refuses_predicate
  have haxis : Takes (axisStep expr)
      ([.fixed axis.name, .fixed "::".toList] ++ (test.tokens ++ parts.flatMap (·.1)))
      (.mk axis test (parts.map (·.2))) (Behind 10) := by
    refine Takes.rule ?_
    exact (takes_axisSpecifier axis).optional.bind_blanks htests fun _ _ => trivial
  have hpoint : (Token.fixed axis.name).Avoids ['.'] :=
    avoids_fixed ((avoids_of_isName (isName_axisName axis)).mono (by decide))
  have hbalks {expected : Text} (hexpected : ¬ Avoids ['.'] expected) :
      Balks (exactly expected)
        ([.fixed axis.name, .fixed "::".toList] ++ (test.tokens ++ parts.flatMap (·.1))) :=
    (balks_exactly hpoint hexpected).append _
  exact (((hbalks (by decide)).bind _).rule.orElse_takes
    (((hbalks (by decide)).bind _).rule.orElse_takes (haxis.orElse _))).rule

/-! ## Paths -/

theorem takes_pathSeparator : Takes pathSeparator [.fixed ['/']] [] Anyhow := by
  intro more s _ hs hgap
  obtain ⟨spelled, rest, rfl, ⟨rfl, -⟩, hhead, hrest⟩ := hs.first hgap
  have hslash : Avoids ['/'] rest := by
    intro c hc hmem
    rw [List.mem_singleton.1 hmem] at hc
    exact absurd (hhead '/' hc) (by decide)
  exact ⟨rest, Separator.children.reads hslash, hrest⟩

theorem refuses_separator {more : List Token} {s : Text} (h : Behind 9 more) (hs : Spelled more s)
    (hgap : skipGap s = s) : pathSeparator.Refuses s :=
  refuses_pathSeparator (Followed.avoids h hs hgap (by decide))

/-- Steps with slashes between them are a relative path. -/
theorem takes_relativePath {ts : List Token} {first : Step}
    (hfirst : Takes (step expr) ts first (Behind 10)) {others : List (List Token × Step)}
    (hothers : ∀ other ∈ others, Takes (step expr) other.1 other.2 (Behind 10)) :
    Takes (relativePath expr) (ts ++ others.flatMap fun other => .fixed ['/'] :: other.1)
      (first :: others.map (·.2)) (Behind 9) := by
  have hparts : ∀ p ∈ others.map fun other => (.fixed ['/'] :: other.1, [other.2]),
      IsPart (do
        let skipped ← pathSeparator
        blanks
        let next ← step expr
        return skipped ++ [next]) (signsBehind 10) p.1 p.2 := by
    intro p hp
    obtain ⟨other, hother, rfl⟩ := List.mem_map.1 hp
    refine ⟨?_, ['/'], by decide, other.1, rfl⟩
    exact takes_pathSeparator.bind_blanks ((hothers other hother).bind_pure fun next => [] ++ [next])
      fun _ _ => trivial
  have hsteps := hfirst.many (fun first (others : List (List Step)) => first :: others.flatten)
    hparts (fun _ hmore => Behind.mono (by decide) hmore)
    fun _ _ hmore hs hgap => (refuses_separator hmore hs hgap).bind _
  have hvalues : ((others.map fun other => (Token.fixed ['/'] :: other.1, [other.2])).map
      (·.2)).flatten = others.map (·.2) := by
    rw [List.map_map, ← List.flatMap_def]
    exact List.map_eq_flatMap.symm
  rw [hvalues, List.flatMap_map] at hsteps
  exact hsteps.rule

theorem balks_number {name : Text} (h : isName name = true) : Balks number [.fixed name] := by
  intro more s hs hgap
  obtain ⟨spelled, rest, rfl, hspells, -⟩ := hs.first hgap
  obtain ⟨c, t, hstarts, hc⟩ := exists_isNameStart h
  rw [hspells.1, hstarts]
  refine refuses_number (not_isDigit_of_isNameStart hc) ?_ (t ++ rest)
  rintro rfl
  exact absurd hc (by decide)

/-- The name of an axis is taken for no primary expression. -/
theorem balks_filterPath_axis (axis : Axis) :
    Balks (filterPath expr) [.fixed axis.name, .fixed "::".toList] := by
  intro more s hs hgap
  obtain ⟨after, rest, rfl, hafter, -⟩ := colons_of_spelled hs hgap
  exact refuses_filterPath_axis hafter axis

/-- A relative path, whose first step is that of an axis, starts at the context node. -/
theorem takes_contextPath {axis : Axis} {ts : List Token} {steps : List Step}
    (h : Takes (relativePath expr) (.fixed axis.name :: .fixed "::".toList :: ts) steps
      (Behind 9)) :
    Takes (pathExpr expr) (.fixed axis.name :: .fixed "::".toList :: ts) (.path .context steps)
      (Behind 9) := by
  have hroot : Balks (absolutePath expr) (.fixed axis.name :: .fixed "::".toList :: ts) := by
    have havoids := avoids_of_isName (isName_axisName axis)
    refine (balks_of_avoids (avoids_fixed havoids) fun _ hs => ?_).append (.fixed "::".toList :: ts)
    exact refuses_absolutePath (hs.mono (by decide))
  have hlocation := (hroot.orElse_takes (h.bind_pure fun steps => Expr.path .context steps)).rule
  exact (((balks_filterPath_axis axis).append ts).orElse_takes hlocation).rule

/-- A slash is taken for no primary expression. -/
theorem balks_filterPath_slash : Balks (filterPath expr) [.fixed ['/']] := by
  intro more s hs hgap
  obtain ⟨spelled, rest, rfl, ⟨rfl, -⟩, -⟩ := hs.first hgap
  exact refuses_filterPath (.slash rest)

/-- A slash before a gap is not one of two. -/
theorem balks_slashes : Balks (exactly "//".toList) [.fixed ['/']] :=
  balks_exactly_of_not_prefix (by decide) (by decide)

/-- A relative path behind a slash starts at the root. -/
theorem takes_rootPath {ts : List Token} {steps : List Step}
    (h : Takes (relativePath expr) ts steps (Behind 9)) :
    Takes (pathExpr expr) (.fixed ['/'] :: ts) (.path .root steps) (Behind 9) := by
  have hsteps := h.optional.bind_pure fun steps => Expr.path .root (steps.getD [])
  have habsolute : Takes (absolutePath expr) (.fixed ['/'] :: ts) (.path .root steps)
      (Behind 9) := by
    refine (((balks_slashes.rule.bind _).append ts).orElse_takes ?_).rule
    exact (takes_exactly ['/']).rule.bind_blanks hsteps fun _ _ => trivial
  exact ((balks_filterPath_slash.append ts).orElse_takes (habsolute.orElse _).rule).rule

/-- The root alone, where brackets close or the text ends. -/
theorem takes_root : Takes (pathExpr expr) [.fixed ['/']] (.path .root []) (Behind 0) := by
  have hstop : ∀ more s, Behind 0 more → Spelled more s → skipGap s = s →
      (relativePath expr).Refuses s := by
    intro more s hmore hs hgap
    refine refuses_relativePath expr fun c hc => ?_
    cases more with
    | nil =>
      rw [hs.eq_nil hgap] at hc
      cases hc
    | cons token more =>
      obtain ⟨sign, hsign, rfl⟩ := hmore token rfl
      obtain ⟨spelled, rest, rfl, hspells, -⟩ := hs.first hgap
      have hsigns : ∀ sign ∈ signsBehind 0, ∀ rest : Text, ∀ c ∈ (sign ++ rest).head?,
          c ∈ [')', ']', ','] := by
        intro sign hsign rest
        simp only [signsBehind, List.mem_cons, List.not_mem_nil, or_false] at hsign
        rcases hsign with rfl | rfl | rfl <;> simp
      rw [hspells.1] at hc
      exact hsigns sign hsign rest c hc
  have habsolute : Takes (absolutePath expr) [.fixed ['/']] (.path .root []) (Behind 0) :=
    ((balks_slashes.rule.bind _).orElse_takes
      ((takes_exactly ['/']).rule.anyhow.bind_none
        (fun _ steps => Expr.path .root (steps.getD [])) hstop)).rule
  exact (balks_filterPath_slash.orElse_takes (habsolute.orElse _).rule).rule

/-- What an expression and the steps behind it, if there are any, are read as. -/
def pathFrom (base : Expr) : Option (List Step) → Expr
  | none => base
  | some steps => .path (.expr base) steps

/-- A filter alone is a path. -/
theorem takes_filterPath_alone {ts : List Token} {base : Expr} {follow : List Token → Prop}
    (h : Takes (filterExpr expr) ts base follow) (hfollow : ∀ more, follow more → Behind 9 more) :
    Takes (pathExpr expr) ts base follow := by
  have hstop : ∀ more s, follow more → Spelled more s → skipGap s = s → (do
      let skipped ← pathSeparator
      blanks
      let steps ← relativePath expr
      return skipped ++ steps : Parser (List Step)).Refuses s :=
    fun more s hmore hs hgap => (refuses_separator (hfollow more hmore) hs hgap).bind _
  refine (Takes.orElse (Takes.rule ?_) _).rule
  exact h.bind_none pathFrom hstop

/-- A filter and a relative path behind a slash. -/
theorem takes_filterPath {ts us : List Token} {base : Expr} {steps : List Step}
    (hbase : Takes (filterExpr expr) ts base (Behind 10))
    (h : Takes (relativePath expr) us steps (Behind 9)) :
    Takes (pathExpr expr) (ts ++ .fixed ['/'] :: us) (.path (.expr base) steps) (Behind 9) := by
  have hsteps : Takes (do
      let skipped ← pathSeparator
      blanks
      let steps ← relativePath expr
      return skipped ++ steps) (.fixed ['/'] :: us) steps (Behind 9) :=
    takes_pathSeparator.bind_blanks (h.bind_pure fun steps => [] ++ steps) fun _ _ => trivial
  have hpath : Takes (filterPath expr) (ts ++ .fixed ['/'] :: us) (.path (.expr base) steps)
      (Behind 9) := by
    refine Takes.rule ?_
    exact hbase.bind_blanks (hsteps.optional.bind_pure (pathFrom base)) fun _ _ =>
      followed_cons (by decide) _
  exact (hpath.orElse _).rule

/-! ## Primary expressions -/

theorem takes_parentheses {ts : List Token} {e : Expr} (h : Takes expr ts e (Behind 0)) :
    Takes (primary expr) (.fixed ['('] :: ts ++ [.fixed [')']]) e Anyhow :=
  ((takes_between h ['('] (by decide)).orElse _).rule

theorem takes_primary_number (value : Number) :
    Takes (primary expr) [.number value] (.number value) Anyhow := by
  have hsigns : ∀ c ∈ ['(', '"', '\''], c.isDigit = false ∧ c ≠ '.' := by decide
  have havoids := avoids_number hsigns value
  have hliteral : Balks literal [.number value] :=
    balks_of_avoids havoids fun _ hs => refuses_literal (hs.mono (by decide))
  exact (((balks_exactly havoids (by decide)).bind _).orElse_takes
    (hliteral.orElse_takes ((takes_number value).orElse _))).rule

theorem takes_primary_literal (value : Text) :
    Takes (primary expr) [.literal value] (.literal value) Anyhow := by
  have havoids : (Token.literal value).Avoids ['('] := avoids_literal (by decide) value
  exact (((balks_exactly havoids (by decide)).bind _).orElse_takes
    ((takes_literal value).orElse _)).rule

/-- The closing bracket of a call with what stands before it: nothing, or arguments with commas
between them. -/
theorem takes_arguments (function : Text) {values : List (List Token × Expr)}
    (h : ∀ value ∈ values, Takes expr value.1 value.2 (Behind 0)) :
    Takes (do
        let values ← optional (arguments expr)
        blanks
        let _ ← exactly ")".toList
        return Expr.call function (values.getD []))
      ((values.flatMap fun value => .fixed [','] :: value.1).tail ++ [.fixed [')']])
      (.call function (values.map (·.2))) Anyhow := by
  have hclose (found : Option (List Expr)) :=
    (takes_exactly [')']).bind_pure fun _ => Expr.call function (found.getD [])
  cases values with
  | nil =>
    have hnone : Balks (arguments expr) [.fixed [')']] := by
      intro more s hs hgap
      obtain ⟨spelled, rest, rfl, ⟨rfl, -⟩, -⟩ := hs.first hgap
      exact (refuses_expr_close rest).bind _
    exact hnone.none_bind (hclose none)
  | cons first others =>
    have hstop : ∀ more s, Followed [[')']] more → Spelled more s → skipGap s = s →
        (exactly ",".toList).Refuses s := by
      intro more s hmore hs hgap
      have havoids : Avoids [','] s := hmore.avoids hs hgap (by decide)
      exact refuses_exactly_of_avoids havoids (by decide)
    have harguments : Takes (arguments expr) _ _ (Followed [[')']]) :=
      Takes.separated (fun first others => first :: others) (by decide) h
        (fun _ hmore => hmore.mono (by decide)) hstop
    exact harguments.optional.bind_blanks (hclose _) fun _ _ => followed_cons (by decide) _

/-- A name that is no word for a kind of nodes, and arguments in parentheses. -/
theorem takes_call {function : Text} (hname : isName function = true)
    (hkind : ∀ kind ∈ kindWords, function ≠ kind.1) {values : List (List Token × Expr)}
    (h : ∀ value ∈ values, Takes expr value.1 value.2 (Behind 0)) :
    Takes (primary expr)
      (.fixed function :: .fixed ['('] ::
        (values.flatMap fun value => .fixed [','] :: value.1).tail ++ [.fixed [')']])
      (.call function (values.map (·.2))) Anyhow := by
  have havoids : (Token.fixed function).Avoids _ := avoids_fixed (avoids_of_isName hname)
  have harguments : Takes (do
      let _ ← exactly "(".toList
      blanks
      let values ← optional (arguments expr)
      blanks
      let _ ← exactly ")".toList
      return Expr.call function (values.getD []))
      ([.fixed ['(']] ++ ((values.flatMap fun value => .fixed [','] :: value.1).tail ++
        [.fixed [')']])) (.call function (values.map (·.2))) Anyhow :=
    (takes_exactly ['(']).bind_blanks (takes_arguments function h) fun _ _ => trivial
  have hcall : Takes (functionCall expr) ([.fixed function] ++ ([.fixed ['(']] ++
      ((values.flatMap fun value => .fixed [','] :: value.1).tail ++ [.fixed [')']])))
      (.call function (values.map (·.2))) Anyhow := by
    refine (Balks.absent_bind ((balks_kind hname hkind).append _) ?_).rule
    exact (takes_name hname).bind_blanks harguments fun _ _ => trivial
  have hliteral : Balks literal [.fixed function] :=
    balks_of_avoids havoids fun _ hs => refuses_literal (hs.mono (by decide))
  exact ((((balks_exactly havoids (by decide)).append _).bind _).orElse_takes
    ((hliteral.append _).orElse_takes
      (((balks_number hname).append _).orElse_takes (hcall.orElse _)))).rule

/-- A primary expression and predicates behind it. -/
theorem takes_filterExpr {ts : List Token} {primary : Expr}
    (h : Takes (Grammar.primary expr) ts primary (Behind 11)) {parts : List (List Token × Expr)}
    (hne : parts ≠ [])
    (hparts : ∀ p ∈ parts, IsPart (predicate expr) (signsBehind 11) p.1 p.2) :
    Takes (filterExpr expr) (ts ++ parts.flatMap (·.1)) (.filter primary (parts.map (·.2)))
      (Behind 10) := by
  have hfilter := (h.many (fun inner (predicates : List Expr) =>
    if predicates.isEmpty then inner else .filter inner predicates) hparts
    (fun _ hmore => Behind.mono (by decide) hmore) fun _ _ => refuses_predicate).rule
  have hsome : ¬ (parts.map (·.2)).isEmpty = true := by simpa using hne
  rw [if_neg hsome] at hfilter
  exact hfilter

/-- A primary expression alone. -/
theorem takes_filterExpr_alone {ts : List Token} {e : Expr} {follow : List Token → Prop}
    (h : Takes (primary expr) ts e follow) (hfollow : ∀ more, follow more → Behind 10 more) :
    Takes (filterExpr expr) ts e follow := by
  have hstop : ∀ more s, follow more → Spelled more s → skipGap s = s →
      (predicate expr).Refuses s :=
    fun more s hmore hs hgap => refuses_predicate (hfollow more hmore) hs hgap
  exact (h.alone (fun inner (predicates : List Expr) =>
    if predicates.isEmpty then inner else Expr.filter inner predicates) hstop).rule

/-! ## Unions -/

theorem refuses_bar {more : List Token} {s : Text} (h : Behind 8 more) (hs : Spelled more s)
    (hgap : skipGap s = s) : (exactly "|".toList).Refuses s := by
  have havoids : Avoids ['|'] s := Followed.avoids h hs hgap (by decide)
  exact refuses_exactly_of_avoids havoids (by decide)

/-- Two paths or more with bars between them. -/
theorem takes_unionExpr {values : List (List Token × Expr)} (hlength : 2 ≤ values.length)
    (h : ∀ value ∈ values, Takes (pathExpr expr) value.1 value.2 (Behind 9)) :
    Takes (unionExpr expr) (values.flatMap fun value => .fixed ['|'] :: value.1).tail
      (.union (values.map (·.2))) (Behind 8) := by
  obtain ⟨first, others, rfl⟩ := List.exists_cons_of_length_pos (Nat.zero_lt_of_lt hlength)
  have hbar : ['|'] ∈ signsBehind 9 := by decide
  have hunion := (Takes.separated (fun first (others : List Expr) =>
    if others.isEmpty then first else Expr.union (first :: others)) hbar h
    (fun _ hmore => Behind.mono (by decide) hmore) fun _ _ => refuses_bar).rule
  have hsome : ¬ (others.map (·.2)).isEmpty = true := by
    cases others with
    | nil => exact absurd hlength (by simp)
    | cons second others => simp
  rw [if_neg hsome] at hunion
  exact hunion

/-- A path alone. -/
theorem takes_unionExpr_alone {ts : List Token} {e : Expr} {follow : List Token → Prop}
    (h : Takes (pathExpr expr) ts e follow) (hfollow : ∀ more, follow more → Behind 8 more) :
    Takes (unionExpr expr) ts e follow := by
  have hstop : ∀ more s, follow more → Spelled more s → skipGap s = s →
      (do let _ ← exactly "|".toList; blanks; pathExpr expr : Parser Expr).Refuses s :=
    fun more s hmore hs hgap => (refuses_bar (hfollow more hmore) hs hgap).bind _
  exact (h.alone (fun first (others : List Expr) =>
    if others.isEmpty then first else Expr.union (first :: others)) hstop).rule

end TreeSelect.XPath
