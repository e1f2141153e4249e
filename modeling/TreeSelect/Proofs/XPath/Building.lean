import TreeSelect.Proofs.XPath.LexemeRules
import TreeSelect.XPath.Builder

/-!
# What the builder makes of a match

Each parser of the grammar realizes its rule, and the builder makes the value of the parser of the
pairs of the rule.  So the builder meets none of its errors on the pairs of a match.

There is one lemma for each rule.  Those for rules with expressions in brackets take what is known
about expressions on shorter texts.
-/

namespace TreeSelect.XPath

open TreeSelect.Peg (Mode Pair Pattern)
open TreeSelect.XPath.Parser TreeSelect.XPath.Builder

variable {α : Type} {input : Text} {n : Nat}

/-- The pairs are one pair of a rule, from whose inner pairs the value is built. -/
def Builds (name : Rule) (build : List (Pair Rule) → Except BuildError α) (value : α) (text : Text)
    (pairs : List (Pair Rule)) : Prop :=
  ∃ inner, pairs = [.node name text inner] ∧ build inner = .ok value

/-- The pairs are one pair, which is no minus sign, and the value is its expression. -/
def IsExpr (value : Expr) (_text : Text) (pairs : List (Pair Rule)) : Prop :=
  ∃ pair, pairs = [pair] ∧ pair.rule ≠ .neg ∧ buildExpr pair = .ok value

/-- The pairs are one pair, whose text stands for the operator. -/
def IsOperator (value : Operator) (text : Text) (pairs : List (Pair Rule)) : Prop :=
  text ≠ [] ∧ ∃ pair, pairs = [pair] ∧ Operator.ofToken? pair.text = some value

theorem IsExpr.buildFirst_eq {value : Expr} {text : Text} {pairs : List (Pair Rule)}
    (h : IsExpr value text pairs) (what : Text) : buildFirst what pairs = .ok value := by
  obtain ⟨pair, rfl, -, hpair⟩ := h
  exact hpair

/-! ## Rules -/

theorem Parser.Realizes.builds {p : Parser α} {name : Rule}
    {build : List (Pair Rule) → Except BuildError α} (hmodifier : name.modifier ≠ .silent)
    (h : Realizes input n p (name.modifier.inside .spaced) name.body
      fun value _ inner => build inner = .ok value) :
    Realizes input n (Parser.rule p) .spaced (.rule name) (Builds name build) :=
  h.rule name hmodifier

theorem Parser.Realizes.isExpr {p : Parser Expr} {name : Rule} (hmodifier : name.modifier ≠ .silent)
    (hname : name ≠ .neg)
    (h : Realizes input n p (name.modifier.inside .spaced) name.body
      fun value text inner => buildExpr (.node name text inner) = .ok value) :
    Realizes input n (Parser.rule p) .spaced (.rule name) IsExpr := by
  refine (h.rule name hmodifier).mono fun value text pairs hvalue => ?_
  obtain ⟨inner, rfl, hbuild⟩ := hvalue
  exact ⟨_, rfl, hname, hbuild⟩

/-- A lexeme that is a rule of its own. -/
theorem realizes_token {scan : Text → Option (Text × Text)} {name : Rule}
    (hmodifier : name.modifier = .atomic) (h : Scans input scan .atomic name.body) :
    Realizes input n (Grammar.token scan) .spaced (.rule name) fun value text pairs =>
      text = value ∧ pairs = [.node name text []] ∧ ∃ s rest, scan s = some (value, rest) := by
  have hscan : Realizes input n (lexeme scan) (name.modifier.inside .spaced) name.body
      fun value text pairs =>
        text = value ∧ pairs = [] ∧ ∃ s rest, scan s = some (value, rest) := by
    rw [hmodifier]
    exact h.realizes
  refine (hscan.rule name (by rw [hmodifier]; decide)).mono fun value text pairs hvalue => ?_
  obtain ⟨inner, rfl, htext, rfl, htaken⟩ := hvalue
  exact ⟨htext, rfl, htaken⟩

/-- A sign that is a rule of its own. -/
theorem realizes_sign {p : Parser α} {name : Rule} {sign : String} {fits : α → Prop}
    (hmodifier : name.modifier ≠ .silent) (hbody : name.body = Rule.sign sign)
    (h : ∀ mode, Realizes input n p mode (.text sign.toList) fun value text pairs =>
      fits value ∧ text = sign.toList ∧ pairs = []) :
    Realizes input n (Parser.rule p) .spaced (.rule name) fun value text pairs =>
      fits value ∧ text = sign.toList ∧ pairs = [.node name text []] := by
  have hsign : Realizes input n p (name.modifier.inside .spaced) name.body
      fun value text pairs => fits value ∧ text = sign.toList ∧ pairs = [] := by
    rw [hbody]
    exact h _
  refine (hsign.rule name hmodifier).mono fun value text pairs hvalue => ?_
  obtain ⟨inner, rfl, hfits, htext, rfl⟩ := hvalue
  exact ⟨hfits, htext, rfl⟩

/-- A sign that stands for a value. -/
theorem realizes_signValue {name : Rule} {sign : String} (hmodifier : name.modifier ≠ .silent)
    (hbody : name.body = Rule.sign sign) (value : α) :
    Realizes input n (Parser.rule (exactly sign.toList >>= fun _ => pure value)) .spaced
      (.rule name) fun result text pairs =>
        result = value ∧ text = sign.toList ∧ pairs = [.node name text []] :=
  realizes_sign hmodifier hbody fun _ => (realizes_exactly _).map fun _ _ _ htaken => ⟨rfl, htaken.2⟩

/-! ## Operators -/

theorem Operator.ofToken?_token (operator : Operator) :
    ofToken? operator.token = some operator := by
  cases operator <;> decide

theorem Operator.token_ne_nil (operator : Operator) : operator.token ≠ [] := by
  cases operator <;> decide

theorem realizes_signOperator {name : Rule} {first : Operator} {others : List Operator}
    (hmodifier : name.modifier = .atomic)
    (hbody : name.body = Pattern.firstOf (.text first.token) (others.map fun operator =>
      .text operator.token)) :
    Realizes input n (Grammar.signOperator (first :: others)) .spaced (.rule name) IsOperator := by
  have hsigns : Realizes input n (oneOf ((first :: others).map fun operator =>
      exactly operator.token >>= fun _ => pure operator)) (name.modifier.inside .spaced) name.body
        fun value text pairs => text = value.token ∧ value ∈ first :: others ∧ pairs = [] := by
    rw [hmodifier, hbody]
    exact realizes_texts Operator.token first others
  refine (hsigns.rule name (by rw [hmodifier]; decide)).mono fun value text pairs hvalue => ?_
  obtain ⟨inner, rfl, rfl, -⟩ := hvalue
  exact ⟨value.token_ne_nil, _, rfl, value.ofToken?_token⟩

theorem realizes_wordOperator {name : Rule} {operator : Operator} {word : String}
    (hmodifier : name.modifier = .atomic) (hbody : name.body = Rule.keyword word)
    (hword : operator.token = word.toList) :
    Realizes input n (Grammar.wordOperator operator) .spaced (.rule name) IsOperator := by
  have hscan : Scans input (Lexeme.scanWord operator.token) .atomic name.body := by
    rw [hbody, hword]
    exact scans_word word
  refine (realizes_token hmodifier hscan).map fun value text pairs hvalue => ?_
  obtain ⟨rfl, rfl, s, rest, htaken⟩ := hvalue
  obtain ⟨rfl, -, -⟩ := Lexeme.scanWord_eq_some_iff.1 htaken
  exact ⟨operator.token_ne_nil, _, rfl, operator.ofToken?_token⟩

/-- The remainder of a chain gives the operators and their right operands. -/
theorem buildOperators_eq {others : List (Operator × Expr)} {pairs : List (Pair Rule)}
    (h : FitsAll (fun (other : Operator × Expr) _ pairs => ∃ sign pair, pairs = [sign, pair] ∧
      Operator.ofToken? sign.text = some other.1 ∧ buildExpr pair = .ok other.2) others pairs)
    (left : Expr) :
    buildOperators left pairs =
      .ok (others.foldl (fun left other => .binary other.1 left other.2) left) := by
  induction h generalizing left with
  | nil => rfl
  | cons h _ ih =>
    obtain ⟨sign, pair, rfl, hsign, hpair⟩ := h
    rw [List.cons_append, List.singleton_append, buildOperators, hsign]
    simp only [hpair, List.foldl_cons]
    exact ih _

theorem realizes_chain {name operandName : Rule} {operatorPattern : Pattern Rule}
    {operand : Parser Expr} {operator : Parser Operator} (hmodifier : name.modifier = .normal)
    (hname : name ≠ .neg) (hbody : name.body = Rule.operands operandName operatorPattern)
    (hbuild : ∀ text inner, buildExpr (.node name text inner) = buildChain inner)
    (hoperand : Realizes input n operand .spaced (.rule operandName) IsExpr)
    (hoperator : Realizes input n operator .spaced operatorPattern IsOperator) :
    Realizes input n (Grammar.chain operand operator) .spaced (.rule name) IsExpr := by
  refine Realizes.isExpr (by rw [hmodifier]; decide) hname ?_
  rw [hmodifier, hbody]
  have hother : Realizes input n (operator >>= fun operator => blanks >>= fun _ => operand >>=
      fun right => pure (operator, right)) .spaced
      (Pattern.sequence operatorPattern [.rule operandName])
      fun other text pairs => text ≠ [] ∧ ∃ sign pair, pairs = [sign, pair] ∧
        Operator.ofToken? sign.text = some other.1 ∧ buildExpr pair = .ok other.2 := by
    refine hoperator.andThen fun operator text pairs hvalue => ?_
    obtain ⟨hne, sign, rfl, hsign⟩ := hvalue
    refine hoperand.map fun right more others hright gap => ?_
    obtain ⟨pair, rfl, -, hpair⟩ := hright
    exact ⟨by simp [hne], sign, pair, rfl, hsign, hpair⟩
  refine hoperand.andThen fun first text pairs hfirst => ?_
  obtain ⟨pair, rfl, -, hpair⟩ := hfirst
  refine (hother.many fun _ _ _ hvalue => hvalue.1).map fun others more rest hothers gap => ?_
  have hrest := buildOperators_eq (hothers.mono fun _ _ _ hvalue => hvalue.2) first
  rw [hbuild, List.singleton_append, buildChain]
  simp only [hpair]
  exact hrest

/-! ## Axes and node tests -/

theorem Axis.ofName?_name (axis : Axis) : ofName? axis.name = some axis := by
  cases axis <;> decide

theorem realizes_axisName :
    Realizes input n Grammar.axisName .spaced (.rule .axisName) fun value text pairs =>
      text = value.name ∧ pairs = [.node .axisName text []] := by
  have hnames : Realizes input n (oneOf (Grammar.axes.map fun axis =>
      exactly axis.name >>= fun _ => pure axis)) .atomic (Rule.body .axisName)
      fun value text pairs => text = value.name ∧ value ∈ Grammar.axes ∧ pairs = [] :=
    realizes_texts Axis.name .ancestorOrSelf [.ancestor, .attribute, .child, .descendantOrSelf,
      .descendant, .followingSibling, .parent, .precedingSibling, .self]
  refine (hnames.rule .axisName (by decide)).mono fun value text pairs hvalue => ?_
  obtain ⟨inner, rfl, htext, -, rfl⟩ := hvalue
  exact ⟨htext, rfl⟩

theorem realizes_axisSpecifier :
    Realizes input n Grammar.axisSpecifier .spaced (.rule .axisSpecifier)
      (Builds .axisSpecifier buildAxis) := by
  refine Realizes.builds (by decide) (Realizes.orElse ?_ ?_)
  · refine (realizes_signValue (by decide) rfl Axis.attribute).mono fun value text pairs hvalue => ?_
    obtain ⟨rfl, -, rfl⟩ := hvalue
    rfl
  · refine realizes_axisName.andThen fun axis text pairs hvalue => ?_
    obtain ⟨rfl, rfl⟩ := hvalue
    refine (realizes_exactly _).map fun _ _ _ _ _ => ?_
    rw [List.singleton_append, buildAxis, Pair.text, Axis.ofName?_name]
    rfl

theorem realizes_nodeType :
    Realizes input n Grammar.nodeType .spaced (.rule .nodeType) fun value _ pairs =>
      ∃ kind, pairs = [kind] ∧ ∀ others, buildKindTest (kind :: others) = .ok value := by
  have htexts : Realizes input n (oneOf [
      (exactly "node".toList >>= fun _ => pure .node),
      (exactly "text".toList >>= fun _ => pure .text),
      (exactly "comment".toList >>= fun _ => pure .comment)]) .atomic (Rule.body .nodeType)
      fun value text pairs => ∀ others, buildKindTest (.node .nodeType text pairs :: others) =
        .ok value := by
    have hkind : ∀ {kind : Text} {test : NodeTest},
        (∀ others, buildKindTest (.node .nodeType kind [] :: others) = .ok test) →
          Realizes input n (exactly kind >>= fun _ => pure test) .atomic (.text kind)
            fun value text pairs =>
              ∀ others, buildKindTest (.node .nodeType text pairs :: others) = .ok value := by
      intro kind test hbuild
      refine (realizes_exactly kind).map fun _ text pairs hvalue others => ?_
      obtain ⟨-, rfl, rfl⟩ := hvalue
      exact hbuild others
    exact Realizes.orElse (hkind fun _ => rfl) (Realizes.orElse (hkind fun _ => rfl)
      (Realizes.oneOf_last (hkind fun _ => rfl)))
  refine (htexts.rule .nodeType (by decide)).mono fun value text pairs hvalue => ?_
  obtain ⟨inner, rfl, hbuild⟩ := hvalue
  exact ⟨_, rfl, hbuild⟩

theorem realizes_kindTest :
    Realizes input n Grammar.kindTest .spaced (.rule .kindTest)
      (Builds .kindTest buildKindTest) := by
  refine Realizes.builds (by decide) ?_
  refine realizes_nodeType.andThen fun test text pairs hvalue => ?_
  obtain ⟨kind, rfl, hbuild⟩ := hvalue
  refine (realizes_exactly _).andThen fun _ _ _ _ => ?_
  exact (realizes_exactly _).map fun _ _ _ _ _ _ => hbuild _

theorem realizes_nameTest :
    Realizes input n Grammar.nameTest .spaced (.rule .nameTest) fun value text pairs =>
      pairs = [.node .nameTest text []] ∧ value = if text = ['*'] then .any else .name text := by
  refine (realizes_token rfl scans_nameTest).map fun name text pairs hvalue => ?_
  obtain ⟨rfl, rfl, -⟩ := hvalue
  exact ⟨rfl, rfl⟩

theorem realizes_nodeTest :
    Realizes input n Grammar.nodeTest .spaced (.rule .nodeTest)
      (Builds .nodeTest buildNodeTest) := by
  refine Realizes.builds (by decide) (Realizes.orElse ?_ ?_)
  · refine realizes_kindTest.mono fun value text pairs hvalue => ?_
    obtain ⟨inner, rfl, hbuild⟩ := hvalue
    exact hbuild
  · refine realizes_nameTest.mono fun value text pairs hvalue => ?_
    obtain ⟨rfl, rfl⟩ := hvalue
    rfl

/-! ## Strings and numbers -/

theorem realizes_literal : Realizes input n Grammar.literal .spaced (.rule .literal) IsExpr := by
  refine (realizes_string.rule .literal (by decide)).map fun value text pairs hvalue => ?_
  obtain ⟨inner, rfl, -, name, rfl⟩ := hvalue
  exact ⟨_, rfl, by simp [Pair.rule], rfl⟩

theorem realizes_number : Realizes input n Grammar.number .spaced (.rule .number) IsExpr := by
  refine (realizes_token rfl scans_number).map fun digits text pairs hvalue => ?_
  obtain ⟨rfl, rfl, s, rest, hscan⟩ := hvalue
  obtain ⟨value, hnumber⟩ := (Lexeme.of_scanNumber hscan).1.exists_ofDecimal
  refine ⟨_, rfl, by simp [Pair.rule], ?_⟩
  rw [buildExpr]
  simp only [hnumber]
  rfl

/-! ## Separators -/

theorem realizes_pathSeparator :
    Realizes input n Grammar.pathSeparator .spaced (.rule .pathSep) fun value text pairs =>
      text ≠ [] ∧ pairs = [.node .pathSep text []] ∧ value = separatorSteps text := by
  refine (realizes_token rfl scans_separator).map fun sign text pairs hvalue => ?_
  obtain ⟨rfl, rfl, s, rest, hscan⟩ := hvalue
  obtain ⟨choice, hchoice, htaken⟩ := List.exists_of_findSome?_eq_some hscan
  obtain ⟨rfl, -⟩ := scanText_eq_some_iff.1 htaken
  refine ⟨?_, rfl, rfl⟩
  rintro rfl
  exact absurd hchoice (by decide)

/-! ## Expressions one after another -/

theorem buildAll_eq {values : List Expr} {pairs : List (Pair Rule)}
    (h : FitsAll IsExpr values pairs) : buildAll pairs = .ok values := by
  induction h with
  | nil => rfl
  | cons h _ ih =>
    obtain ⟨pair, rfl, -, hpair⟩ := h
    rw [List.singleton_append, buildAll]
    simp only [hpair, ih]
    rfl

/-- Expressions behind separators. -/
theorem realizes_separated {p : Parser Expr} {name : Rule} (sign : String) (hne : sign.toList ≠ [])
    (h : Realizes input n p .spaced (.rule name) IsExpr) :
    Realizes input n (many (exactly sign.toList >>= fun _ => blanks >>= fun _ => p)) .spaced
      (Pattern.many (Pattern.sequence (Rule.sign sign) [.rule name]))
      fun values _ pairs => FitsAll IsExpr values pairs := by
  have hpart : Realizes input n (exactly sign.toList >>= fun _ => blanks >>= fun _ => p) .spaced
      (Pattern.sequence (Rule.sign sign) [.rule name])
      fun value text pairs => text ≠ [] ∧ IsExpr value text pairs := by
    refine (realizes_exactly _).andThen fun _ text pairs hsign => ?_
    obtain ⟨-, rfl, rfl⟩ := hsign
    exact h.mono fun value more others hvalue gap => ⟨by simp [hne], hvalue⟩
  exact (hpart.many fun _ _ _ hvalue => hvalue.1).mono
    fun _ _ _ hvalues => hvalues.mono fun _ _ _ hvalue => hvalue.2

section Brackets

variable {expr : Parser Expr} (hexpr : Realizes input n expr .spaced (.rule .expr) IsExpr)
include hexpr

/-! ## Steps -/

theorem realizes_predicate :
    Realizes input (n + 1) (Grammar.predicate expr) .spaced (.rule .predicate)
      fun value text pairs => text ≠ [] ∧
        Builds .predicate (buildFirst "predicate expression".toList) value text pairs := by
  have hbody : Realizes input (n + 1) (exactly "[".toList >>= fun _ => blanks >>= fun _ => expr >>=
      fun condition => blanks >>= fun _ => exactly "]".toList >>= fun _ => pure condition) .spaced
      (Rule.body .predicate) fun value text inner =>
        text ≠ [] ∧ buildFirst "predicate expression".toList inner = .ok value := by
    refine Realizes.behind_sign (by decide) (hexpr.andThen fun condition text pairs hvalue => ?_)
    refine (realizes_exactly _).map fun _ _ _ hsign gap gap' => ⟨by simp, ?_⟩
    obtain ⟨-, -, rfl⟩ := hsign
    rw [List.append_nil]
    exact hvalue.buildFirst_eq _
  refine (hbody.rule .predicate (by decide)).mono fun value text pairs hvalue => ?_
  obtain ⟨inner, rfl, hne, hbuild⟩ := hvalue
  exact ⟨hne, inner, rfl, hbuild⟩

theorem realizes_predicates :
    Realizes input (n + 1) (many (Grammar.predicate expr)) .spaced
      (Pattern.many (.rule .predicate)) fun values _ pairs =>
        FitsAll (Builds .predicate (buildFirst "predicate expression".toList)) values pairs :=
  ((realizes_predicate hexpr).many fun _ _ _ hvalue => hvalue.1).mono
    fun _ _ _ hvalues => hvalues.mono fun _ _ _ hvalue => hvalue.2

omit hexpr in
theorem buildParts_eq {predicates : List Expr} {pairs : List (Pair Rule)}
    (h : FitsAll (Builds .predicate (buildFirst "predicate expression".toList)) predicates pairs)
    (axis : Axis) (test : NodeTest) (earlier : List Expr) :
    buildParts axis (some test) earlier pairs = .ok (.mk axis test (earlier ++ predicates)) := by
  induction h generalizing earlier with
  | nil =>
    rw [List.append_nil]
    rfl
  | @cons predicate text pairs predicates others h _ ih =>
    obtain ⟨inner, rfl, hbuild⟩ := h
    rw [List.singleton_append, buildParts]
    simp only [hbuild]
    have hothers := ih (earlier ++ [predicate])
    rw [List.append_assoc, List.singleton_append] at hothers
    exact hothers

omit hexpr in
theorem buildPredicates_eq {predicates : List Expr} {pairs : List (Pair Rule)}
    (h : FitsAll (Builds .predicate (buildFirst "predicate expression".toList)) predicates pairs) :
    buildPredicates pairs = .ok predicates := by
  induction h with
  | nil => rfl
  | cons h _ ih =>
    obtain ⟨inner, rfl, hbuild⟩ := h
    rw [List.singleton_append, buildPredicates]
    simp only [hbuild, ih]
    rfl

theorem realizes_axisStep :
    Realizes input (n + 1) (Grammar.axisStep expr) .spaced (.rule .axisStep)
      (Builds .axisStep (buildParts .child none [])) := by
  refine Realizes.builds (by decide) ?_
  have haxis : Realizes input (n + 1) (Parser.optional Grammar.axisSpecifier) .spaced
      (.optional (.rule .axisSpecifier)) fun axis _ pairs => ∀ others,
        buildParts .child none [] (pairs ++ others) =
          buildParts (axis.getD .child) none [] others := by
    refine realizes_axisSpecifier.optional ?_ fun _ => rfl
    rintro axis text pairs ⟨inner, rfl, hbuild⟩ others
    rw [List.singleton_append, buildParts]
    simp only [hbuild]
    rfl
  refine haxis.andThen fun axis text pairs hpairs => ?_
  refine realizes_nodeTest.andThen fun test more others htest => ?_
  obtain ⟨inner, rfl, hbuild⟩ := htest
  refine (realizes_predicates hexpr).map fun predicates last rest hpredicates gap gap' => ?_
  have hrest := buildParts_eq hpredicates (axis.getD .child) test []
  rw [List.nil_append] at hrest
  rw [hpairs, List.singleton_append, buildParts]
  simp only [hbuild]
  exact hrest

theorem realizes_step :
    Realizes input (n + 1) (Grammar.step expr) .spaced (.rule .step) (Builds .step buildStep) := by
  refine Realizes.builds (by decide)
    (Realizes.orElse ?_ (Realizes.orElse ?_ (Realizes.oneOf_last ?_)))
  · refine (realizes_signValue (by decide) rfl _).mono fun value text pairs hvalue => ?_
    obtain ⟨rfl, -, rfl⟩ := hvalue
    rfl
  · refine (realizes_signValue (by decide) rfl _).mono fun value text pairs hvalue => ?_
    obtain ⟨rfl, -, rfl⟩ := hvalue
    rfl
  · refine (realizes_axisStep hexpr).mono fun value text pairs hvalue => ?_
    obtain ⟨inner, rfl, hbuild⟩ := hvalue
    exact hbuild

/-! ## Paths -/

theorem realizes_relativePath :
    Realizes input (n + 1) (Grammar.relativePath expr) .spaced (.rule .relativePath)
      (Builds .relativePath buildRelative) := by
  refine Realizes.builds (by decide) ?_
  have hother : Realizes input (n + 1) (Grammar.pathSeparator >>= fun skipped => blanks >>= fun _ =>
      Grammar.step expr >>= fun next => pure (skipped ++ [next])) .spaced
      (Pattern.sequence (.rule .pathSep) [.rule .step]) fun steps text pairs => text ≠ [] ∧
        ∀ others later, buildRelative others = .ok later →
          buildRelative (pairs ++ others) = .ok (steps ++ later) := by
    refine realizes_pathSeparator.andThen fun skipped text pairs hvalue => ?_
    obtain ⟨hne, rfl, rfl⟩ := hvalue
    refine (realizes_step hexpr).map fun next more others hnext gap => ⟨by simp [hne], ?_⟩
    obtain ⟨inner, rfl, hbuild⟩ := hnext
    intro others later hlater
    simp only [List.cons_append, List.nil_append, buildRelative, hbuild, hlater]
    show Except.ok (separatorSteps text ++ next :: later) = _
    rw [List.append_assoc, List.singleton_append]
  refine (realizes_step hexpr).andThen fun first text pairs hfirst => ?_
  obtain ⟨inner, rfl, hbuild⟩ := hfirst
  refine (hother.many fun _ _ _ hvalue => hvalue.1).map fun others more rest hothers gap => ?_
  have hrest : buildRelative rest = .ok others.flatten := by
    induction hothers with
    | nil => rfl
    | cons h _ ih => exact h.2 _ _ ih
  simp only [List.singleton_append, buildRelative, hbuild, hrest]
  rfl

theorem realizes_absolutePath :
    Realizes input (n + 1) (Grammar.absolutePath expr) .spaced (.rule .absolutePath)
      (Builds .absolutePath buildAbsolute) := by
  refine Realizes.builds (by decide) (Realizes.orElse ?_ ?_)
  · refine (realizes_sign (by decide) rfl fun _ => realizes_exactly _).andThen
      fun _ text pairs hvalue => ?_
    refine (realizes_relativePath hexpr).map fun steps more others hsteps gap => ?_
    obtain ⟨inner, rfl, hbuild⟩ := hsteps
    rw [hvalue.2.2, List.singleton_append, buildAbsolute]
    simp only [hbuild]
    rfl
  · refine (realizes_sign (by decide) rfl fun _ => realizes_exactly _).andThen
      fun _ text pairs hvalue => ?_
    have hsteps : Realizes input (n + 1) (Parser.optional (Grammar.relativePath expr)) .spaced
        (.optional (.rule .relativePath)) fun steps _ others =>
          buildAbsolute (.node .root text [] :: others) = .ok (.path .root (steps.getD [])) := by
      refine (realizes_relativePath hexpr).optional ?_ rfl
      rintro steps more others ⟨inner, rfl, hbuild⟩
      rw [buildAbsolute]
      simp only [hbuild]
      rfl
    refine hsteps.map fun steps more others hbuild gap => ?_
    rw [hvalue.2.2]
    exact hbuild

theorem realizes_locationPath :
    Realizes input (n + 1) (Grammar.locationPath expr) .spaced (.rule .locationPath) IsExpr := by
  refine Realizes.isExpr (by decide) (by decide) (Realizes.orElse ?_ ?_)
  · refine (realizes_absolutePath hexpr).mono fun value text pairs hvalue => ?_
    obtain ⟨inner, rfl, hbuild⟩ := hvalue
    exact hbuild
  · refine (realizes_relativePath hexpr).map fun steps text pairs hvalue => ?_
    obtain ⟨inner, rfl, hbuild⟩ := hvalue
    have hlocation : buildExpr (.node .locationPath text [.node .relativePath text inner]) =
        buildRelative inner >>= fun steps => pure (.path .context steps) := rfl
    rw [hlocation, hbuild]
    rfl

/-! ## Calls and primary expressions -/

theorem realizes_functionCall :
    Realizes input (n + 1) (Grammar.functionCall expr) .spaced (.rule .functionCall) IsExpr := by
  refine Realizes.isExpr (by decide) (by decide) ?_
  have hkind : Realizes input (n + 1) (Grammar.nodeType >>= fun _ => blanks >>= fun _ =>
      exactly "(".toList) .spaced (Pattern.sequence (.rule .nodeType) [Rule.sign "("])
      fun _ _ _ => True :=
    realizes_nodeType.andThen fun _ _ _ _ => (realizes_exactly _).mono fun _ _ _ _ _ => trivial
  have harguments : Realizes input n (Parser.optional (Grammar.arguments expr)) .spaced
      (.optional (Pattern.sequence (.rule .expr)
        [Pattern.many (Pattern.sequence (Rule.sign ",") [.rule .expr])]))
      fun values _ pairs => buildAll pairs = .ok (values.getD []) := by
    have hlist : Realizes input n (Grammar.arguments expr) .spaced
        (Pattern.sequence (.rule .expr)
          [Pattern.many (Pattern.sequence (Rule.sign ",") [.rule .expr])])
        fun values _ pairs => FitsAll IsExpr values pairs := by
      refine hexpr.andThen fun first text pairs hfirst => ?_
      exact (realizes_separated "," (by decide) hexpr).map fun others more rest hothers gap =>
        .cons hfirst hothers
    exact hlist.optional (fun _ _ _ hvalues => buildAll_eq hvalues) rfl
  refine hkind.absent.andThen fun _ text pairs hvalue => ?_
  obtain ⟨-, rfl⟩ := hvalue
  refine (realizes_token rfl scans_name).andThen fun name more others hname => ?_
  obtain ⟨rfl, rfl, -⟩ := hname
  refine Realizes.behind_sign (by decide) ?_
  refine harguments.andThen fun values last rest hvalues => ?_
  refine (realizes_exactly _).map fun _ _ _ hsign gap gap' gap'' gap''' => ?_
  obtain ⟨-, -, rfl⟩ := hsign
  have hcall : ∀ text, buildExpr (.node .functionCall text (.node .functionName more [] :: rest)) =
      buildAll rest >>= fun arguments => pure (.call more arguments) := fun _ => rfl
  rw [List.append_nil, List.nil_append, List.singleton_append, hcall, hvalues]
  rfl

/-- A text in parentheses, a string, a number or a call. -/
theorem realizes_primary :
    Realizes input (n + 1) (Grammar.primary expr) .spaced (.rule .primaryExpr) IsExpr := by
  refine Realizes.isExpr (by decide) (by decide) (Realizes.orElse ?_ (Realizes.orElse ?_
    (Realizes.orElse ?_ (Realizes.oneOf_last ?_))))
  · refine Realizes.behind_sign (by decide) (hexpr.andThen fun inner text pairs hvalue => ?_)
    refine (realizes_exactly _).map fun _ _ _ hsign gap gap' => ?_
    obtain ⟨-, -, rfl⟩ := hsign
    rw [List.append_nil]
    exact hvalue.buildFirst_eq _
  · exact realizes_literal.mono fun _ _ _ hvalue => hvalue.buildFirst_eq _
  · exact realizes_number.mono fun _ _ _ hvalue => hvalue.buildFirst_eq _
  · exact (realizes_functionCall hexpr).mono fun _ _ _ hvalue => hvalue.buildFirst_eq _

/-! ## Filters -/

theorem realizes_filterExpr :
    Realizes input (n + 1) (Grammar.filterExpr expr) .spaced (.rule .filterExpr)
      (Builds .filterExpr buildFilter) := by
  refine Realizes.builds (by decide) ?_
  refine (realizes_primary hexpr).andThen fun primary text pairs hprimary => ?_
  obtain ⟨pair, rfl, -, hpair⟩ := hprimary
  refine (realizes_predicates hexpr).map fun predicates more others hpredicates gap => ?_
  rw [List.singleton_append, buildFilter]
  simp only [hpair, buildPredicates_eq hpredicates]
  rfl

theorem realizes_filterPath :
    Realizes input (n + 1) (Grammar.filterPath expr) .spaced (.rule .filterPath) IsExpr := by
  refine Realizes.isExpr (by decide) (by decide) ?_
  have hsteps : Realizes input (n + 1) (Grammar.pathSeparator >>= fun skipped => blanks >>= fun _ =>
      Grammar.relativePath expr >>= fun steps => pure (skipped ++ steps)) .spaced
      (Pattern.sequence (.rule .pathSep) [.rule .relativePath]) fun steps _ pairs =>
        ∃ separator name text path later, pairs = [separator, .node name text path] ∧
          buildRelative path = .ok later ∧ steps = separatorSteps separator.text ++ later := by
    refine realizes_pathSeparator.andThen fun skipped text pairs hvalue => ?_
    obtain ⟨-, rfl, rfl⟩ := hvalue
    refine (realizes_relativePath hexpr).map fun steps more others hsteps gap => ?_
    obtain ⟨inner, rfl, hbuild⟩ := hsteps
    exact ⟨_, _, _, _, _, rfl, hbuild, rfl⟩
  refine (realizes_filterExpr hexpr).andThen fun base text pairs hbase => ?_
  obtain ⟨filter, rfl, hfilter⟩ := hbase
  have hpath : Realizes input (n + 1) (Parser.optional (Grammar.pathSeparator >>= fun skipped =>
      blanks >>= fun _ => Grammar.relativePath expr >>= fun steps => pure (skipped ++ steps)))
      .spaced (.optional (Pattern.sequence (.rule .pathSep) [.rule .relativePath]))
      fun steps _ pairs =>
        buildFilterPath (.node .filterExpr text filter :: pairs) =
          .ok (steps.elim base fun steps => .path (.expr base) steps) := by
    refine hsteps.optional ?_ ?_
    · rintro steps more others ⟨separator, name, taken, path, later, rfl, hlater, rfl⟩
      rw [buildFilterPath]
      simp only [hfilter, hlater]
      rfl
    · rw [buildFilterPath]
      simp only [hfilter]
      rfl
  refine hpath.map fun steps more others hbuild gap => ?_
  cases steps with
  | none => exact hbuild
  | some steps => exact hbuild

theorem realizes_pathExpr :
    Realizes input (n + 1) (Grammar.pathExpr expr) .spaced (.rule .pathExpr) IsExpr := by
  refine Realizes.isExpr (by decide) (by decide) (Realizes.orElse ?_ ?_)
  · exact (realizes_filterPath hexpr).mono fun _ _ _ hvalue => hvalue.buildFirst_eq _
  · exact (realizes_locationPath hexpr).mono fun _ _ _ hvalue => hvalue.buildFirst_eq _

end Brackets

end TreeSelect.XPath
