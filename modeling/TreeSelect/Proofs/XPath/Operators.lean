import TreeSelect.Proofs.XPath.Written

/-!
# Operators between written operands

Each level of the grammar from unions to disjunctions has operands of the level below it and
operators of its own.  A text that is written at one level is written at each level above it, and
operands with operators between them are written at the level of the operator.

* `written_chain` is about all levels with two operands at once: operands with one operator between
  them group to the left.  `written_pair` is about two operands.
* `Sign` is what a chain needs to know about an operator and the blanks around it.
-/

namespace TreeSelect.XPath

open TreeSelect.XPath.Parser TreeSelect.XPath.Grammar

/-! ## Chains of operators -/

/-- An operator with the blanks around it, behind operands whose own operators begin with
`signs`. -/
structure Sign (operator : Parser Operator) (closed : Bool) (signs : List Char) (sign : Text)
    (op : Operator) : Prop where
  follows : ∀ s, Follows closed signs (sign ++ s)
  reads : ∀ s, Starts s → ∃ rest, operator.Reads (skipGap (sign ++ s)) op rest ∧
    skipGap rest = s ∧ rest.length < (skipGap (sign ++ s)).length

section Chains

variable {operand : Parser Expr} {operator : Parser Operator} {closed : Bool}
  {below signs : List Char}

/-- An operator and its right operand are read as a pair. -/
theorem Sign.readsUpTo {sign : Text} {op : Operator} (hsign : Sign operator closed below sign op)
    {s : Text} {e : Expr} (h : Written operand false below s e) {rest : Text}
    (hrest : Follows false below rest) :
    (do
        let operator ← operator
        blanks
        let right ← operand
        return (operator, right) : Parser (Operator × Expr)).ReadsUpTo
      (skipGap (sign ++ s ++ rest)) (op, e) rest := by
  obtain ⟨middle, hop, hmiddle, -⟩ := hsign.reads _ (h.starts.append rest)
  have hright := (h.reads rest hrest).bind_pure (fun right => (op, right))
  rw [← hmiddle] at hright
  rw [List.append_assoc]
  exact hop.upTo.bind_blanks_upTo hright

/-- An operator and its right operand are longer than nothing. -/
theorem Sign.shorter {sign : Text} {op : Operator} (hsign : Sign operator closed below sign op)
    {s : Text} (h : Starts s) (rest : Text) :
    rest.length < (skipGap (sign ++ s ++ rest)).length := by
  obtain ⟨middle, -, hmiddle, hlt⟩ := hsign.reads _ (h.append rest)
  have hle := length_skipGap_le middle
  rw [hmiddle, List.length_append] at hle
  rw [List.append_assoc]
  omega

/-- Operands with one operator between them are written at the level of the operator, and group to
the left. -/
theorem written_chain {sign : Text} {op : Operator} (hsub : below ⊆ signs)
    (hstop : ∀ s, Avoids signs s → operator.Refuses s) (hsign : Sign operator false below sign op)
    {s : Text} {e : Expr} (hfirst : Written operand false below s e) {others : List (Text × Expr)}
    (hothers : ∀ other ∈ others, Written operand false below other.1 other.2) :
    Written (chain operand operator) false signs (s ++ others.flatMap (sign ++ ·.1))
      (others.foldl (fun left other => .binary op left other.2) e) := by
  have hparts : ∀ p ∈ others.map (fun other => (sign ++ other.1, op, other.2)),
      Continues (do
        let operator ← operator
        blanks
        let right ← operand
        return (operator, right)) below p.1 p.2 := by
    intro p hp
    obtain ⟨other, hother, rfl⟩ := List.mem_map.1 hp
    have hwritten := hothers other hother
    constructor
    case follows =>
      intro rest
      rw [List.append_assoc]
      exact hsign.follows _
    case shorter => exact hsign.shorter hwritten.starts
    case reads => exact fun rest hrest => hsign.readsUpTo hwritten hrest
  have h := (hfirst.many hsub (fun s hs => (hstop s hs).bind _) hparts
    (fun first others => others.foldl (fun left other => .binary other.1 left other.2) first)).rule
  rw [List.flatMap_map, List.map_map, List.foldl_map] at h
  exact h

/-- Two operands with an operator between them.  The sign need not be one that ends an open lexeme,
if the first operand is closed. -/
theorem written_pair {sign : Text} {op : Operator} (hsub : below ⊆ signs)
    (hstop : ∀ s, Avoids signs s → operator.Refuses s) (hsign : Sign operator closed below sign op)
    {s t : Text} {e e' : Expr} (h : Written operand closed below s e)
    (h' : Written operand false below t e') :
    Written (chain operand operator) false signs (s ++ (sign ++ t)) (.binary op e e') where
  starts := h.starts.append _
  reads := by
    intro rest hrest
    obtain ⟨left, hleft, hpart⟩ := hsign.readsUpTo h' (hrest.mono hsub)
    have hgap : skipGap left = skipGap rest := by
      rcases hleft with rfl | rfl
      · rfl
      · exact skipGap_skipGap rest
    have hshorter : left.length < (skipGap (sign ++ t ++ rest)).length := by
      have hlt := hsign.shorter h'.starts rest
      have hle := length_skipGap_le rest
      rcases hleft with rfl | rfl
      · exact hlt
      · omega
    have hnone := hstop _ hrest.avoids
    rw [← hgap] at hnone
    rw [← skipGap_skipGap (sign ++ t ++ rest)] at hpart
    have hmany := reads_many (.next hpart hshorter (.stop (hnone.bind _))) (skipGap_skipGap _)
    have hfirst := h.reads (sign ++ t ++ rest) (by
      rw [List.append_assoc]
      exact hsign.follows _)
    rw [List.append_assoc]
    exact ⟨left, hleft,
      (hfirst.bind_blanks (hmany.bind (reads_pure (Expr.binary op e e') left))).rule⟩

/-- An operand alone is written at the level of the operator. -/
theorem Written.chain (hsub : below ⊆ signs) (hstop : ∀ s, Avoids signs s → operator.Refuses s)
    {s : Text} {e : Expr} (h : Written operand closed below s e) :
    Written (Grammar.chain operand operator) closed signs s e := by
  refine (h.alone hsub ?_ fun first (others : List (Operator × Expr)) =>
    others.foldl (fun left other => Expr.binary other.1 left other.2) first).rule
  intro s hs
  exact (hstop s hs).bind _

end Chains

/-! ## Operators and the signs that they begin with -/

namespace Grammar

variable {operator : Parser Operator} {closed : Bool} {below signs : List Char}

theorem refuses_signOperator {operators : List Operator} {s : Text} (h : Avoids signs s)
    (htokens : ∀ op ∈ operators, ¬ Avoids signs op.token) :
    (signOperator operators).Refuses s := by
  refine Refuses.rule (refuses_oneOf ?_)
  intro parser hparser
  obtain ⟨op, hop, rfl⟩ := List.mem_map.1 hparser
  exact (refuses_exactly_of_avoids h (htokens op hop)).bind _

theorem refuses_wordOperator {op : Operator} {s : Text} (h : Avoids signs s)
    (htoken : ¬ Avoids signs op.token) : (wordOperator op).Refuses s := by
  have hscan : Lexeme.scanWord op.token s = none := by
    rw [Lexeme.scanWord, scanText_eq_none (h.not_begins htoken)]
  exact (refuses_lexeme hscan).rule.bind _

/-- The first sign of the list with which the text begins is taken. -/
theorem reads_signOperator (earlier : List Operator) (op : Operator) (later : List Operator)
    {s : Text} (h : ∀ other ∈ earlier, ¬ other.token <+: op.token ++ s) :
    (signOperator (earlier ++ op :: later)).Reads (op.token ++ s) op s := by
  have hearlier : ∀ choice ∈ earlier.map fun op => (op.token, op), ¬ choice.1 <+: op.token ++ s := by
    intro choice hchoice
    obtain ⟨other, hother, rfl⟩ := List.mem_map.1 hchoice
    exact h other hother
  have hreads := (reads_choice _ (op.token, op) (later.map fun op => (op.token, op)) hearlier).rule
  rw [List.map_append, List.map_cons, List.map_map, List.map_map] at hreads
  rw [signOperator, List.map_append, List.map_cons]
  exact hreads

/-- The second sign of a list is taken where the first one does not stand. -/
theorem reads_secondSign {first op : Operator} {signs : List Char} {s : Text}
    (hop : Avoids signs (op.token ++ s)) (hfirst : ¬ Avoids signs first.token)
    (later : List Operator) :
    (signOperator (first :: op :: later)).Reads (op.token ++ s) op s := by
  apply reads_signOperator [first] op later
  intro other hother
  rw [List.mem_singleton.1 hother]
  exact hop.not_begins hfirst

/-- A word is taken where no name goes on with it. -/
theorem reads_wordOperator (op : Operator) {s : Text}
    (hs : ∀ c ∈ s.head?, Lexeme.isNameChar c = false) :
    (wordOperator op).Reads (op.token ++ s) op s :=
  (reads_lexeme (Lexeme.scanWord_eq_some_iff.2 ⟨rfl, rfl, hs⟩)).rule.bind (reads_pure op _)

/-- No name goes on behind a blank. -/
theorem isNameChar_head_blank (s : Text) :
    ∀ c ∈ (' ' :: s).head?, Lexeme.isNameChar c = false := by
  intro c hc
  cases hc
  decide

/-- An operator with a blank on each side of it. -/
theorem sign_spaced {op : Operator}
    (hreads : ∀ s, operator.Reads (op.token ++ ' ' :: s) op (' ' :: s))
    (htoken : ∃ c rest, op.token = c :: rest ∧ isGap c = false ∧ c ∉ ['(', ':'] ∧ c ∉ below) :
    Sign operator false below (' ' :: op.token ++ [' ']) op := by
  obtain ⟨c, rest, htoken, hgap, hname, hbelow⟩ := htoken
  have hskip : ∀ s, skipGap ((' ' :: op.token ++ [' ']) ++ s) = c :: (rest ++ ' ' :: s) := by
    intro s
    have hblank : isGap ' ' = true := by decide
    rw [htoken, List.cons_append, List.cons_append, skipGap_cons_of_isGap hblank,
      List.cons_append, List.cons_append, skipGap_cons_of_not_isGap hgap]
    simp
  have hwhole : ∀ s, c :: (rest ++ ' ' :: s) = op.token ++ ' ' :: s := by
    intro s
    rw [htoken, List.cons_append]
  constructor
  case follows =>
    intro s
    constructor
    · intro _
      constructor
      · intro d hd
        cases hd
        decide
      · rw [hskip]
        exact avoids_cons hname _
    · rw [hskip]
      exact avoids_cons hbelow _
  case reads =>
    intro s hs
    have hblank : isGap ' ' = true := by decide
    refine ⟨' ' :: s, ?_, ?_, ?_⟩
    · rw [hskip, hwhole]
      exact hreads s
    · rw [skipGap_cons_of_isGap hblank, hs.skipGap]
    · rw [hskip]
      simp only [List.length_cons, List.length_append]
      omega

/-- A sign with no blanks around it. -/
theorem sign_bare {op : Operator} (hreads : ∀ s, operator.Reads (op.token ++ s) op s)
    (htoken : ∃ c rest, op.token = c :: rest ∧ (closed = false → Lexeme.isNameChar c = false) ∧
      isGap c = false ∧ c ∉ ['(', ':'] ∧ c ∉ below) :
    Sign operator closed below op.token op := by
  obtain ⟨c, rest, htoken, hlexeme, hgap, hname, hbelow⟩ := htoken
  have hskip : ∀ s, skipGap (op.token ++ s) = op.token ++ s := by
    intro s
    rw [htoken, List.cons_append]
    exact skipGap_cons_of_not_isGap hgap
  constructor
  case follows =>
    intro s
    constructor
    · intro hopen
      rw [htoken, List.cons_append]
      exact ends_cons (hlexeme hopen) hgap hname _
    · rw [hskip, htoken, List.cons_append]
      exact avoids_cons hbelow _
  case reads =>
    intro s hs
    refine ⟨s, ?_, hs.skipGap, ?_⟩
    · rw [hskip]
      exact hreads s
    · rw [hskip, htoken, List.length_append, List.length_cons]
      omega

/-! ## The levels of the grammar -/

/-- The signs that go on with a path, and from here on each level has those of its own operators
before those of the levels below it. -/
def pathSigns : List Char := ['[', '/']

def unionSigns : List Char := '|' :: pathSigns

def multiplicativeSigns : List Char := 'd' :: 'm' :: unionSigns

def additiveSigns : List Char := '+' :: '-' :: multiplicativeSigns

def relationalSigns : List Char := '<' :: '>' :: additiveSigns

def equalitySigns : List Char := '!' :: '=' :: relationalSigns

def conjunctionSigns : List Char := 'a' :: equalitySigns

def disjunctionSigns : List Char := 'o' :: conjunctionSigns


theorem refuses_multiplicative {s : Text} (h : Avoids multiplicativeSigns s) :
    (orElse (wordOperator .div) (wordOperator .mod)).Refuses s :=
  (refuses_wordOperator h (by decide)).orElse (refuses_wordOperator h (by decide))

theorem refuses_additive {s : Text} (h : Avoids additiveSigns s) :
    (signOperator [.add, .sub]).Refuses s :=
  refuses_signOperator h (by decide)

theorem refuses_relational {s : Text} (h : Avoids relationalSigns s) :
    (signOperator [.le, .ge, .lt, .gt]).Refuses s :=
  refuses_signOperator h (by decide)

theorem refuses_equality {s : Text} (h : Avoids equalitySigns s) :
    (signOperator [.ne, .eq]).Refuses s :=
  refuses_signOperator h (by decide)

theorem refuses_conjunction {s : Text} (h : Avoids conjunctionSigns s) :
    (wordOperator .and).Refuses s :=
  refuses_wordOperator h (by decide)

theorem refuses_disjunction {s : Text} (h : Avoids disjunctionSigns s) :
    (wordOperator .or).Refuses s :=
  refuses_wordOperator h (by decide)

end Grammar

section Levels

variable {closed : Bool} {s t : Text} {e e' : Expr}

theorem Written.union (h : Written (pathExpr expr) closed pathSigns s e) :
    Written (unionExpr expr) closed unionSigns s e :=
  (h.alone (by decide) (fun _ hs => (refuses_exactly_of_avoids hs (by decide)).bind _)
    fun first (others : List Expr) =>
      if others.isEmpty then first else .union (first :: others)).rule

/-- Paths with `|` between them are written. -/
theorem written_union (h : Written (pathExpr expr) false pathSigns s e)
    {others : List (Text × Expr)} (hne : others ≠ [])
    (hothers : ∀ other ∈ others, Written (pathExpr expr) false pathSigns other.1 other.2) :
    Written (unionExpr expr) false unionSigns (s ++ others.flatMap ('|' :: ·.1))
      (.union (e :: others.map (·.2))) := by
  have hparts : ∀ p ∈ others.map (fun other => ('|' :: other.1, other.2)),
      Continues (do let _ ← exactly "|".toList; blanks; pathExpr expr) pathSigns p.1 p.2 := by
    intro p hp
    obtain ⟨other, hother, rfl⟩ := List.mem_map.1 hp
    have hnone : ∀ d ∈ ([] : Text), isGap d = true := fun _ hd => absurd hd List.not_mem_nil
    exact (hothers other hother).continues hnone (by decide) (by decide) (by decide) (by decide)
  have hunion := (h.many (by decide : pathSigns ⊆ unionSigns)
    (fun _ hs => (refuses_exactly_of_avoids hs (by decide)).bind _) hparts
    fun first (others : List Expr) =>
      if others.isEmpty then first else .union (first :: others)).rule
  rw [List.flatMap_map, List.map_map] at hunion
  have hmany : ¬ (others.map (·.2)).isEmpty = true := by simpa using hne
  simp only [Function.comp_def] at hunion
  rw [if_neg hmany] at hunion
  exact hunion

theorem Written.unary (h : Written (unionExpr expr) closed unionSigns s e) :
    Written (unaryExpr expr) closed unionSigns s e where
  starts := h.starts
  reads := by
    intro rest hrest
    have hsigns : (Parser.rule (exactly "-".toList)).Refuses (s ++ rest) :=
      (refuses_exactly_of_avoids (h.starts.append rest).avoids_minus (by decide)).rule
    have hnone := reads_many (.stop ((h.starts.append rest).skipGap.symm ▸ hsigns))
      (h.starts.append rest).skipGap
    have hreads := h.reads rest hrest
    rw [← (h.starts.append rest).skipGap] at hreads
    exact (hnone.upTo.bind_blanks_upTo (hreads.bind_pure _)).rule

theorem Written.multiplicative (h : Written (unaryExpr expr) closed unionSigns s e) :
    Written (Grammar.multiplicative expr) closed multiplicativeSigns s e :=
  h.chain (by decide) fun _ => refuses_multiplicative

theorem Written.additive
    (h : Written (Grammar.multiplicative expr) closed multiplicativeSigns s e) :
    Written (Grammar.additive expr) closed additiveSigns s e :=
  h.chain (by decide) fun _ => refuses_additive

theorem Written.relational (h : Written (Grammar.additive expr) closed additiveSigns s e) :
    Written (Grammar.relational expr) closed relationalSigns s e :=
  h.chain (by decide) fun _ => refuses_relational

theorem Written.equality (h : Written (Grammar.relational expr) closed relationalSigns s e) :
    Written (Grammar.equality expr) closed equalitySigns s e :=
  h.chain (by decide) fun _ => refuses_equality

theorem Written.conjunction (h : Written (Grammar.equality expr) closed equalitySigns s e) :
    Written (Grammar.conjunction expr) closed conjunctionSigns s e :=
  h.chain (by decide) fun _ => refuses_conjunction

theorem Written.disjunction (h : Written (Grammar.conjunction expr) closed conjunctionSigns s e) :
    Written expr closed disjunctionSigns s e := by
  have hdisjunction : Written (Grammar.disjunction expr) closed disjunctionSigns s e :=
    h.chain (by decide) fun _ => refuses_disjunction
  rw [expr_eq]
  exact ⟨hdisjunction.starts, fun rest hrest => (hdisjunction.reads rest hrest).rule⟩

/-! ## Pairs of operands -/

theorem Written.mod (h : Written (unaryExpr expr) false unionSigns s e)
    (h' : Written (unaryExpr expr) false unionSigns t e') :
    Written (Grammar.multiplicative expr) false multiplicativeSigns (s ++ (" mod ".toList ++ t))
      (.binary .mod e e') := by
  have hreads : ∀ s, (Parser.orElse (wordOperator .div) (wordOperator .mod)).Reads
      (Operator.token .mod ++ ' ' :: s) .mod (' ' :: s) := by
    intro s
    have hdiv : (wordOperator .div).Refuses (Operator.token .mod ++ ' ' :: s) :=
      refuses_wordOperator (avoids_cons (by decide : 'm' ∉ ['d']) _) (by decide)
    exact hdiv.orElse_reads (reads_wordOperator .mod (isNameChar_head_blank s))
  have hsign : Sign _ false unionSigns " mod ".toList .mod :=
    sign_spaced hreads ⟨'m', _, rfl, by decide, by decide, by decide⟩
  exact written_pair (by decide) (fun _ => refuses_multiplicative) hsign h h'

/-- The minus sign belongs to names as well, so that it ends a closed text only. -/
theorem Written.sub (h : Written (Grammar.multiplicative expr) true multiplicativeSigns s e)
    (h' : Written (Grammar.multiplicative expr) false multiplicativeSigns t e') :
    Written (Grammar.additive expr) false additiveSigns (s ++ ("-".toList ++ t))
      (.binary .sub e e') := by
  have hreads : ∀ s, (signOperator [.add, .sub]).Reads (Operator.token .sub ++ s) .sub s :=
    fun s => reads_secondSign (avoids_cons (by decide : '-' ∉ ['+']) s) (by decide) []
  have hsign : Sign _ true multiplicativeSigns "-".toList .sub :=
    sign_bare hreads ⟨'-', _, rfl, nofun, by decide, by decide, by decide⟩
  exact written_pair (by decide) (fun _ => refuses_additive) hsign h h'

theorem Written.ge (h : Written (Grammar.additive expr) false additiveSigns s e)
    (h' : Written (Grammar.additive expr) false additiveSigns t e') :
    Written (Grammar.relational expr) false relationalSigns (s ++ (" >= ".toList ++ t))
      (.binary .ge e e') := by
  have hreads : ∀ s, (signOperator [.le, .ge, .lt, .gt]).Reads (Operator.token .ge ++ s) .ge s :=
    fun s => reads_secondSign (avoids_cons (by decide : '>' ∉ ['<']) _) (by decide) [.lt, .gt]
  have hsign : Sign _ false additiveSigns " >= ".toList .ge :=
    sign_spaced (fun s => hreads (' ' :: s)) ⟨'>', _, rfl, by decide, by decide, by decide⟩
  exact written_pair (by decide) (fun _ => refuses_relational) hsign h h'

/-- Both forms of the sign for equality: with blanks around it and without. -/
theorem Written.eq {sign : Text} (hsign : sign = "=".toList ∨ sign = " = ".toList)
    (h : Written (Grammar.relational expr) false relationalSigns s e)
    (h' : Written (Grammar.relational expr) false relationalSigns t e') :
    Written (Grammar.equality expr) false equalitySigns (s ++ (sign ++ t)) (.binary .eq e e') := by
  have hreads : ∀ s, (signOperator [.ne, .eq]).Reads (Operator.token .eq ++ s) .eq s :=
    fun s => reads_secondSign (avoids_cons (by decide : '=' ∉ ['!']) s) (by decide) []
  refine written_pair (by decide) (fun _ => refuses_equality) ?_ h h'
  rcases hsign with rfl | rfl
  · exact sign_bare hreads ⟨'=', _, rfl, fun _ => by decide, by decide, by decide, by decide⟩
  · exact sign_spaced (fun s => hreads (' ' :: s)) ⟨'=', _, rfl, by decide, by decide, by decide⟩

/-- Conditions joined by `and` group to the left. -/
theorem written_and (h : Written (equality expr) false equalitySigns s e)
    {others : List (Text × Expr)}
    (hothers : ∀ other ∈ others, Written (equality expr) false equalitySigns other.1 other.2) :
    Written (conjunction expr) false conjunctionSigns (s ++ others.flatMap (" and ".toList ++ ·.1))
      (others.foldl (fun left other => .binary .and left other.2) e) := by
  have hsign : Sign (wordOperator .and) false equalitySigns " and ".toList .and :=
    sign_spaced (fun s => reads_wordOperator .and (isNameChar_head_blank s))
      ⟨'a', _, rfl, by decide, by decide, by decide⟩
  exact written_chain (by decide) (fun _ => refuses_conjunction) hsign h hothers

end Levels

end TreeSelect.XPath
