import Mathlib.Data.List.TakeWhile
import TreeSelect.Proofs.Text.Brackets
import TreeSelect.Proofs.XPath.Giving
import TreeSelect.Proofs.XPath.Names
import TreeSelect.XPath.Tokens

/-!
# What the rules of the grammar give

Each rule of the grammar takes a text whose brackets and quote marks close, and gives a result that
can be written again: its names are names, its numbers have digits, its strings lack one kind of
quote mark, and nothing in it is empty that the grammar wants to be there (`Readable`).

`Yields p good` says both of a parser.  There is one lemma for each combinator and one for each rule,
and `readable_of_parse` is what comes of them for a whole text.
-/

namespace TreeSelect.XPath

open TreeSelect.XPath.Parser TreeSelect.XPath.Grammar TreeSelect.XPath.Lexeme

/-! ## Expressions that can be written -/

/-- Whether a node test can be written: a name in it is one. -/
def NodeTest.IsWritten : NodeTest → Prop
  | .name expected => isName expected = true
  | _ => True

/-- Whether an expression can be written. -/
inductive Readable : Expr → Prop
  | number {value : Number} (h : ∃ s, (Token.number value).Spells s) : Readable (.number value)
  | literal {value : Text} (h : ∃ s, (Token.literal value).Spells s) : Readable (.literal value)
  | root {steps : List Step} (htests : ∀ step ∈ steps, step.test.IsWritten)
      (hpredicates : ∀ step ∈ steps, ∀ predicate ∈ step.predicates, Readable predicate) :
      Readable (.path .root steps)
  | context {steps : List Step} (hne : steps ≠ []) (htests : ∀ step ∈ steps, step.test.IsWritten)
      (hpredicates : ∀ step ∈ steps, ∀ predicate ∈ step.predicates, Readable predicate) :
      Readable (.path .context steps)
  | path {nodes : Expr} {steps : List Step} (hnodes : Readable nodes) (hne : steps ≠ [])
      (htests : ∀ step ∈ steps, step.test.IsWritten)
      (hpredicates : ∀ step ∈ steps, ∀ predicate ∈ step.predicates, Readable predicate) :
      Readable (.path (.expr nodes) steps)
  | filter {primary : Expr} {predicates : List Expr} (hprimary : Readable primary)
      (hne : predicates ≠ []) (hpredicates : ∀ predicate ∈ predicates, Readable predicate) :
      Readable (.filter primary predicates)
  | call {function : Text} {arguments : List Expr} (hname : isName function = true)
      (hkind : ∀ kind ∈ kindWords, function ≠ kind.1)
      (harguments : ∀ argument ∈ arguments, Readable argument) :
      Readable (.call function arguments)
  | binary {operator : Operator} {left right : Expr} (hleft : Readable left)
      (hright : Readable right) : Readable (.binary operator left right)
  | negate {operand : Expr} (h : Readable operand) : Readable (.negate operand)
  | union {branches : List Expr} (hlength : 2 ≤ branches.length)
      (hbranches : ∀ branch ∈ branches, Readable branch) : Readable (.union branches)

/-- Whether a step can be written. -/
def Step.IsWritten (step : Step) : Prop :=
  step.test.IsWritten ∧ ∀ predicate ∈ step.predicates, Readable predicate

/-! ## Closed beginnings -/

/-- The text `rest` is what `s` holds behind a closed beginning. -/
def Leaves (s rest : Text) : Prop := ∃ taken, Text.IsClosed taken ∧ s = taken ++ rest

theorem leaves_self (s : Text) : Leaves s s := ⟨[], Text.isClosed_nil, rfl⟩

theorem Leaves.trans {s middle rest : Text} (h : Leaves s middle) (hrest : Leaves middle rest) :
    Leaves s rest := by
  obtain ⟨taken, htaken, rfl⟩ := h
  obtain ⟨more, hmore, rfl⟩ := hrest
  exact ⟨taken ++ more, htaken.append hmore, (List.append_assoc taken more rest).symm⟩

theorem leaves_skipGap (s : Text) : Leaves s (skipGap s) := by
  refine ⟨s.takeWhile isGap, Text.isClosed_of_forall fun c hc => ?_,
    List.takeWhile_append_dropWhile.symm⟩
  have hgaps : ∀ c ∈ [' ', '\t', '\r', '\n'], c ∉ ['[', ']', '\'', '"'] := by decide
  exact hgaps c (isGap_iff.1 (List.all_eq_true.1 List.all_takeWhile c hc))

/-! ## Combinators -/

namespace Parser

variable {α β : Type} {p q : Parser α} {good : α → Prop}

/-- Where the parser begins with no gap, it takes a closed text and gives a good value. -/
def Yields (p : Parser α) (good : α → Prop) : Prop :=
  ∀ s value rest, skipGap s = s → p.Gives s value rest → Leaves s rest ∧ good value

theorem Yields.mono {better : α → Prop} (h : Yields p better) (himp : ∀ a, better a → good a) :
    Yields p good := by
  intro s value rest hs hgives
  obtain ⟨hleaves, hvalue⟩ := h s value rest hs hgives
  exact ⟨hleaves, himp value hvalue⟩

theorem Yields.bind_pure {f : α → β} {good' : β → Prop} (h : Yields p good)
    (himp : ∀ a, good a → good' (f a)) : Yields (p >>= fun a => pure (f a)) good' := by
  intro s value rest hs hgives
  obtain ⟨a, hfirst, rfl⟩ := hgives.of_bind_pure
  obtain ⟨hleaves, ha⟩ := h s a rest hs hfirst
  exact ⟨hleaves, himp a ha⟩

theorem Yields.bind_blanks {f : α → Parser β} {good' : β → Prop} (h : Yields p good)
    (hnext : ∀ a, good a → Yields (f a) good') :
    Yields (p >>= fun a => blanks >>= fun _ => f a) good' := by
  intro s value rest hs hgives
  obtain ⟨a, middle, hfirst, hlater⟩ := hgives.of_bind_blanks
  obtain ⟨hleaves, ha⟩ := h s a middle hs hfirst
  obtain ⟨hrest, hvalue⟩ := hnext a ha _ value rest (skipGap_skipGap middle) hlater
  exact ⟨(hleaves.trans (leaves_skipGap middle)).trans hrest, hvalue⟩

theorem Yields.orElse (hp : Yields p good) (hq : Yields q good) :
    Yields (Parser.orElse p q) good := by
  intro s value rest hs hgives
  rcases hgives.of_orElse with hfirst | hsecond
  · exact hp s value rest hs hfirst
  · exact hq s value rest hs hsecond

theorem yields_oneOf {parsers : List (Parser α)} (h : ∀ p ∈ parsers, Yields p good) :
    Yields (oneOf parsers) good := by
  intro s value rest hs hgives
  obtain ⟨p, hp, hgives⟩ := hgives.of_oneOf
  exact h p hp s value rest hs hgives

theorem Yields.optional (h : Yields p good) :
    Yields (Parser.optional p) fun found => ∀ a ∈ found, good a := by
  intro s found rest hs hgives
  rcases hgives.of_optional with ⟨a, rfl, hsome⟩ | ⟨rfl, rfl⟩
  · obtain ⟨hleaves, ha⟩ := h s a rest hs hsome
    refine ⟨hleaves, fun b hb => ?_⟩
    cases hb
    exact ha
  · refine ⟨leaves_self _, fun b hb => ?_⟩
    cases hb

theorem Yields.rule (h : Yields p good) : Yields (Parser.rule p) good := by
  intro s value rest hs hgives
  exact h s value rest hs hgives.of_rule

theorem yields_lexeme {scan : Text → Option (Text × Text)} (good : Text → Prop)
    (hscan : Splits scan) (hgood : ∀ s taken rest, scan s = some (taken, rest) →
      taken.IsClosed ∧ good taken) : Yields (lexeme scan) good := by
  intro s taken rest _ hgives
  have htaken := gives_lexeme hgives
  obtain ⟨hclosed, hvalue⟩ := hgood s taken rest htaken
  exact ⟨⟨taken, hclosed, hscan s taken rest htaken⟩, hvalue⟩

theorem yields_exactly {expected : Text} (h : expected.IsClosed) :
    Yields (exactly expected) fun _ => True := by
  intro s value rest _ hgives
  exact ⟨⟨expected, h, gives_exactly hgives⟩, trivial⟩

/-- A fixed text that stands for a value. -/
theorem yields_exactly_pure {expected : Text} {a : α} (h : expected.IsClosed) (ha : good a) :
    Yields (exactly expected >>= fun _ => pure a) good :=
  (yields_exactly h).bind_pure fun _ _ => ha

theorem Series.yields {s rest : Text} {values : List α} (h : Series p s values rest)
    (hp : Yields p good) : Leaves s rest ∧ ∀ a ∈ values, good a := by
  induction h with
  | done => exact ⟨leaves_self _, by simp⟩
  | @part s middle last a values hgives _ ih =>
    obtain ⟨hleaves, ha⟩ := hp _ a middle (skipGap_skipGap s) hgives
    obtain ⟨hlater, hvalues⟩ := ih
    refine ⟨((leaves_skipGap s).trans hleaves).trans hlater, ?_⟩
    intro b hb
    rcases List.mem_cons.1 hb with rfl | hb
    · exact ha
    · exact hvalues b hb

theorem Yields.many (h : Yields p good) :
    Yields (Parser.many p) fun values => ∀ a ∈ values, good a := by
  intro s values rest hs hgives
  exact (hgives.of_many hs).yields h

end Parser

/-! ## Lexemes -/

/-- Without brackets and quote marks a lexeme is closed. -/
theorem isClosed_of_isNameChar {s : Text}
    (h : ∀ c ∈ s, Lexeme.isNameChar c = true ∨ c ∈ [':', '*']) : s.IsClosed := by
  apply Text.isClosed_of_forall
  intro c hc hmem
  have hbad : ∀ c ∈ ['[', ']', '\'', '"'],
      ¬ (Lexeme.isNameChar c = true ∨ c ∈ [':', '*']) := by decide
  exact hbad c hmem (h c hc)

theorem isPlainName_of_scanPlainName {s name rest : Text}
    (h : scanPlainName s = some (name, rest)) : isPlainName name = true := by
  obtain ⟨c, t, hstart, rfl, rfl, rfl⟩ := of_scanPlainName h
  rw [isPlainName, hstart, Bool.true_and]
  exact List.all_takeWhile

theorem not_mem_colon_of_isPlainName {name : Text} (h : isPlainName name = true) : ':' ∉ name := by
  intro hmem
  have hcolon := (isPlainName_spec h).2 ':' hmem
  revert hcolon
  decide

theorem isName_of_isPlainName {name : Text} (h : isPlainName name = true) :
    isName name = true := by
  have hcut : Text.cut? ':' name = none := by
    cases hcut : Text.cut? ':' name with
    | none => rfl
    | some parts =>
      refine absurd ?_ (not_mem_colon_of_isPlainName h)
      rw [(Text.cut?_eq_some_iff.1 hcut).1]
      simp
  rw [isName, hcut]
  exact h

theorem isName_of_scanName {s name rest : Text} (h : scanName s = some (name, rest)) :
    isName name = true := by
  obtain hname | ⟨space, localName, after, hspace, hlocal, rfl⟩ := of_scanName h
  · exact isName_of_isPlainName (isPlainName_of_scanPlainName hname)
  · have hplain := isPlainName_of_scanPlainName hspace
    have hcut : Text.cut? ':' (space ++ ':' :: localName) = some (space, localName) :=
      Text.cut?_eq_some_iff.2 ⟨rfl, not_mem_colon_of_isPlainName hplain⟩
    rw [isName, hcut]
    simp only [hplain, isPlainName_of_scanPlainName hlocal, Bool.and_self]

theorem isClosed_of_isName {name : Text} (h : isName name = true) : name.IsClosed := by
  apply isClosed_of_isNameChar
  intro c hc
  refine (chars_of_isName h c hc).imp_right fun hcolon => ?_
  rw [hcolon]
  exact List.mem_cons_self

theorem yields_scanName : Yields (token scanName) fun name => isName name = true := by
  refine (yields_lexeme _ splits_scanName fun s name rest h => ?_).rule
  have hname := isName_of_scanName h
  exact ⟨isClosed_of_isName hname, hname⟩

theorem yields_scanNameTest : Yields (token scanNameTest) fun name => isNameTest name = true := by
  refine (yields_lexeme _ splits_scanNameTest fun s name rest h => ?_).rule
  obtain ⟨rfl, rfl⟩ | hscan := of_scanNameTest h
  · decide
  · have hname := isName_of_scanName hscan
    refine ⟨isClosed_of_isName hname, ?_⟩
    rw [isNameTest, hname, Bool.or_true]

theorem yields_number : Yields number Readable := by
  refine (Yields.rule (yields_lexeme (fun digits => scanNumber digits = some (digits, []))
    splits_scanNumber fun s digits rest h => ?_)).bind_pure fun digits hdigits => ?_
  · have hdecimal := (of_scanNumber h).1
    have hagain : scanNumber (digits ++ []) = some (digits, []) :=
      hdecimal.scanNumber_append (by simp)
    rw [List.append_nil] at hagain
    refine ⟨isClosed_of_isNameChar fun c hc => .inl ?_, hagain⟩
    rcases hdecimal.chars c hc with hdigit | rfl
    · exact isNameChar_of_isDigit hdigit
    · decide
  · exact .number ⟨digits, hdigits, rfl⟩

theorem yields_literal : Yields literal Readable := by
  refine (Yields.rule (yields_lexeme
    (fun quoted => (Token.literal (quoted.drop 1).dropLast).Spells quoted)
    splits_scanString fun s quoted rest h => ?_)).bind_pure fun quoted h => .literal ⟨quoted, h⟩
  obtain ⟨mark, inside, hmark, hinside, rfl, -⟩ := scanString_eq_some_iff.1 h
  refine ⟨Text.isClosed_quoted hmark.symm hinside, ?_⟩
  rw [inside_quoted]
  exact ⟨mark, hmark, hinside, rfl⟩

/-! ## Steps -/

theorem yields_axisSpecifier : Yields axisSpecifier fun _ => True := by
  have hname : Yields axisName fun _ => True := by
    refine Yields.rule (yields_oneOf fun p hp => ?_)
    obtain ⟨axis, -, rfl⟩ := List.mem_map.1 hp
    have hclosed : axis.name.IsClosed := by
      cases axis <;> decide
    exact yields_exactly_pure hclosed trivial
  exact ((yields_exactly_pure (by decide) trivial).rule.orElse
    (hname.bind_blanks fun axis _ => yields_exactly_pure (by decide) trivial)).rule

theorem yields_nodeTest : Yields nodeTest NodeTest.IsWritten := by
  have htype : Yields nodeType NodeTest.IsWritten := by
    refine Yields.rule (yields_oneOf fun p hp => ?_)
    simp only [List.mem_cons, List.not_mem_nil, or_false] at hp
    rcases hp with rfl | rfl | rfl <;> exact yields_exactly_pure (by decide) trivial
  have hkind : Yields kindTest NodeTest.IsWritten := by
    refine (htype.bind_blanks fun test htest => ?_).rule
    exact (yields_exactly (by decide)).bind_blanks fun _ _ => yields_exactly_pure (by decide) htest
  refine (hkind.orElse (yields_scanNameTest.bind_pure fun name hname => ?_)).rule
  rcases isNameTest_spec hname with rfl | hname
  · exact trivial
  · split
    · exact trivial
    · exact hname

variable {inner : Parser Expr}

/-- A predicate takes its brackets, which close. -/
theorem predicate_of_gives (h : Yields inner Readable) {s rest : Text} {value : Expr}
    (hgives : (predicate inner).Gives s value rest) :
    (∃ taken, Text.IsClosed taken ∧ s = '[' :: (taken ++ ']' :: rest)) ∧ Readable value := by
  obtain ⟨_, middle, hopen, hgives⟩ := hgives.of_rule.of_bind_blanks
  obtain ⟨condition, last, hcondition, hgives⟩ := hgives.of_bind_blanks
  obtain ⟨_, hclose, rfl⟩ := hgives.of_bind_pure
  obtain ⟨hleaves, hvalue⟩ := h _ _ _ (skipGap_skipGap middle) hcondition
  obtain ⟨taken, htaken, hmiddle⟩ :=
    ((leaves_skipGap middle).trans hleaves).trans (leaves_skipGap last)
  refine ⟨⟨taken, htaken, ?_⟩, hvalue⟩
  rw [gives_exactly hopen, hmiddle, gives_exactly hclose]
  rfl

theorem yields_predicate (h : Yields inner Readable) :
    Yields (predicate inner) Readable := by
  intro s value rest _ hgives
  obtain ⟨⟨taken, htaken, rfl⟩, hvalue⟩ := predicate_of_gives h hgives
  exact ⟨⟨'[' :: taken ++ [']'], htaken.brackets, by simp⟩, hvalue⟩

theorem yields_axisStep (h : Yields inner Readable) :
    Yields (axisStep inner) Step.IsWritten := by
  refine (yields_axisSpecifier.optional.bind_blanks fun axis _ => ?_).rule
  refine yields_nodeTest.bind_blanks fun test htest => ?_
  exact (yields_predicate h).many.bind_pure fun predicates hpredicates => ⟨htest, hpredicates⟩

theorem yields_step (h : Yields inner Readable) : Yields (step inner) Step.IsWritten := by
  refine Yields.rule (yields_oneOf fun p hp => ?_)
  have hwritten (axis : Axis) : Step.IsWritten (.mk axis .node []) :=
    ⟨trivial, by simp [Step.predicates]⟩
  simp only [List.mem_cons, List.not_mem_nil, or_false] at hp
  rcases hp with rfl | rfl | rfl
  · exact (yields_exactly_pure (by decide) (hwritten _)).rule
  · exact (yields_exactly_pure (by decide) (hwritten _)).rule
  · exact yields_axisStep h

/-! ## Paths -/

/-- Whether there are steps and all of them can be written. -/
def AreSteps (steps : List Step) : Prop := steps ≠ [] ∧ ∀ step ∈ steps, step.IsWritten

theorem isWritten_descendantOrSelf : Step.descendantOrSelf.IsWritten :=
  ⟨trivial, by simp [Step.descendantOrSelf, Step.predicates]⟩

theorem yields_pathSeparator :
    Yields pathSeparator fun steps => ∀ step ∈ steps, step.IsWritten := by
  refine (Yields.rule (yields_lexeme (fun _ => True) (splits_scanFirst _)
    fun s taken rest h => ⟨?_, trivial⟩)).bind_pure fun sign _ => ?_
  · obtain ⟨choice, hchoice, hscan⟩ := List.exists_of_findSome?_eq_some h
    have hclosed : ∀ sign ∈ ["//".toList, "/".toList], Text.IsClosed sign := by decide
    rw [(scanText_eq_some_iff.1 hscan).1]
    exact hclosed choice hchoice
  · intro step hstep
    split at hstep
    · rw [List.mem_singleton.1 hstep]
      exact isWritten_descendantOrSelf
    · cases hstep

theorem yields_relativePath (h : Yields inner Readable) :
    Yields (relativePath inner) AreSteps := by
  have hpart : Yields (do
      let skipped ← pathSeparator
      blanks
      let next ← step inner
      return skipped ++ [next]) fun steps => ∀ step ∈ steps, step.IsWritten := by
    refine yields_pathSeparator.bind_blanks fun skipped hskipped => ?_
    refine (yields_step h).bind_pure fun next hnext => ?_
    intro step hstep
    rcases List.mem_append.1 hstep with hstep | hstep
    · exact hskipped step hstep
    · rw [List.mem_singleton.1 hstep]
      exact hnext
  refine ((yields_step h).bind_blanks fun first hfirst => ?_).rule
  refine hpart.many.bind_pure fun others hothers => ⟨List.cons_ne_nil _ _, ?_⟩
  intro step hstep
  rcases List.mem_cons.1 hstep with rfl | hstep
  · exact hfirst
  · obtain ⟨steps, hsteps, hstep⟩ := List.mem_flatten.1 hstep
    exact hothers steps hsteps step hstep

theorem yields_locationPath (h : Yields inner Readable) :
    Yields (locationPath inner) Readable := by
  have hlong : Yields (do
      let _ ← rule (exactly "//".toList)
      blanks
      let steps ← relativePath inner
      return .path .root (.descendantOrSelf :: steps) : Parser Expr) Readable := by
    refine Yields.bind_blanks (yields_exactly (by decide)).rule fun _ _ => ?_
    refine (yields_relativePath h).bind_pure fun steps hsteps => ?_
    have hall : ∀ step ∈ Step.descendantOrSelf :: steps, step.IsWritten := by
      intro step hstep
      rcases List.mem_cons.1 hstep with rfl | hstep
      · exact isWritten_descendantOrSelf
      · exact hsteps.2 step hstep
    exact .root (fun step hstep => (hall step hstep).1) fun step hstep => (hall step hstep).2
  have hshort : Yields (do
      let _ ← rule (exactly "/".toList)
      blanks
      let steps ← optional (relativePath inner)
      return .path .root (steps.getD []) : Parser Expr) Readable := by
    refine Yields.bind_blanks (yields_exactly (by decide)).rule fun _ _ => ?_
    refine (yields_relativePath h).optional.bind_pure fun found hfound => ?_
    cases found with
    | none => exact .root (by simp) (by simp)
    | some steps =>
      obtain ⟨-, hsteps⟩ := hfound steps rfl
      exact .root (fun step hstep => (hsteps step hstep).1) fun step hstep => (hsteps step hstep).2
  refine ((hlong.orElse hshort).rule.orElse ?_).rule
  refine (yields_relativePath h).bind_pure fun steps hsteps => ?_
  exact .context hsteps.1 (fun step hstep => (hsteps.2 step hstep).1)
    fun step hstep => (hsteps.2 step hstep).2

/-! ## Primary expressions -/

theorem yields_arguments (h : Yields inner Readable) :
    Yields (arguments inner) fun values => ∀ value ∈ values, Readable value := by
  have hpart : Yields (do
      let _ ← exactly ",".toList
      blanks
      inner) Readable :=
    (yields_exactly (by decide)).bind_blanks fun _ _ => h
  refine h.bind_blanks fun first hfirst => hpart.many.bind_pure fun others hothers => ?_
  intro value hvalue
  rcases List.mem_cons.1 hvalue with rfl | hvalue
  · exact hfirst
  · exact hothers value hvalue

/-- The parentheses of a call with its arguments. -/
theorem yields_callArguments (h : Yields inner Readable) (name : Text) :
    Yields (do
      let _ ← exactly "(".toList
      blanks
      let values ← optional (arguments inner)
      blanks
      let _ ← exactly ")".toList
      return .call name (values.getD []) : Parser Expr)
      fun value => ∃ values, value = .call name values ∧ ∀ value ∈ values, Readable value := by
  have hclose (values : Option (List Expr)) :
      Yields (exactly ")".toList >>= fun _ => (pure (.call name (values.getD [])) : Parser Expr))
        (· = .call name (values.getD [])) :=
    yields_exactly_pure (by decide) rfl
  refine (yields_exactly (by decide)).bind_blanks fun _ _ => ?_
  refine (yields_arguments h).optional.bind_blanks fun found hfound => ?_
  refine (hclose found).mono fun value hvalue => ⟨found.getD [], hvalue, ?_⟩
  cases found with
  | none => simp
  | some values => exact hfound values rfl

/-- The name of a call is none of the words for the kinds of nodes, since the lookahead before it
would have taken the word and the bracket. -/
theorem yields_functionCall (h : Yields inner Readable) :
    Yields (functionCall inner) Readable := by
  intro s value rest hs hgives
  obtain ⟨_, after, hlook, hcall⟩ := hgives.of_rule.of_bind_blanks
  obtain ⟨rfl, hnone⟩ := hlook.of_absent
  rw [hs] at hcall
  obtain ⟨name, behind, hname, hrest⟩ := hcall.of_bind_blanks
  obtain ⟨hleaves, hisName⟩ := yields_scanName after name behind hs hname
  obtain ⟨hlast, values, rfl, hvalues⟩ :=
    yields_callArguments h name _ value rest (skipGap_skipGap behind) hrest
  refine ⟨(hleaves.trans (leaves_skipGap behind)).trans hlast, .call hisName ?_ hvalues⟩
  intro kind hkind hcase
  obtain ⟨_, inside, hopen, -⟩ := hrest.of_bind
  have hword := splits_scanName _ _ _ (gives_lexeme hname.of_rule)
  rw [hcase] at hword
  have hbracket : (do blanks; exactly "(".toList : Parser Text).Reads behind "(".toList inside := by
    have hblanks := reads_blanks behind
    rw [gives_exactly hopen] at hblanks
    exact hblanks.bind (reads_exactly "(".toList inside)
  have hkindReads : (do
      let _ ← nodeType
      blanks
      exactly "(".toList : Parser Text).Reads (kind.1 ++ behind) "(".toList inside :=
    (reads_nodeType hkind behind).bind hbracket
  rw [← hword] at hkindReads
  exact hnone _ _ hkindReads

theorem yields_primary (h : Yields inner Readable) : Yields (primary inner) Readable := by
  refine Yields.rule (yields_oneOf fun p hp => ?_)
  simp only [List.mem_cons, List.not_mem_nil, or_false] at hp
  rcases hp with rfl | rfl | rfl | rfl
  · refine (yields_exactly (by decide)).bind_blanks fun _ _ => ?_
    exact h.bind_blanks fun value hvalue => yields_exactly_pure (by decide) hvalue
  · exact yields_literal
  · exact yields_number
  · exact yields_functionCall h

/-! ## Operands -/

theorem yields_pathExpr (h : Yields inner Readable) : Yields (pathExpr inner) Readable := by
  have hfilter : Yields (filterExpr inner) Readable := by
    refine ((yields_primary h).bind_blanks fun inner hinner => ?_).rule
    refine (yields_predicate h).many.bind_pure fun predicates hpredicates => ?_
    split
    case isTrue => exact hinner
    case isFalse hne => exact .filter hinner (fun hnil => hne (List.isEmpty_iff.2 hnil)) hpredicates
  have hsteps : Yields (do
      let skipped ← pathSeparator
      blanks
      let steps ← relativePath inner
      return skipped ++ steps) AreSteps := by
    refine yields_pathSeparator.bind_blanks fun skipped hskipped => ?_
    refine (yields_relativePath h).bind_pure fun steps hsteps => ?_
    refine ⟨List.append_ne_nil_of_right_ne_nil skipped hsteps.1, fun step hstep => ?_⟩
    rcases List.mem_append.1 hstep with hstep | hstep
    · exact hskipped step hstep
    · exact hsteps.2 step hstep
  have hpath : Yields (filterPath inner) Readable := by
    refine (hfilter.bind_blanks fun base hbase => ?_).rule
    refine hsteps.optional.bind_pure fun found hfound => ?_
    cases found with
    | none => exact hbase
    | some steps =>
      obtain ⟨hne, hwritten⟩ := hfound steps rfl
      exact .path hbase hne (fun step hstep => (hwritten step hstep).1)
        fun step hstep => (hwritten step hstep).2
  exact (hpath.orElse (yields_locationPath h)).rule

theorem yields_unaryExpr (h : Yields inner Readable) :
    Yields (unaryExpr inner) Readable := by
  have hpart : Yields (do
      let _ ← exactly "|".toList
      blanks
      pathExpr inner) Readable :=
    (yields_exactly (by decide)).bind_blanks fun _ _ => yields_pathExpr h
  have hunion : Yields (unionExpr inner) Readable := by
    refine ((yields_pathExpr h).bind_blanks fun first hfirst => ?_).rule
    refine hpart.many.bind_pure fun others hothers => ?_
    split
    case isTrue => exact hfirst
    case isFalse hne =>
      refine .union ?_ fun branch hbranch => ?_
      · obtain ⟨other, others, rfl⟩ :=
          List.exists_cons_of_ne_nil fun hnil => hne (List.isEmpty_iff.2 hnil)
        simp
      · rcases List.mem_cons.1 hbranch with rfl | hbranch
        · exact hfirst
        · exact hothers branch hbranch
  refine Yields.rule (Yields.bind_blanks (yields_exactly (by decide)).rule.many fun signs _ => ?_)
  refine hunion.bind_pure fun operand hoperand => ?_
  induction signs generalizing operand with
  | nil => exact hoperand
  | cons sign signs ih =>
    exact ih (fun _ _ => trivial) (.negate operand) (.negate hoperand)

theorem yields_chain {operand : Parser Expr} {operator : Parser Operator}
    (h : Yields operand Readable) (hoperator : Yields operator fun _ => True) :
    Yields (chain operand operator) Readable := by
  have hpart : Yields (do
      let operator ← operator
      blanks
      let right ← operand
      return (operator, right)) fun part => Readable part.2 :=
    hoperator.bind_blanks fun operator _ => h.bind_pure fun right hright => hright
  refine (h.bind_blanks fun first hfirst => ?_).rule
  refine hpart.many.bind_pure fun others hothers => ?_
  induction others generalizing first with
  | nil => exact hfirst
  | cons other others ih =>
    exact ih (.binary other.1 first other.2) (.binary hfirst (hothers other List.mem_cons_self))
      fun part hpart => hothers part (List.mem_cons_of_mem other hpart)

/-! ## Expressions -/

theorem yields_signOperator (operators : List Operator) :
    Yields (signOperator operators) fun _ => True := by
  refine Yields.rule (yields_oneOf fun p hp => ?_)
  obtain ⟨operator, -, rfl⟩ := List.mem_map.1 hp
  have hclosed : operator.token.IsClosed := by
    cases operator <;> decide
  exact yields_exactly_pure hclosed trivial

theorem yields_wordOperator (operator : Operator) :
    Yields (wordOperator operator) fun _ => True := by
  refine (Yields.rule (yields_lexeme (fun _ => True) (splits_scanWord _)
    fun s taken rest h => ⟨?_, trivial⟩)).bind_pure fun _ _ => trivial
  have hclosed : operator.token.IsClosed := by
    cases operator <;> decide
  obtain ⟨rfl, -, -⟩ := scanWord_eq_some_iff.1 h
  exact hclosed

theorem yields_disjunction (h : Yields inner Readable) : Yields (disjunction inner) Readable := by
  have hmultiplicative : Yields (multiplicative inner) Readable :=
    yields_chain (yields_unaryExpr h) ((yields_wordOperator .div).orElse (yields_wordOperator .mod))
  have hadditive : Yields (additive inner) Readable :=
    yields_chain hmultiplicative (yields_signOperator _)
  have hrelational : Yields (relational inner) Readable :=
    yields_chain hadditive (yields_signOperator _)
  have hequality : Yields (equality inner) Readable :=
    yields_chain hrelational (yields_signOperator _)
  have hconjunction : Yields (conjunction inner) Readable :=
    yields_chain hequality (yields_wordOperator .and)
  exact yields_chain hconjunction (yields_wordOperator .or)

theorem yields_exprAt (depth : Nat) : Yields (exprAt depth) Readable := by
  induction depth with
  | zero =>
    intro s value rest _ hgives
    obtain ⟨offset, next, furthest, hgives⟩ := hgives
    cases hgives
  | succ depth ih => exact (yields_disjunction ih).rule

theorem gives_atEnd {s rest : Text} {u : Unit} (h : atEnd.Gives s u rest) : s = [] := by
  obtain ⟨offset, next, furthest, h⟩ := h.of_rule
  have hresult := congrArg Outcome.result h
  simp only at hresult
  split at hresult
  case isTrue hempty => exact List.isEmpty_iff.1 hempty
  case isFalse => cases hresult

theorem Parser.Gives.of_whole {s rest : Text} {e : Expr} (h : (whole inner).Gives s e rest) :
    ∃ left, inner.Gives (skipGap s) e left ∧ skipGap left = [] := by
  obtain ⟨_, _, hblanks, h⟩ := h.of_rule.of_bind
  rw [gives_blanks hblanks] at h
  obtain ⟨value, left, hvalue, h⟩ := h.of_bind_blanks
  obtain ⟨_, hend, rfl⟩ := h.of_bind_pure
  exact ⟨left, hvalue, gives_atEnd hend⟩

/-- A text that is an expression is one that the rule for expressions takes, but for the gaps around
it; the expressions in its brackets are limited in their depth. -/
theorem gives_of_parse {s : Text} {e : Expr} (h : parse s = .ok e) :
    ∃ inner : Parser Expr, Yields inner Readable ∧
      ∃ rest, (disjunction inner).Gives (skipGap s) e rest ∧ skipGap rest = [] := by
  have hwhole : ∃ depth rest, (whole (exprAt depth)).Gives s e rest := by
    refine ⟨s.length + 1, ?_⟩
    unfold parse at h
    generalize whole (exprAt (s.length + 1)) = parser at h ⊢
    cases houtcome : parser ⟨0, s⟩ with
    | mk result furthest =>
      simp only [houtcome] at h
      cases result with
      | none => cases h
      | some taken =>
        cases h
        exact ⟨taken.2.rest, 0, taken.2.offset, furthest, houtcome⟩
  obtain ⟨depth, last, hgives⟩ := hwhole
  obtain ⟨rest, hexpr, hrest⟩ := hgives.of_whole
  cases depth with
  | zero =>
    obtain ⟨offset, next, furthest, hnone⟩ := hexpr
    cases hnone
  | succ depth => exact ⟨exprAt depth, yields_exprAt depth, rest, Gives.of_rule hexpr, hrest⟩

/-- What can be read can be written. -/
theorem readable_of_parse {s : Text} {e : Expr} (h : parse s = .ok e) : Readable e := by
  obtain ⟨inner, hinner, rest, hgives, -⟩ := gives_of_parse h
  exact (yields_disjunction hinner _ e rest (skipGap_skipGap s) hgives).2

end TreeSelect.XPath
