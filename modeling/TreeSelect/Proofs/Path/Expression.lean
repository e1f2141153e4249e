import TreeSelect.Path.Basic
import TreeSelect.Proofs.Text.Pieces
import TreeSelect.Proofs.XPath.Operands

/-!
# The expression that a path writes

Each part of a path is written for an expression that it is to be read as: `Position.expr`,
`Predicate.expr`, `Step.expr` and `Path.expr` say which.  `parse_text` is the main theorem: the text
of a path is read as exactly that expression.

* Names and digits come into the text as they are, so that they have to be names and digits
  (`isReadable`).
* Values of attributes may be any text.  They come into the text as string literals or as a `concat`
  of string literals, and nothing of them is read as anything else.
-/

namespace TreeSelect

open TreeSelect.XPath TreeSelect.XPath.Parser TreeSelect.XPath.Grammar

/-! ## Strings -/

/-- The expression that `Text.literal` writes: a string, or the pieces of the text and the quote
marks between them. -/
def Text.literalExpr (s : Text) : Expr :=
  if '\'' ∈ s ∧ '"' ∈ s then
    .call "concat".toList (((s.split '\'').map Expr.literal).intersperse (.literal ['\'']))
  else .literal s

theorem Text.written_singleQuoted {s : Text} (h : '\'' ∉ s) :
    Written expr false disjunctionSigns s.singleQuoted (.literal s) :=
  (written_string (.inr rfl) h).operand.expression.opened

/-- The single quote between double quotes. -/
theorem written_quoteMark :
    Written expr false disjunctionSigns "\"'\"".toList (.literal ['\'']) :=
  (written_string (.inl rfl) (by decide : '"' ∉ ['\''])).operand.expression.opened

/-- The pieces of a text between single quotes, and the quote marks between the pieces, are
arguments. -/
theorem Text.written_pieces {pieces : List Text} (hne : pieces ≠ [])
    (hpieces : ∀ piece ∈ pieces, '\'' ∉ piece) :
    Written (arguments expr) false argumentSigns
      (", \"'\", ".toList.intercalate (pieces.map singleQuoted))
      ((pieces.map Expr.literal).intersperse (.literal ['\''])) := by
  obtain ⟨first, others, rfl⟩ := List.exists_cons_of_ne_nil hne
  have hothers : ∀ other ∈ others.flatMap fun piece =>
      [("\"'\"".toList, Expr.literal ['\'']), (piece.singleQuoted, .literal piece)],
      Written expr false disjunctionSigns other.1 other.2 := by
    intro other hother
    obtain ⟨piece, hpiece, hmem⟩ := List.mem_flatMap.1 hother
    simp only [List.mem_cons, List.not_mem_nil, or_false] at hmem
    rcases hmem with rfl | rfl
    · exact written_quoteMark
    · exact written_singleQuoted (hpieces piece (List.mem_cons_of_mem first hpiece))
  have hfirst := written_singleQuoted (hpieces first List.mem_cons_self)
  have harguments := written_arguments hfirst hothers
  have htext : (others.flatMap fun piece =>
      [("\"'\"".toList, Expr.literal ['\'']), (piece.singleQuoted, .literal piece)]).flatMap
        (", ".toList ++ ·.1) =
      (others.map singleQuoted).flatMap (", \"'\", ".toList ++ ·) := by
    rw [List.flatMap_assoc, List.flatMap_map]
    refine congrArg (List.flatMap · others) (funext fun piece => ?_)
    rw [List.flatMap_cons, List.flatMap_cons, List.flatMap_nil, List.append_nil]
    rfl
  have hvalues : (others.flatMap fun piece =>
      [("\"'\"".toList, Expr.literal ['\'']), (piece.singleQuoted, .literal piece)]).map (·.2) =
      (others.map Expr.literal).flatMap fun other => [.literal ['\''], other] := by
    rw [List.map_flatMap, List.flatMap_map]
    rfl
  rw [htext, hvalues] at harguments
  rw [List.map_cons, List.map_cons, intercalate_cons, intersperse_cons]
  exact harguments

/-- Every text is written as an operand, whatever quote marks it holds. -/
theorem Text.written_literal (s : Text) :
    Written (pathExpr expr) true pathSigns s.literal s.literalExpr := by
  by_cases hsingle : '\'' ∈ s
  · by_cases hdouble : '"' ∈ s
    · have hpieces := written_pieces (splitWhere_ne_nil (· == '\'') s) fun _ hpiece =>
        not_mem_of_mem_split hpiece
      have hconcat : ∀ kind ∈ kindWords,
          ¬ kind.1 <+: "concat".toList ∧ ¬ "concat".toList <+: kind.1 := by decide
      rw [Text.literal, if_neg (by simpa using hsingle), if_neg (by simpa using hdouble),
        Text.literalExpr, if_pos ⟨hsingle, hdouble⟩]
      exact (written_call (by decide) hconcat (.some hpieces)).operand
    · rw [Text.literal, if_neg (by simpa using hsingle), if_pos hdouble, Text.literalExpr,
        if_neg (fun h => hdouble h.2)]
      exact (written_string (.inl rfl) hdouble).operand
  · rw [Text.literal, if_pos hsingle, Text.literalExpr, if_neg (fun h => hsingle h.1)]
    exact (written_string (.inr rfl) hsingle).operand

/-! ## Positions -/

/-- The number that digits write. -/
def digitsExpr (digits : Text) : Expr := .number (Number.ofDigits digits [])

/-- The position of the context node. -/
def positionExpr : Expr := .call "position".toList []

/-- A number counted from some position on is a multiple of another, and the position is not below
a bound. -/
def recurringExpr (counted : Expr) (multiple bound : Text) : Expr :=
  .binary .and (.binary .eq (.binary .mod counted (digitsExpr multiple)) (digitsExpr ['0']))
    (.binary .ge positionExpr (digitsExpr bound))

/-- The condition that a position writes.  One that the caller wrote is whatever it is read as. -/
def Position.expr : Position → Expr
  | .first => digitsExpr ['1']
  | .last => .call "last".toList []
  | .odd => recurringExpr (.binary .sub positionExpr (digitsExpr ['1'])) ['2'] ['1']
  | .even => recurringExpr positionExpr ['2'] ['0']
  | .index n => .binary .eq positionExpr (digitsExpr n)
  | .cycle multiple offset =>
    recurringExpr (.binary .sub positionExpr (digitsExpr offset)) multiple offset
  | .raw condition => (XPath.parse condition).toOption.getD default

/-- Whether a text is a number without a sign and a point. -/
def Text.isDigits (s : Text) : Bool := !s.isEmpty && s.all Char.isDigit

/-- Whether the numbers of a position are digits.  A condition that the caller wrote may be
anything. -/
def Position.isReadable : Position → Bool
  | .index n => n.isDigits
  | .cycle multiple offset => multiple.isDigits && offset.isDigits
  | .raw _ => false
  | _ => true

theorem written_digitsExpr {digits : Text} (h : digits.isDigits = true) :
    Written (pathExpr expr) false pathSigns digits (digitsExpr digits) := by
  rw [Text.isDigits, Bool.and_eq_true, List.all_eq_true] at h
  have hne : digits ≠ [] := by simpa using h.1
  exact (written_digits hne h.2).operand

/-- A call without arguments of a function that is no word for a kind of nodes. -/
theorem written_plainCall {name : Text} (hname : Lexeme.isName name = true)
    (hkind : ∀ kind ∈ kindWords, ¬ kind.1 <+: name ∧ ¬ name <+: kind.1) :
    Written (pathExpr expr) true pathSigns (name ++ "()".toList) (.call name []) :=
  (written_call hname hkind .none).operand

theorem written_positionExpr :
    Written (pathExpr expr) true pathSigns "position()".toList positionExpr :=
  written_plainCall (by decide : Lexeme.isName "position".toList = true) (by decide)

theorem written_recurringExpr {counted multiple bound : Text} {e : Expr}
    (hcounted : Written (pathExpr expr) false pathSigns counted e)
    (hmultiple : multiple.isDigits = true) (hbound : bound.isDigits = true) :
    Written expr false disjunctionSigns
      (counted ++ (" mod ".toList ++ multiple) ++
        (" = 0 and position() >= ".toList ++ bound)) (recurringExpr e multiple bound) := by
  have hremainder := hcounted.union.unary.mod (written_digitsExpr hmultiple).union.unary
  have hzero := written_digitsExpr (by decide : Text.isDigits ['0'] = true)
  have hequation := hremainder.additive.relational.eq (.inr rfl)
    hzero.union.unary.multiplicative.additive.relational
  have hlower := written_positionExpr.opened.union.unary.multiplicative.additive.ge
    (written_digitsExpr hbound).union.unary.multiplicative.additive
  have hothers : ∀ other ∈ [("position()".toList ++ (" >= ".toList ++ bound),
      Expr.binary .ge positionExpr (digitsExpr bound))],
      Written (equality expr) false equalitySigns other.1 other.2 := by
    intro other hother
    rw [List.mem_singleton.1 hother]
    exact hlower.equality
  have hboth := (written_and hequation hothers).disjunction
  have hsign : " = 0 and position() >= ".toList =
      " = ".toList ++ ['0'] ++ (" and ".toList ++ ("position()".toList ++ " >= ".toList)) := by
    decide
  rw [List.flatMap_cons, List.flatMap_nil, List.append_nil] at hboth
  rw [hsign]
  simp only [List.append_assoc] at hboth ⊢
  exact hboth

/-- The positions from an offset on, with a step between them. -/
theorem written_cycle {multiple offset : Text} (hmultiple : multiple.isDigits = true)
    (hoffset : offset.isDigits = true) :
    Written expr false disjunctionSigns (Position.text (.cycle multiple offset))
      (Position.expr (.cycle multiple offset)) := by
  have hdifference := written_positionExpr.union.unary.multiplicative.sub
    (written_digitsExpr hoffset).union.unary.multiplicative
  have hparentheses := (written_parentheses
    hdifference.relational.equality.conjunction.disjunction).operand.opened
  have hwritten := written_recurringExpr hparentheses hmultiple hoffset
  have hopen : "(position()-".toList = '(' :: ("position()".toList ++ "-".toList) := by decide
  have hclose : ") mod ".toList = [')'] ++ " mod ".toList := by decide
  show Written expr false disjunctionSigns
    ("(position()-".toList ++ offset ++ ") mod ".toList ++ multiple ++
      " = 0 and position() >= ".toList ++ offset) _
  rw [hopen, hclose]
  simp only [List.append_assoc, List.cons_append] at hwritten ⊢
  exact hwritten

/-- A position is written as a condition. -/
theorem Position.written {position : Position} (h : position.isReadable = true) :
    Written Grammar.expr false disjunctionSigns position.text position.expr := by
  have hone : Text.isDigits ['1'] = true := by decide
  have htwo : Text.isDigits ['2'] = true := by decide
  have hzero : Text.isDigits ['0'] = true := by decide
  cases position with
  | first => exact (written_digitsExpr hone).expression
  | last =>
    exact (written_plainCall (by decide : Lexeme.isName "last".toList = true)
      (by decide)).expression.opened
  | odd => exact written_cycle htwo hone
  | even => exact written_recurringExpr written_positionExpr.opened htwo hzero
  | index n =>
    have hequation := written_positionExpr.opened.union.unary.multiplicative.additive.relational.eq
      (.inr rfl) (written_digitsExpr h).union.unary.multiplicative.additive.relational
    exact hequation.conjunction.disjunction
  | cycle multiple offset =>
    rw [isReadable, Bool.and_eq_true] at h
    exact written_cycle h.1 h.2
  | raw condition => cases h

namespace Path

/-! ## Predicates -/

/-- The attributes with a name. -/
def attributeExpr (name : Text) : Expr := .path .context [.mk .attribute (.name name) []]

/-- The words of the attribute `class` between single blanks, and a blank at each end. -/
def classWordsExpr : Expr :=
  .call "concat".toList [
    .literal [' '],
    .call "normalize-space".toList [attributeExpr "class".toList],
    .literal [' ']]

/-- The condition that a predicate writes. -/
def Predicate.expr : Predicate → Expr
  | .id value => .binary .eq (attributeExpr "id".toList) value.literalExpr
  | .attribute name none => attributeExpr name
  | .attribute name (some value) => .binary .eq (attributeExpr name) value.literalExpr
  | .hasClass name => .call "contains".toList [classWordsExpr, .literal (' ' :: name ++ [' '])]
  | .position condition => condition.expr

/-- Whether what a predicate puts into the text as it is can stand there.  The values of an id and
of an attribute may be any text. -/
def Predicate.isReadable : Predicate → Bool
  | .id _ => true
  | .attribute name _ => Lexeme.isName name
  | .hasClass name => '\'' ∉ name
  | .position condition => condition.isReadable

theorem written_attributeExpr {name : Text} (h : Lexeme.isName name = true) :
    Written (pathExpr expr) false pathSigns ('@' :: name) (attributeExpr name) := by
  have htest : Lexeme.isNameTest name = true := by simp [Lexeme.isNameTest, h]
  have hstep := written_attributeStep htest
  rw [NodeTest.ofName_of_isName h] at hstep
  exact written_contextPath (.sign name) (fun rest => avoids_cons (by decide) _)
    hstep.oneStep

/-- An attribute and a value, whatever the value is. -/
theorem written_attributeEq {name : Text} (h : Lexeme.isName name = true) (value : Text) :
    Written expr false disjunctionSigns ('@' :: name ++ '=' :: value.literal)
      (.binary .eq (attributeExpr name) value.literalExpr) := by
  have hvalue := (Text.written_literal value).opened
  have hequation := (written_attributeExpr h).union.unary.multiplicative.additive.relational.eq
    (.inl rfl) hvalue.union.unary.multiplicative.additive.relational
  exact hequation.conjunction.disjunction

theorem written_classWordsExpr :
    Written expr false disjunctionSigns "concat(' ', normalize-space(@class), ' ')".toList
      classWordsExpr := by
  have hspace : Written expr false disjunctionSigns "' '".toList (.literal [' ']) :=
    Text.written_singleQuoted (by decide : '\'' ∉ [' '])
  have hclass :
      Written expr false disjunctionSigns "@class".toList (attributeExpr "class".toList) :=
    (written_attributeExpr (by decide : Lexeme.isName "class".toList = true)).expression
  have hwords : Written (primary expr) true [] "normalize-space(@class)".toList
      (.call "normalize-space".toList [attributeExpr "class".toList]) :=
    written_call (by decide : Lexeme.isName "normalize-space".toList = true) (by decide)
      (.some hclass.argument)
  have hothers : ∀ other ∈ [("normalize-space(@class)".toList,
      Expr.call "normalize-space".toList [attributeExpr "class".toList]),
      ("' '".toList, .literal [' '])],
      Written expr false disjunctionSigns other.1 other.2 := by
    intro other hother
    simp only [List.mem_cons, List.not_mem_nil, or_false] at hother
    rcases hother with rfl | rfl
    · exact hwords.operand.expression.opened
    · exact hspace
  have hconcat : Written (primary expr) true []
      "concat(' ', normalize-space(@class), ' ')".toList classWordsExpr :=
    written_call (by decide : Lexeme.isName "concat".toList = true) (by decide)
      (.some (written_arguments hspace hothers))
  exact hconcat.operand.expression.opened

/-- The condition on a class: it is among the words of the attribute. -/
theorem written_hasClass {name : Text} (h : '\'' ∉ name) :
    Written expr false disjunctionSigns (Predicate.text (.hasClass name))
      (.call "contains".toList [classWordsExpr, .literal (' ' :: name ++ [' '])]) := by
  have hname : '\'' ∉ ' ' :: name ++ [' '] := by simp [h]
  have hothers : ∀ other ∈ [(Text.singleQuoted (' ' :: name ++ [' ']),
      Expr.literal (' ' :: name ++ [' ']))],
      Written expr false disjunctionSigns other.1 other.2 := by
    intro other hother
    rw [List.mem_singleton.1 hother]
    exact Text.written_singleQuoted hname
  have hcall := written_call (by decide : Lexeme.isName "contains".toList = true) (by decide)
    (.some (written_arguments written_classWordsExpr hothers))
  have htext : Predicate.text (.hasClass name) = "contains".toList ++ '(' ::
      ("concat(' ', normalize-space(@class), ' ')".toList ++
        [(Text.singleQuoted (' ' :: name ++ [' ']), Expr.literal (' ' :: name ++ [' ']))].flatMap
          (", ".toList ++ ·.1) ++ [')']) := by
    rw [List.flatMap_cons, List.flatMap_nil, List.append_nil, Text.singleQuoted]
    unfold Predicate.text
    simp
  rw [htext]
  exact hcall.operand.expression.opened

/-- A predicate is written as a condition. -/
theorem Predicate.written {predicate : Predicate} (h : predicate.isReadable = true) :
    Written Grammar.expr false disjunctionSigns predicate.text predicate.expr := by
  cases predicate with
  | id value => exact written_attributeEq (by decide : Lexeme.isName "id".toList = true) value
  | «attribute» name value =>
    cases value with
    | none => exact (written_attributeExpr h).expression
    | some value => exact written_attributeEq h value
  | hasClass name =>
    have hname : '\'' ∉ name := by simpa [isReadable] using h
    exact written_hasClass hname
  | position condition => exact condition.written h

/-- The conditions of a step: none, or one that joins all predicates by `and`. -/
def conditions : List Predicate → List Expr
  | [] => []
  | first :: others =>
    [others.foldl (fun left predicate => .binary .and left predicate.expr) first.expr]

/-- The predicates of a step are written in one pair of brackets, if there are any. -/
theorem bracketed_written {predicates : List Predicate}
    (h : ∀ predicate ∈ predicates, predicate.isReadable = true) :
    Bracketed (bracketed predicates) (conditions predicates) := by
  have hequality : ∀ predicate ∈ predicates, Written (equality expr) false equalitySigns
      ('(' :: predicate.text ++ [')']) predicate.expr := by
    intro predicate hmem
    exact (written_parentheses (predicate.written (h predicate hmem))).operand.opened
      |>.union.unary.multiplicative.additive.relational.equality
  match predicates with
  | [] => exact .none
  | [predicate] => exact .one (predicate.written (h predicate List.mem_cons_self))
  | first :: second :: others =>
    have hothers : ∀ other ∈ (second :: others).map
        (fun predicate => ('(' :: predicate.text ++ [')'], predicate.expr)),
        Written (equality expr) false equalitySigns other.1 other.2 := by
      intro other hother
      obtain ⟨predicate, hmem, rfl⟩ := List.mem_map.1 hother
      exact hequality predicate (List.mem_cons_of_mem first hmem)
    have hconjunction := (written_and (hequality first List.mem_cons_self) hothers).disjunction
    rw [List.flatMap_map, List.foldl_map] at hconjunction
    have htext : bracketed (first :: second :: others) =
        '[' :: ('(' :: first.text ++ [')'] ++ (second :: others).flatMap
          (fun predicate => " and ".toList ++ ('(' :: predicate.text ++ [')']))) ++ [']'] := by
      show '[' :: " and ".toList.intercalate ((first :: second :: others).map fun predicate =>
        '(' :: predicate.text ++ [')']) ++ [']'] = _
      rw [List.map_cons, Text.intercalate_cons, List.flatMap_map]
    rw [htext]
    exact .one hconjunction

/-! ## Steps -/

/-- The step to children that a step of a path ends with. -/
def Step.expr (step : Step) : XPath.Step :=
  .mk .child (.ofName step.tag) (conditions step.predicates)

/-- The steps that an axis puts before it. -/
def Axis.steps : Axis → List XPath.Step
  | .descendant => [.descendantOrSelf]
  | .child => []
  | .descendantFromContext => [.mk .self .node [], .descendantOrSelf]

/-- Where a path starts whose first step has this axis. -/
def Axis.start : Axis → Start
  | .descendant | .child => .root
  | .descendantFromContext => .context

/-- Whether the tag and the predicates of a step can stand in a text. -/
def Step.isReadable (step : Step) : Bool :=
  Lexeme.isNameTest step.tag && step.predicates.all Predicate.isReadable

/-- A step without its axis is written as a step to children. -/
theorem Step.written {step : Step} (h : step.isReadable = true) :
    Written (Grammar.step Grammar.expr) false stepSigns (step.tag ++ bracketed step.predicates)
      step.expr := by
  rw [isReadable, Bool.and_eq_true, List.all_eq_true] at h
  exact written_childStep h.1 (bracketed_written h.2)

/-- A tag does not begin with a slash. -/
theorem Step.avoids_slash {step : Step} (h : step.isReadable = true) (rest : Text) :
    Avoids ['/'] (step.tag ++ bracketed step.predicates ++ rest) := by
  rw [isReadable, Bool.and_eq_true] at h
  rw [List.append_assoc]
  exact (avoids_of_isNameTest h.1 _).mono (by simp)

/-- The sign of an axis within a path is a separator. -/
theorem Axis.separator {axis : Axis} (h : axis ≠ .descendantFromContext) :
    Separator axis.text axis.steps := by
  cases axis with
  | descendant => exact .descendants
  | child => exact .children
  | descendantFromContext => exact absurd rfl h

/-! ## Paths -/

end Path

/-- The expression that a path writes: it starts where its first axis says, and each of its steps is
a step to children behind the steps of its axis. -/
def Path.expr (path : Path) : Expr :=
  .path ((path.steps.head?.map (·.axis.start)).getD .root)
    (path.steps.flatMap fun step => step.axis.steps ++ [step.expr])

/-- Whether a path is read as what it writes: it has a step, the context node comes in at the
beginning only, and tags and predicates can stand in a text. -/
def Path.isReadable (path : Path) : Bool :=
  !path.steps.isEmpty && path.steps.tail.all (·.axis != .descendantFromContext) &&
    path.steps.all Path.Step.isReadable

/-- The steps behind the first one are further parts of a relative path. -/
theorem Path.furtherSteps {later : List Path.Step}
    (haxes : ∀ step ∈ later, step.axis ≠ .descendantFromContext)
    (hsteps : ∀ step ∈ later, step.isReadable = true) :
    ∀ p ∈ later.map (fun step => (step.text, step.axis.steps ++ [step.expr])),
      FurtherStep p.1 p.2 := by
  intro p hp
  obtain ⟨step, hmem, rfl⟩ := List.mem_map.1 hp
  have hfurther := (Axis.separator (haxes step hmem)).furtherStep (Step.written (hsteps step hmem))
    (Step.avoids_slash (hsteps step hmem))
  rw [Step.text, List.append_assoc]
  exact hfurther

theorem Path.text_cons (first : Path.Step) (later : List Path.Step) :
    Path.text ⟨first :: later⟩ = first.axis.text ++
      (first.tag ++ bracketed first.predicates ++ later.flatMap Step.text) := by
  simp [text, Step.text]

theorem Path.expr_cons (first : Path.Step) (later : List Path.Step) :
    Path.expr ⟨first :: later⟩ = .path first.axis.start
      (first.axis.steps ++ first.expr ::
        later.flatMap fun step => step.axis.steps ++ [step.expr]) := by
  simp [expr]

/-- A path from the root is a relative path behind a separator. -/
theorem Path.written_root {first : Path.Step} {later : List Path.Step} {skipped : List XPath.Step}
    (hsign : Separator first.axis.text skipped) (hfirst : first.isReadable = true)
    (hlater : ∀ step ∈ later, step.axis ≠ .descendantFromContext ∧ step.isReadable = true) :
    Written (pathExpr Grammar.expr) false pathSigns (Path.text ⟨first :: later⟩)
      (.path .root (skipped ++ first.expr ::
        later.flatMap fun step => step.axis.steps ++ [step.expr])) := by
  have hfurther := furtherSteps (fun step hmem => (hlater step hmem).1) fun step hmem =>
    (hlater step hmem).2
  have hrelative := written_relativePath (Step.written hfirst) hfurther
  rw [List.flatMap_map, List.map_map, ← List.flatMap_def] at hrelative
  rw [text_cons]
  refine written_rootPath hsign ?_ hrelative
  intro rest
  rw [List.append_assoc]
  exact Step.avoids_slash hfirst _

/-- A path from the context node is a point and the steps behind it. -/
theorem Path.written_context {first : Path.Step} {later : List Path.Step}
    (haxis : first.axis = .descendantFromContext) (hfirst : first.isReadable = true)
    (hlater : ∀ step ∈ later, step.axis ≠ .descendantFromContext ∧ step.isReadable = true) :
    Written (pathExpr Grammar.expr) false pathSigns (Path.text ⟨first :: later⟩)
      (.path .context (first.axis.steps ++ first.expr ::
        later.flatMap fun step => step.axis.steps ++ [step.expr])) := by
  have hfurther := furtherSteps (fun step hmem => (hlater step hmem).1) fun step hmem =>
    (hlater step hmem).2
  have hsecond := Separator.descendants.furtherStep (Step.written hfirst)
    (Step.avoids_slash hfirst)
  have hall : ∀ p ∈ (['/', '/'] ++ (first.tag ++ bracketed first.predicates),
      [XPath.Step.descendantOrSelf, first.expr]) ::
      later.map (fun step => (step.text, step.axis.steps ++ [step.expr])),
      FurtherStep p.1 p.2 := by
    intro p hp
    rcases List.mem_cons.1 hp with rfl | hp
    · exact hsecond
    · exact hfurther p hp
  have hrelative := written_relativePath written_selfStep hall
  rw [List.flatMap_cons, List.map_cons, List.flatten_cons, List.flatMap_map, List.map_map,
    ← List.flatMap_def] at hrelative
  rw [text_cons, haxis]
  exact written_contextPath (.point _) (fun rest => avoids_cons (by decide) _) hrelative

/-- A path is written as a path. -/
theorem Path.written {path : Path} (h : path.isReadable = true) :
    Written (pathExpr Grammar.expr) false pathSigns path.text path.expr := by
  rw [isReadable, Bool.and_eq_true, Bool.and_eq_true, List.all_eq_true, List.all_eq_true] at h
  obtain ⟨⟨hne, haxes⟩, hsteps⟩ := h
  obtain ⟨steps⟩ := path
  cases steps with
  | nil => cases hne
  | cons first later =>
    have hfirst := hsteps first List.mem_cons_self
    have hlater : ∀ step ∈ later,
        step.axis ≠ .descendantFromContext ∧ step.isReadable = true := by
      intro step hmem
      exact ⟨by simpa using haxes step hmem, hsteps step (List.mem_cons_of_mem first hmem)⟩
    rw [expr_cons]
    cases haxis : first.axis with
    | descendant =>
      apply written_root _ hfirst hlater
      rw [haxis]
      exact .descendants
    | child =>
      apply written_root _ hfirst hlater
      rw [haxis]
      exact .children
    | descendantFromContext =>
      have hcontext := written_context haxis hfirst hlater
      rw [haxis] at hcontext
      exact hcontext

/-- The text of a path is read as exactly the expression that the path writes. -/
theorem Path.parse_text (path : Path) (h : path.isReadable = true) :
    XPath.parse path.text = .ok path.expr :=
  (Path.written h).expression.parse

/-- A tag that is a word of the grammar, a value with quote marks of both kinds and a position. -/
theorem Path.parse_text_quotes :
    Path.isReadable ⟨[⟨.descendantFromContext, "or".toList,
      [.id "a'b\"".toList, .position .even]⟩]⟩ = true ∧
    XPath.parse (Path.text ⟨[⟨.descendantFromContext, "or".toList,
      [.id "a'b\"".toList, .position .even]⟩]⟩) =
      .ok (.path .context [.mk .self .node [], .mk .descendantOrSelf .node [],
        .mk .child (.name "or".toList) [.binary .and
          (.binary .eq (Path.attributeExpr "id".toList)
            (.call "concat".toList [.literal ['a'], .literal ['\''], .literal ['b', '"']]))
          (recurringExpr positionExpr ['2'] ['0'])]]) :=
  ⟨by decide, Path.parse_text _ (by decide)⟩

end TreeSelect
