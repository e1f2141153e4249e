import TreeSelect.Proofs.Path.Expression
import TreeSelect.Proofs.Tree.Elements
import TreeSelect.Proofs.XPath.Descendants

/-!
# The elements that a path leads to

The meaning of a path is told in terms of the tree alone: `Predicate.Holds` and `Step.Fits` say what a
predicate and a step ask of an element, `Axis.Relates` how the elements of a step stand to its start,
and `Leads` follows several steps.

* `Text.query_literal`: the literal of a text gives the text back, at every node.
* `Predicate.tells`: as an expression, a predicate tells whether it holds.
* `walk_leads` is the induction over the steps.
* `eval_expr`: evaluated at any node, a path gives exactly the elements that it leads to.

Positions are left to their own treatment: they ask for a place among the elements of a step and not
for anything that an element has.
-/

namespace TreeSelect

open TreeSelect.XPath

variable {tree : Tree} {node : Address}

/-! ## Texts -/

/-- The outcomes of arguments that are texts. -/
def textOutcomes (texts : List Text) : List (Result Value) :=
  texts.map fun text => .ok (.scalar (.text text))

/-- The function `concat` puts texts one after another. -/
theorem concat_textOutcomes (focus : Focus) (texts : List Text) :
    Function.concat.value tree focus (textOutcomes texts) = .ok (.scalar (.text texts.flatten)) := by
  have hvalues : (textOutcomes texts).mapM id =
      .ok (texts.map fun text => .scalar (.text text)) := by
    induction texts with
    | nil => rfl
    | cons first others ih =>
      rw [textOutcomes, List.map_cons, List.mapM_cons]
      rw [textOutcomes] at ih
      rw [ih]
      rfl
  have hjoined : (texts.map fun text => Value.scalar (.text text)).flatMap (·.toText tree) =
      texts.flatten := by
    clear hvalues
    induction texts with
    | nil => rfl
    | cons first others ih =>
      rw [List.map_cons, List.flatMap_cons, ih]
      rfl
  rw [Function.value, hvalues]
  show Except.ok (Value.scalar (.text _)) = _
  rw [hjoined]

/-- A call of `concat` with texts for arguments has the joined texts for its value. -/
theorem eval_concat {focus : Focus} {arguments : List Expr} {texts : List Text}
    (hcount : 2 ≤ arguments.length)
    (h : arguments.map (eval tree focus) = textOutcomes texts) :
    eval tree focus (.call "concat".toList arguments) = .ok (.scalar (.text texts.flatten)) := by
  have hname : Function.ofName? "concat".toList = some .concat := by decide
  have htakes : Function.concat.takes (arguments.map (eval tree focus)).length = true := by
    rw [List.length_map]
    exact decide_eq_true hcount
  rw [eval, callFunction, hname, evalEach_eq_map]
  simp only [htakes, if_true]
  rw [h, concat_textOutcomes]

/-- A text that holds the separator has more than one piece. -/
theorem Text.two_le_length_split {separator : Char} {s : Text} (h : separator ∈ s) :
    2 ≤ (s.split separator).length := by
  have hjoined := intercalate_split separator s
  match hpieces : s.split separator with
  | [] => exact absurd hpieces (splitWhere_ne_nil _ s)
  | [piece] =>
    rw [hpieces, List.intercalate_singleton] at hjoined
    have hpiece : separator ∉ piece := not_mem_of_mem_split (hpieces ▸ List.mem_cons_self)
    rw [hjoined] at hpiece
    exact absurd h hpiece
  | _ :: _ :: _ => simp

/-- The value of the expression for a text is the text, whatever quote marks it holds. -/
theorem Text.eval_literalExpr (s : Text) (focus : Focus) :
    eval tree focus s.literalExpr = .ok (.scalar (.text s)) := by
  rw [literalExpr]
  split
  case isFalse => rw [eval]
  case isTrue hmarks =>
    have hcount := two_le_length_split hmarks.1
    have htexts : (((s.split '\'').map Expr.literal).intersperse (.literal ['\''])).map
        (eval tree focus) = textOutcomes ((s.split '\'').intersperse ['\'']) := by
      rw [textOutcomes, map_intersperse, map_intersperse, List.map_map, eval]
      refine congrArg (List.intersperse _) (List.map_congr_left fun piece _ => ?_)
      show eval tree focus (.literal piece) = _
      rw [eval]
    rw [eval_concat ?_ htexts]
    · have hjoined := intercalate_split '\'' s
      exact congrArg (fun text => Except.ok (Value.scalar (.text text))) hjoined
    · rw [List.length_intersperse, List.length_map]
      omega

/-- The expression for a text is one string, or one call of `concat` with two strings or more. -/
theorem Text.literalExpr_eq (s : Text) :
    s.literalExpr = .literal s ∨
      ∃ texts : List Text, 2 ≤ texts.length ∧
        s.literalExpr = .call "concat".toList (texts.map Expr.literal) := by
  rw [literalExpr]
  split
  case isFalse => exact .inl rfl
  case isTrue hmarks =>
    have hcount := two_le_length_split hmarks.1
    refine .inr ⟨(s.split '\'').intersperse ['\''], ?_, ?_⟩
    · rw [List.length_intersperse]
      omega
    · rw [map_intersperse]

/-- The literal of a text is read as one string or as one call of `concat` with two strings or more,
and its value is the text at every node of every tree, whatever quote marks the text holds. -/
theorem Text.query_literal (s : Text) :
    ∃ expr, parse s.literal = .ok expr ∧
      (expr = .literal s ∨ ∃ texts : List Text, 2 ≤ texts.length ∧
        expr = .call "concat".toList (texts.map Expr.literal)) ∧
      (∀ tree focus, eval tree focus expr = .ok (.scalar (.text s))) ∧
        ∀ tree node, query tree node s.literal = .ok (.scalar (.text s)) := by
  have hparse : parse s.literal = .ok s.literalExpr := (written_literal s).expression.parse
  refine ⟨s.literalExpr, hparse, s.literalExpr_eq, fun tree focus => ?_, fun tree node => ?_⟩
  · exact s.eval_literalExpr focus
  · exact query_eq_ok hparse (s.eval_literalExpr _)

namespace Path

/-! ## Predicates -/

/-- What a predicate asks of an element.  A position asks for nothing that the element has. -/
def Predicate.Holds (tree : Tree) (node : Address) : Predicate → Prop
  | .id value => tree.attribute? node "id".toList = some value
  | .attribute name none => (tree.attribute? node name).isSome = true
  | .attribute name (some value) => tree.attribute? node name = some value
  | .hasClass name => name ∈ ((tree.attribute? node "class".toList).getD []).words
  | .position _ => True

/-- Whether a predicate is about what an element has.  A class is a word, so that it can be found
among words. -/
def Predicate.isPlain : Predicate → Bool
  | .hasClass name => !name.isEmpty && name.all (!Text.isBlank ·)
  | .position _ => false
  | _ => true

theorem mem_candidates_attribute {name : Text} {other : Address} :
    other ∈ candidates tree .attribute (.name name) node ↔
      other ∈ tree.attributesOf node ∧ tree.name? other = some name := by
  rw [candidates, List.mem_filter, NodeTest.holds, Bool.and_eq_true, decide_eq_true_eq,
    decide_eq_true_eq]
  constructor
  · intro h
    exact ⟨h.1, h.2.2⟩
  · intro h
    refine ⟨h.1, ?_, h.2⟩
    obtain ⟨index, rfl, hhas⟩ := Tree.mem_attributesOf.1 h.1
    obtain ⟨content, hcontent⟩ := Option.isSome_iff_exists.1 hhas
    obtain ⟨_, _, _, -, -, rfl⟩ := Tree.at?_attribute_eq_some hcontent
    rw [Tree.kind?, hcontent]
    rfl

/-- The attributes with a name are none, or the one whose value is looked up. -/
theorem eval_attributeExpr (tree : Tree) (focus : Focus) (name : Text) :
    (tree.attribute? focus.node name = none ∧
        eval tree focus (attributeExpr name) = .ok (.nodes [])) ∨
      ∃ found, tree.attribute? focus.node name = some (tree.valueAt found) ∧
        eval tree focus (attributeExpr name) = .ok (.nodes [found]) := by
  have heval : eval tree focus (attributeExpr name) =
      .ok (.nodes (Address.documentOrder (candidates tree .attribute (.name name) focus.node))) := by
    rw [attributeExpr, eval, startNodes]
    simp only [walk, collect, applyPredicates, bind, Except.bind, pure, Except.pure,
      List.append_nil]
  rcases Tree.attribute_nodes tree focus.node name with ⟨hnone, hno⟩ | ⟨found, hsome, hone⟩
  · left
    refine ⟨hnone, ?_⟩
    rw [heval, Address.documentOrder_eq List.Pairwise.nil]
    intro other
    rw [mem_candidates_attribute]
    constructor
    · intro hother
      cases hother
    · intro hcase
      rcases hcase with ⟨hother, hname⟩
      exact absurd hname (hno other hother)
  · right
    refine ⟨found, hsome, ?_⟩
    rw [heval, Address.documentOrder_eq (List.pairwise_singleton _ found)]
    intro other
    rw [mem_candidates_attribute, hone, List.mem_singleton]

/-- An attribute alone asks that it is there. -/
theorem tells_attribute (name : Text) :
    Tells tree node (attributeExpr name) ((tree.attribute? node name).isSome = true) := by
  intro position size
  rcases eval_attributeExpr tree ⟨node, position, size⟩ name with
    ⟨hnone, heval⟩ | ⟨found, hsome, heval⟩
  · refine ⟨_, heval, ?_, fun _ => rfl⟩
    rw [hnone]
    exact Iff.rfl
  · refine ⟨_, heval, ?_, fun _ => rfl⟩
    rw [hsome]
    exact Iff.rfl

/-- An attribute and a text ask that the attribute is there and has that value. -/
theorem tells_attributeEq (name value : Text) :
    Tells tree node (.binary .eq (attributeExpr name) value.literalExpr)
      (tree.attribute? node name = some value) := by
  have heq : ∀ {focus : Focus} {found : List Address},
      eval tree focus (attributeExpr name) = .ok (.nodes found) →
        eval tree focus (.binary .eq (attributeExpr name) value.literalExpr) =
          .ok (.scalar (.boolean (found.any fun other => tree.valueAt other = value))) := by
    intro focus found h
    rw [eval, h, Text.eval_literalExpr]
    rfl
  intro position size
  rcases eval_attributeExpr tree ⟨node, position, size⟩ name with
    ⟨hnone, heval⟩ | ⟨found, hsome, heval⟩
  · refine ⟨_, heq heval, ?_, fun _ => rfl⟩
    have habsent : tree.attribute? node name = none := hnone
    rw [habsent]
    constructor
    · intro h
      cases h
    · intro h
      cases h
  · refine ⟨_, heq heval, ?_, fun _ => rfl⟩
    have hpresent : tree.attribute? node name = some (tree.valueAt found) := hsome
    rw [hpresent, Option.some.injEq]
    show ([found].any fun other => tree.valueAt other = value) = true ↔ _
    rw [List.any_cons, List.any_nil, Bool.or_false, decide_eq_true_eq]

/-- The words of the attribute `class`, with a space before each of them and behind the last. -/
theorem eval_classWordsExpr (tree : Tree) (focus : Focus) :
    eval tree focus classWordsExpr = .ok (.scalar (.text
      (' ' :: ((tree.attribute? focus.node "class".toList).getD []).collapseBlanks ++ [' ']))) := by
  have hwords : eval tree focus (.call "normalize-space".toList [attributeExpr "class".toList]) =
      .ok (.scalar (.text
        ((tree.attribute? focus.node "class".toList).getD []).collapseBlanks)) := by
    have hname : Function.ofName? "normalize-space".toList = some .normalizeSpace := by decide
    rw [eval, callFunction, hname, evalEach, evalEach]
    show (eval tree focus (attributeExpr "class".toList)).map _ >>= _ = _
    rcases eval_attributeExpr tree focus "class".toList with
      ⟨hnone, heval⟩ | ⟨found, hsome, heval⟩
    · rw [heval, hnone]
      rfl
    · rw [heval, hsome]
      rfl
  have heach : [.literal [' '], .call "normalize-space".toList [attributeExpr "class".toList],
      .literal [' ']].map (eval tree focus) = textOutcomes [[' '],
        ((tree.attribute? focus.node "class".toList).getD []).collapseBlanks, [' ']] := by
    rw [List.map_cons, List.map_cons, List.map_cons, hwords, eval]
    rfl
  rw [classWordsExpr, eval_concat (by decide) heach]
  simp

/-- A class is looked for among the words of the attribute `class`, both between spaces. -/
theorem eval_hasClass (tree : Tree) (focus : Focus) (name : Text) :
    eval tree focus (.call "contains".toList [classWordsExpr, .literal (' ' :: name ++ [' '])]) =
      .ok (.scalar (.boolean (Text.includes (' ' :: name ++ [' '])
        (' ' :: ((tree.attribute? focus.node "class".toList).getD []).collapseBlanks ++
          [' '])))) := by
  have hfunction : Function.ofName? "contains".toList = some .contains := by decide
  rw [eval, callFunction, hfunction, evalEach, evalEach, evalEach, eval_classWordsExpr, eval]
  rfl

/-- A class is found between spaces exactly if it is a word of the attribute `class`. -/
theorem tells_hasClass {name : Text} (hne : name ≠ [])
    (hname : ∀ c ∈ name, Text.isBlank c = false) :
    Tells tree node (.call "contains".toList [classWordsExpr, .literal (' ' :: name ++ [' '])])
      (name ∈ ((tree.attribute? node "class".toList).getD []).words) :=
  tells_of_boolean (Text.includes_collapseBlanks hne hname) fun position size =>
    eval_hasClass tree ⟨node, position, size⟩ name

/-- As an expression, a predicate tells whether it holds. -/
theorem Predicate.tells {predicate : Predicate} (h : predicate.isPlain = true) :
    Tells tree node predicate.expr (predicate.Holds tree node) := by
  cases predicate with
  | id value => exact tells_attributeEq "id".toList value
  | «attribute» name value =>
    cases value with
    | none => exact tells_attribute name
    | some value => exact tells_attributeEq name value
  | hasClass name =>
    rw [isPlain, Bool.and_eq_true, List.all_eq_true] at h
    apply tells_hasClass (by simpa using h.1)
    intro c hc
    simpa using h.2 c hc
  | position condition => cases h

/-- Joined to a condition by `and`, predicates tell whether all of them hold beside it. -/
theorem tells_joined {left : Expr} {p : Prop} (hleft : Tells tree node left p)
    {others : List Predicate} (hothers : ∀ predicate ∈ others, predicate.isPlain = true) :
    Tells tree node (others.foldl (fun left predicate => .binary .and left predicate.expr) left)
      (p ∧ ∀ predicate ∈ others, predicate.Holds tree node) := by
  induction others generalizing left p with
  | nil =>
    apply hleft.congr
    simp
  | cons second others ih =>
    have hsecond : Tells tree node second.expr (second.Holds tree node) :=
      Predicate.tells (hothers second List.mem_cons_self)
    have hrest := ih (hleft.and hsecond) fun predicate hmem =>
      hothers predicate (List.mem_cons_of_mem second hmem)
    apply hrest.congr
    rw [List.forall_mem_cons, and_assoc]

/-- The condition of a step tells whether all its predicates hold. -/
theorem tells_conditions {first : Predicate} {others : List Predicate}
    (h : ∀ predicate ∈ first :: others, predicate.isPlain = true) :
    Tells tree node
      (others.foldl (fun left predicate => .binary .and left predicate.expr) first.expr)
      (∀ predicate ∈ first :: others, predicate.Holds tree node) := by
  have hfirst : Tells tree node first.expr (first.Holds tree node) :=
    Predicate.tells (h first List.mem_cons_self)
  have hjoined := tells_joined hfirst fun predicate hmem =>
    h predicate (List.mem_cons_of_mem first hmem)
  apply hjoined.congr
  rw [List.forall_mem_cons]

/-- The condition of a step leaves the nodes for which all its predicates hold. -/
theorem applyPredicates_conditions {predicates : List Predicate}
    (h : ∀ predicate ∈ predicates, predicate.isPlain = true) (nodes : List Address) :
    ∃ kept, applyPredicates tree (conditions predicates) nodes = .ok kept ∧
      ∀ node, node ∈ kept ↔
        node ∈ nodes ∧ ∀ predicate ∈ predicates, predicate.Holds tree node := by
  cases predicates with
  | nil =>
    refine applyPredicates_of_tells (fun _ node predicate hmem => ?_) ?_
    · cases hmem
    · intro condition others hcons
      cases hcons
  | cons first others =>
    refine applyPredicates_of_tells ?_ ?_
    · intro hnil
      cases hnil
    · intro condition later hcons
      cases hcons
      exact ⟨rfl, fun node _ => tells_conditions h⟩

/-! ## Steps -/

/-- How the elements of a step stand to where the step starts. -/
def Axis.Relates (axis : Axis) (start node : Address) : Prop :=
  match axis with
  | .child => node.parent? = some start
  | .descendant | .descendantFromContext => start ∈ node.ancestors

/-- What a step asks of an element, wherever the step starts. -/
structure Step.Fits (tree : Tree) (step : Step) (node : Address) : Prop where
  element : tree.kind? node = some .element
  tag : step.tag = ['*'] ∨ tree.name? node = some step.tag
  predicates : ∀ predicate ∈ step.predicates, predicate.Holds tree node

/-- Whether all predicates of a step are about what an element has. -/
def Step.isPlain (step : Step) : Bool := step.predicates.all Predicate.isPlain

/-- The steps that an axis puts before its own lead to the parents of the elements that the axis is
about. -/
theorem Axis.walk_steps (axis : Axis) (tree : Tree) (nodes : List Address) :
    ∃ found, walk tree axis.steps nodes = .ok found ∧
      ∀ node, tree.kind? node = some .element →
        ((∃ above ∈ found, node.parent? = some above) ↔
          ∃ start ∈ nodes, axis.Relates start node) := by
  cases axis with
  | child =>
    refine ⟨nodes, ?_, fun node _ => Iff.rfl⟩
    show walk tree [] nodes = _
    rw [walk]
  | descendant =>
    obtain ⟨found, hfound, hmem⟩ := walk_descendantOrSelf tree nodes
    exact ⟨found, hfound, fun node hnode => exists_parent_mem_iff hmem (Tree.has_of_kind? hnode)⟩
  | descendantFromContext =>
    have hself : ∃ found, walk tree [.mk .self .node []] nodes = .ok found ∧
        ∀ other, other ∈ found ↔ ∃ start ∈ nodes, other = start := by
      refine walk_step fun start _ => ⟨[start], ?_, fun other => List.mem_singleton⟩
      rw [applyPredicates]
      rfl
    obtain ⟨same, hsame, hsameMem⟩ := hself
    obtain ⟨found, hfound, hmem⟩ := walk_descendantOrSelf tree same
    refine ⟨found, ?_, fun node hnode =>
      exists_parent_mem_iff (fun other => ?_) (Tree.has_of_kind? hnode)⟩
    · show walk tree ([.mk .self .node []] ++ [.descendantOrSelf]) nodes = _
      rw [walk_append, hsame]
      exact hfound
    · rw [hmem]
      constructor
      · intro hcase
        rcases hcase with ⟨start, hstart, hother⟩
        obtain ⟨_, horigin, rfl⟩ := (hsameMem start).1 hstart
        exact ⟨start, horigin, hother⟩
      · intro hcase
        rcases hcase with ⟨start, hstart, hother⟩
        exact ⟨start, (hsameMem start).2 ⟨start, hstart, rfl⟩, hother⟩

/-- The test of a tag asks for an element with the tag as its name, or for any element. -/
theorem holds_ofName {tree : Tree} {tag : Text} {other : Address} :
    NodeTest.holds tree .child other (.ofName tag) = true ↔
      tree.kind? other = some .element ∧ (tag = ['*'] ∨ tree.name? other = some tag) := by
  rw [NodeTest.ofName]
  split
  case isTrue htag =>
    show decide (tree.kind? other = some .element) = true ↔ _
    rw [decide_eq_true_eq, and_iff_left (.inl htag)]
  case isFalse htag =>
    show (decide (tree.kind? other = some .element) &&
      decide (tree.name? other = some tag)) = true ↔ _
    rw [Bool.and_eq_true, decide_eq_true_eq, decide_eq_true_eq, or_iff_right htag]

/-- The children of a node that a step is about. -/
theorem Step.mem_candidates {step : Step} {above other : Address} :
    (other ∈ candidates tree .child (.ofName step.tag) above ∧
        ∀ predicate ∈ step.predicates, predicate.Holds tree other) ↔
      other.parent? = some above ∧ step.Fits tree other := by
  rw [candidates, List.mem_filter, holds_ofName]
  constructor
  · intro hcase
    rcases hcase with ⟨⟨hchild, helement, htag⟩, hpredicates⟩
    exact ⟨(Tree.mem_childrenOf_iff helement).1 hchild, helement, htag, hpredicates⟩
  · intro hcase
    rcases hcase with ⟨hparent, hfits⟩
    exact ⟨⟨(Tree.mem_childrenOf_iff hfits.element).2 hparent, hfits.element, hfits.tag⟩,
      hfits.predicates⟩

/-- A step leads from several nodes to the elements that it is about. -/
theorem Step.walk_fits {step : Step} (h : step.isPlain = true) (nodes : List Address) :
    ∃ found, walk tree (step.axis.steps ++ [step.expr]) nodes = .ok found ∧
      ∀ node, node ∈ found ↔
        ∃ start ∈ nodes, step.axis.Relates start node ∧ step.Fits tree node := by
  rw [isPlain, List.all_eq_true] at h
  obtain ⟨between, hbetween, hrelates⟩ := step.axis.walk_steps tree nodes
  have hchild : ∀ above ∈ between, ∃ list,
      applyPredicates tree (conditions step.predicates)
          (candidates tree .child (.ofName step.tag) above) = .ok list ∧
        ∀ other, other ∈ list ↔ other.parent? = some above ∧ step.Fits tree other := by
    intro above _
    obtain ⟨kept, hkept, hmem⟩ := applyPredicates_conditions h
      (candidates tree .child (.ofName step.tag) above)
    exact ⟨kept, hkept, fun other => (hmem other).trans step.mem_candidates⟩
  obtain ⟨found, hfound, hmem⟩ := walk_step hchild
  refine ⟨found, ?_, ?_⟩
  · rw [walk_append, hbetween]
    exact hfound
  · intro node
    rw [hmem]
    constructor
    · intro hcase
      rcases hcase with ⟨above, habove, hparent, hfits⟩
      obtain ⟨start, hstart, haxis⟩ := (hrelates node hfits.element).1 ⟨above, habove, hparent⟩
      exact ⟨start, hstart, haxis, hfits⟩
    · intro hcase
      rcases hcase with ⟨start, hstart, haxis, hfits⟩
      obtain ⟨above, habove, hparent⟩ := (hrelates node hfits.element).2 ⟨start, hstart, haxis⟩
      exact ⟨above, habove, hparent, hfits⟩

/-! ## Several steps -/

/-- `Leads tree steps start node`: the steps lead from `start` to `node`, by way of an element for
each of them. -/
def Leads (tree : Tree) : List Step → Address → Address → Prop
  | [], start, node => node = start
  | step :: steps, start, node =>
    ∃ next, step.axis.Relates start next ∧ step.Fits tree next ∧ Leads tree steps next node

/-- The last step leads on from where the others have led. -/
theorem leads_append (tree : Tree) (before after : List Step) (start node : Address) :
    Leads tree (before ++ after) start node ↔
      ∃ between, Leads tree before start between ∧ Leads tree after between node := by
  induction before generalizing start with
  | nil =>
    constructor
    · intro h
      exact ⟨start, rfl, h⟩
    · intro hcase
      rcases hcase with ⟨_, rfl, h⟩
      exact h
  | cons step before ih =>
    rw [List.cons_append, Leads]
    constructor
    · intro hcase
      rcases hcase with ⟨next, haxis, hfits, h⟩
      obtain ⟨between, hbefore, hafter⟩ := (ih next).1 h
      exact ⟨between, ⟨next, haxis, hfits, hbefore⟩, hafter⟩
    · intro hcase
      rcases hcase with ⟨between, ⟨next, haxis, hfits, hbefore⟩, hafter⟩
      exact ⟨next, haxis, hfits, (ih next).2 ⟨between, hbefore, hafter⟩⟩

/-- Steps lead from several nodes to all elements that they lead to from one of them. -/
theorem walk_leads (tree : Tree) {steps : List Step} (h : ∀ step ∈ steps, step.isPlain = true)
    (nodes : List Address) :
    ∃ found,
      walk tree (steps.flatMap fun step => step.axis.steps ++ [step.expr]) nodes = .ok found ∧
        ∀ node, node ∈ found ↔ ∃ start ∈ nodes, Leads tree steps start node := by
  induction steps generalizing nodes with
  | nil =>
    refine ⟨nodes, ?_, fun node => ?_⟩
    · rw [List.flatMap_nil, walk]
    · constructor
      · intro hnode
        exact ⟨node, hnode, rfl⟩
      · intro hcase
        rcases hcase with ⟨_, hstart, rfl⟩
        exact hstart
  | cons step steps ih =>
    obtain ⟨between, hbetween, hnext⟩ := Step.walk_fits (h step List.mem_cons_self) nodes
    obtain ⟨found, hfound, hmem⟩ :=
      ih (fun other hother => h other (List.mem_cons_of_mem step hother)) between
    refine ⟨found, ?_, fun node => ?_⟩
    · rw [List.flatMap_cons, walk_append, hbetween]
      exact hfound
    · rw [hmem]
      constructor
      · intro hcase
        rcases hcase with ⟨next, hmemNext, hleads⟩
        obtain ⟨start, hstart, haxis, hfits⟩ := (hnext next).1 hmemNext
        exact ⟨start, hstart, next, haxis, hfits, hleads⟩
      · intro hcase
        rcases hcase with ⟨start, hstart, next, haxis, hfits, hleads⟩
        exact ⟨next, (hnext next).2 ⟨start, hstart, haxis, hfits⟩, hleads⟩

/-- Where a path starts that is evaluated at a node and whose first step has this axis. -/
def Axis.origin (axis : Axis) (node : Address) : Address :=
  match axis with
  | .descendant | .child => []
  | .descendantFromContext => node

theorem Axis.startNodes_start (axis : Axis) (tree : Tree) (focus : Focus) :
    startNodes tree focus axis.start = .ok [axis.origin focus.node] := by
  cases axis <;> rw [start, startNodes] <;> rfl

end Path

/-! ## Paths -/

/-- Evaluated at a node, a path gives exactly the elements that it leads to. -/
theorem Path.eval_expr {path : Path} (h : ∀ step ∈ path.steps, step.isPlain = true)
    {first : Path.Step} (hfirst : path.steps.head? = some first) (tree : Tree) (focus : Focus) :
    ∃ found, eval tree focus path.expr = .ok (.nodes found) ∧
      ∀ node, node ∈ found ↔ Leads tree path.steps (first.axis.origin focus.node) node := by
  obtain ⟨found, hfound, hmem⟩ := walk_leads tree h [first.axis.origin focus.node]
  refine ⟨found, ?_, fun node => ?_⟩
  · rw [expr, eval, hfirst]
    show startNodes tree focus first.axis.start >>= _ = _
    rw [first.axis.startNodes_start]
    show walk tree _ _ >>= _ = _
    rw [hfound]
    rfl
  · rw [hmem]
    simp

end TreeSelect
