import TreeSelect.Proofs.Document.Find
import TreeSelect.Proofs.Path.Positions
import TreeSelect.Proofs.Selector.PseudoBehind
import TreeSelect.Proofs.Selector.Splitting

/-!
# Pseudo-classes beside other conditions

A pseudo-class about the place of an element can stand behind a tag alone or behind other conditions
of the same segment.  `find_beside` compares what the three queries find: with the conditions, with
the pseudo-class, and with both.  The positions that are written as conditions restrict alike in both
places.  The first and the last position do not: as a number behind an `and` they ask for nothing.
-/

namespace TreeSelect

open TreeSelect.XPath

/-! ## Selectors of one branch -/

/-- A pseudo-class behind the only segment of the only branch leaves it the only branch. -/
theorem branches_append_pseudo {s : Text} {segment : Segment} {pseudo : Pseudo}
    {position : Position} (hcuts : cutBranches {} s = [s]) (hparse : Segment.parse s = .ok segment)
    (hmatched : segment.matched = s) (hpseudo : pseudo.StandsFor position) :
    branches (s ++ pseudo.text) = [⟨0, s ++ pseudo.text⟩] := by
  obtain ⟨before, last, htext, hlast⟩ := hpseudo.ends
  obtain ⟨-, -, -, ⟨first, rest, rfl, hfirst⟩, -⟩ := Segment.parse_whole hparse hmatched
  refine branches_of_cutBranches (cutBranches_append_of_not_mem hcuts hpseudo.comma) ⟨?_, ?_⟩
  · intro c hc
    cases hc
    exact hfirst
  · intro c hc
    rw [htext, ← List.append_assoc, List.getLast?_concat] at hc
    cases hc
    exact hlast

theorem cutBranches_of_branches {s t : Text} (h : branches s = [⟨0, t⟩]) :
    cutBranches {} s = [s] := by
  rw [branches] at h
  cases hcuts : cutBranches {} s with
  | nil => simp [hcuts, branchesFrom] at h
  | cons cut others =>
    cases others with
    | nil => rw [eq_of_cutBranches hcuts]
    | cons second others => simp [hcuts, branchesFrom] at h

namespace Document

/-- A selector of one branch finds the elements that its path gives. -/
theorem find_of_path {tree : Tree} (type : ExpressionType) {s : Text} {path : Path}
    {nodes : List Address} (hbranch : branches s = [⟨0, s⟩])
    (hpath : Path.ofSelector s .descendant = .ok path) (hreadable : path.isReadable = true)
    (heval : eval tree ⟨[], 1, 1⟩ path.expr = .ok (.nodes nodes)) :
    ∃ found, (find ⟨tree, .empty, type⟩ s .css).1 = .ok found ∧
      Address.InDocumentOrder found ∧
        ∀ node, node ∈ found ↔ node ∈ nodes ∧ tree.kind? node = some .element := by
  have hcompiles : (Compiler.compile .empty false s .css).1 = .ok path.text := by
    have hspec := (Compiler.compileBranches_spec s Cache.coherent_empty (branches s)).1
    have hdirect : (branches s).mapM (Compiler.directBranch s .descendant) = .ok [path.text] := by
      rw [hbranch, List.mapM_cons, List.mapM_nil, Compiler.directBranch, pathText, hpath]
      rfl
    rw [hdirect] at hspec
    show (Compiler.compileBranches s .empty (branches s)).1.map (Compiler.joinBranches false) = _
    rw [hspec]
    show Except.ok (['|'].intercalate [path.text]) = _
    rw [List.intercalate_singleton]
  have hparse : XPath.parse path.text = .ok path.expr :=
    (Path.written hreadable).expression.parse
  obtain ⟨found, hfound, horder, hmem⟩ := selectElements_eq_ok hparse heval
  refine ⟨found, ?_, horder, hmem⟩
  rw [find, findFrom]
  simp only [Option.isSome_none, hcompiles]
  exact hfound

/-- A selector that is one step from the root finds the elements that the condition of the step
selects at their places. -/
theorem find_singleStep (tree : Tree) (type : ExpressionType) {s : Text} {step : Path.Step}
    {condition : Expr} {holds : Focus → Prop} (hbranch : branches s = [⟨0, s⟩])
    (hpath : Path.ofSelector s .descendant = .ok ⟨[step]⟩) (haxis : step.axis = .descendant)
    (hreadable : step.isReadable = true)
    (hconditions : Path.conditions step.predicates = [condition])
    (h : ∀ focus, Path.Placed tree step.tag focus → Selects tree focus condition (holds focus)) :
    ∃ found, (find ⟨tree, .empty, type⟩ s .css).1 = .ok found ∧
      Address.InDocumentOrder found ∧ ∀ node, node ∈ found ↔
        ∃ focus, Path.Placed tree step.tag focus ∧ focus.node = node ∧ holds focus := by
  obtain ⟨axis, tag, predicates⟩ := step
  cases haxis
  obtain ⟨nodes, heval, hnodes⟩ := Path.eval_singleStep hconditions h ⟨[], 1, 1⟩
  have hpathReadable : Path.isReadable ⟨[⟨.descendant, tag, predicates⟩]⟩ = true := by
    simpa [Path.isReadable] using hreadable
  obtain ⟨found, hfound, horder, hmem⟩ := find_of_path type hbranch hpath hpathReadable heval
  refine ⟨found, hfound, horder, fun node => ?_⟩
  rw [hmem, hnodes]
  constructor
  · intro hcase
    exact hcase.1
  · intro hcase
    obtain ⟨focus, hplaced, rfl, hholds⟩ := hcase
    exact ⟨⟨focus, hplaced, rfl, hholds⟩, hplaced.element⟩

/-- A tag with a pseudo-class behind it finds the elements that the position keeps. -/
theorem find_place (tree : Tree) (type : ExpressionType) {tag : Text}
    (hchars : ∀ c ∈ tag, isTagChar c = true) (hname : Lexeme.isNameTest tag = true)
    {pseudo : Pseudo} {position : Position} (hpseudo : pseudo.StandsFor position)
    (hreadable : position.isReadable = true) :
    ∃ found, (find ⟨tree, .empty, type⟩ (tag ++ pseudo.text) .css).1 = .ok found ∧
      Address.InDocumentOrder found ∧ ∀ node, node ∈ found ↔
        ∃ focus, Path.Placed tree tag focus ∧ focus.node = node ∧
          Path.Keeps tree position focus := by
  have hne : tag ≠ [] := by
    rintro rfl
    cases hname
  have hparse := Segment.parse_tag hne hchars
  have hmatched : (Segment.made 0 ⟨tag, [], [], [], none, []⟩ none).matched = tag := by
    simp [Segment.made, Pieces.text, Pieces.pseudoText]
  have htag : (Segment.made 0 ⟨tag, [], [], [], none, []⟩ none).tag = tag :=
    if_neg fun hempty => hne (List.isEmpty_iff.1 hempty)
  have hcuts : cutBranches {} tag = [tag] := by
    apply cutBranches_of_not_mem
    intro hcomma
    have hchar : isTagChar ',' = false := isTagChar_sign (by decide) (by decide)
    rw [hchars ',' hcomma] at hchar
    cases hchar
  have hpath := Path.ofSelector_append_pseudo hparse hmatched rfl rfl hpseudo .descendant
  rw [htag] at hpath
  have hstep : Path.Step.isReadable ⟨.descendant, tag, [.position position]⟩ = true := by
    simp [Path.Step.isReadable, hname, Path.Predicate.isReadable, hreadable]
  exact find_singleStep tree type (branches_append_pseudo hcuts hparse hmatched hpseudo) hpath rfl
    hstep rfl fun focus hplaced => Path.selects_position hreadable hplaced.size_pos

/-! ## Conditions and a pseudo-class -/

/-- Whether a tag and what is behind it are one segment that is no pseudo-class, asks for more than
the tag, and needs no names but those of XPath. -/
structure IsCompound (tag conditions : Text) (segment : Segment) : Prop where
  branch : branches (tag ++ conditions) = [⟨0, tag ++ conditions⟩]
  parsed : Segment.parse (tag ++ conditions) = .ok segment
  matched : segment.matched = tag ++ conditions
  tag : segment.tag = tag
  relation : segment.relation = .descendant
  plain : segment.isPlain = true
  asks : Path.plainPredicates segment ≠ []

namespace IsCompound

variable {tag conditions : Text} {segment : Segment} {pseudo : SiblingClass}

theorem pseudo_eq_none (h : IsCompound tag conditions segment) : segment.pseudo = none :=
  (Segment.isPlain_iff.1 h.plain).1

/-- The step of the segment can be written and asks for what an element has. -/
theorem step_isPlain (h : IsCompound tag conditions segment) :
    (Path.stepOf .descendant segment).isReadable = true ∧
      (Path.stepOf .descendant segment).isPlain = true :=
  Path.stepOf_isPlain h.plain
    (Segment.hasClassNames_of_read (Segment.parse_whole h.parsed h.matched).1) .descendant

/-- The query with the conditions finds the elements for which they hold. -/
theorem find_conditions (h : IsCompound tag conditions segment) (tree : Tree)
    (type : ExpressionType) :
    ∃ found, (find ⟨tree, .empty, type⟩ (tag ++ conditions) .css).1 = .ok found ∧
      Address.InDocumentOrder found ∧ ∀ node, node ∈ found ↔
        ∃ focus, Path.Placed tree tag focus ∧ focus.node = node ∧
          ∀ predicate ∈ Path.plainPredicates segment, predicate.Holds tree focus.node := by
  obtain ⟨hreadable, hplain⟩ := h.step_isPlain
  obtain ⟨first, others, hpredicates⟩ := List.exists_cons_of_ne_nil h.asks
  have hpath := Path.ofSelector_whole h.parsed h.matched h.pseudo_eq_none h.relation .descendant
  rw [Path.stepOf, hpredicates] at hreadable hplain
  rw [hpredicates] at hpath ⊢
  have hfind := find_singleStep tree type h.branch hpath rfl hreadable rfl fun focus _ =>
    Path.selects_plain (List.all_eq_true.1 hplain)
  rwa [h.tag] at hfind

/-- The query with the pseudo-class behind the tag finds the elements that the position keeps. -/
theorem find_pseudo (h : IsCompound tag conditions segment) (hpseudo : pseudo.isWritten = true)
    (tree : Tree) (type : ExpressionType) :
    ∃ found, (find ⟨tree, .empty, type⟩ (tag ++ pseudo.text) .css).1 = .ok found ∧
      Address.InDocumentOrder found ∧ ∀ node, node ∈ found ↔
        ∃ focus, Path.Placed tree tag focus ∧ focus.node = node ∧
          Path.Keeps tree pseudo.position focus := by
  have hname : Lexeme.isNameTest tag = true := by
    have hreadable := h.step_isPlain.1
    rw [Path.Step.isReadable, Bool.and_eq_true, Path.stepOf, h.tag] at hreadable
    exact hreadable.1
  exact find_place tree type (Segment.tag_chars h.parsed h.matched h.tag).2 hname
    (SiblingClass.standsFor hpseudo) (SiblingClass.position_isReadable hpseudo)

/-- The query with both. -/
theorem find_both (h : IsCompound tag conditions segment) (hpseudo : pseudo.isWritten = true)
    (tree : Tree) (type : ExpressionType) :
    ∃ found, (find ⟨tree, .empty, type⟩ (tag ++ conditions ++ pseudo.text) .css).1 = .ok found ∧
      Address.InDocumentOrder found ∧ ∀ node, node ∈ found ↔
        ∃ focus, Path.Placed tree tag focus ∧ focus.node = node ∧
          (∀ predicate ∈ Path.plainPredicates segment, predicate.Holds tree focus.node) ∧
            (pseudo.position.isCondition = true → Path.Keeps tree pseudo.position focus) := by
  obtain ⟨hreadable, hplain⟩ := h.step_isPlain
  obtain ⟨first, others, hpredicates⟩ := List.exists_cons_of_ne_nil h.asks
  have hpath := Path.ofSelector_append_pseudo h.parsed h.matched h.pseudo_eq_none h.relation
    (SiblingClass.standsFor hpseudo) .descendant
  have hbranch := branches_append_pseudo (cutBranches_of_branches h.branch) h.parsed h.matched
    (SiblingClass.standsFor hpseudo)
  rw [Path.stepOf, hpredicates] at hplain
  rw [h.tag, hpredicates] at hpath
  rw [hpredicates]
  have hboth : Path.Step.isReadable
      ⟨.descendant, tag, first :: others ++ [.position pseudo.position]⟩ = true := by
    rw [Path.Step.isReadable, Path.stepOf, h.tag, hpredicates, Bool.and_eq_true] at hreadable
    rw [Path.Step.isReadable, List.all_append, hreadable.1, hreadable.2]
    simp [Path.Predicate.isReadable, SiblingClass.position_isReadable hpseudo]
  exact find_singleStep tree type hbranch hpath rfl hboth (Path.conditions_concat _ _ _)
    fun focus hplaced => Path.selects_beside (List.all_eq_true.1 hplain)
      (SiblingClass.position_isReadable hpseudo) hplaced.size_pos

end IsCompound

/-- Behind other conditions, `:nth-child` with `odd`, `even` or a number restricts as it does behind
the tag alone.  There `:first-child` and `:last-child` restrict nothing at all. -/
theorem find_beside (tree : Tree) (type : ExpressionType) {tag conditions : Text}
    {segment : Segment} {pseudo : SiblingClass} (h : IsCompound tag conditions segment)
    (hpseudo : pseudo.isWritten = true) :
    ∃ beside alone both,
      (find ⟨tree, .empty, type⟩ (tag ++ conditions) .css).1 = .ok beside ∧
      (find ⟨tree, .empty, type⟩ (tag ++ pseudo.text) .css).1 = .ok alone ∧
      (find ⟨tree, .empty, type⟩ (tag ++ conditions ++ pseudo.text) .css).1 = .ok both ∧
      (pseudo ≠ .firstChild → pseudo ≠ .lastChild →
        ∀ node, node ∈ both ↔ node ∈ beside ∧ node ∈ alone) ∧
      (pseudo = .firstChild ∨ pseudo = .lastChild → both = beside) := by
  obtain ⟨beside, hbeside, hbesideOrder, hbesideMem⟩ := h.find_conditions tree type
  obtain ⟨alone, halone, -, haloneMem⟩ := h.find_pseudo hpseudo tree type
  obtain ⟨both, hboth, hbothOrder, hbothMem⟩ := h.find_both hpseudo tree type
  refine ⟨beside, alone, both, hbeside, halone, hboth, ?_, ?_⟩
  · intro hfirst hlast node
    have hcondition : pseudo.position.isCondition = true := by
      cases pseudo with
      | firstChild => exact absurd rfl hfirst
      | lastChild => exact absurd rfl hlast
      | odd | even | nth => rfl
    rw [hbothMem, hbesideMem, haloneMem]
    constructor
    · intro hcase
      rcases hcase with ⟨focus, hplaced, hnode, hholds, hkeeps⟩
      exact ⟨⟨focus, hplaced, hnode, hholds⟩, focus, hplaced, hnode, hkeeps hcondition⟩
    · intro hcase
      rcases hcase with ⟨⟨focus, hplaced, hnode, hholds⟩, other, hotherPlaced, hotherNode, hkeeps⟩
      -- a node has one place, so that both queries ask about the same one
      have hsame : focus = other := hplaced.eq hotherPlaced (hnode.trans hotherNode.symm)
      subst hsame
      exact ⟨focus, hplaced, hnode, hholds, fun _ => hkeeps⟩
  · intro hends
    have hnumber : pseudo.position.isCondition ≠ true := by
      rcases hends with rfl | rfl <;> decide
    apply hbesideOrder.eq_of_mem_iff hbothOrder
    intro node
    rw [hbothMem, hbesideMem]
    constructor
    · intro hcase
      rcases hcase with ⟨focus, hplaced, hnode, hholds, -⟩
      exact ⟨focus, hplaced, hnode, hholds⟩
    · intro hcase
      rcases hcase with ⟨focus, hplaced, hnode, hholds⟩
      exact ⟨focus, hplaced, hnode, hholds, fun hcondition => absurd hcondition hnumber⟩

/-- A tag and a class are a segment. -/
theorem isCompound_class :
    IsCompound "li".toList ".a".toList
      ((Segment.parse "li.a".toList).toOption.getD
        (Segment.made 0 ⟨[], [], [], [], none, []⟩ none)) where
  branch := by decide +kernel
  parsed := by decide +kernel
  matched := by decide +kernel
  tag := by decide +kernel
  relation := by decide +kernel
  plain := by decide +kernel
  asks := by decide +kernel

/-- Every second item, among those of a class. -/
theorem find_beside_even :
    let tree := (Tree.element "ul".toList).withChildren [.element "li".toList,
      (Tree.element "li".toList).withAttribute "class".toList "a".toList]
    SiblingClass.isWritten .even = true ∧ ∃ beside alone both,
      (find ⟨tree, .empty, .css⟩ "li.a".toList .css).1 = .ok beside ∧
      (find ⟨tree, .empty, .css⟩ "li:nth-child(even)".toList .css).1 = .ok alone ∧
      (find ⟨tree, .empty, .css⟩ "li.a:nth-child(even)".toList .css).1 = .ok both ∧
      ∀ node, node ∈ both ↔ node ∈ beside ∧ node ∈ alone := by
  intro tree
  obtain ⟨beside, alone, both, hbeside, halone, hboth, hiff, -⟩ :=
    find_beside tree .css isCompound_class (by decide : SiblingClass.isWritten .even = true)
  exact ⟨by decide, beside, alone, both, hbeside, halone, hboth, hiff (by decide) (by decide)⟩

/-- The second item is found as a first child of its class, although it is no first child. -/
theorem find_firstChild_beside :
    let tree := (Tree.element "ul".toList).withChildren [
      (Tree.element "li".toList).withAttribute "class".toList "b".toList,
      (Tree.element "li".toList).withAttribute "class".toList "a".toList]
    ∃ beside alone both,
      (find ⟨tree, .empty, .css⟩ "li.a".toList .css).1 = .ok beside ∧
      (find ⟨tree, .empty, .css⟩ "li:first-child".toList .css).1 = .ok alone ∧
      (find ⟨tree, .empty, .css⟩ "li.a:first-child".toList .css).1 = .ok both ∧
      [.child 1] ∈ both ∧ [.child 1] ∉ alone := by
  intro tree
  have hwritten : SiblingClass.isWritten .firstChild = true := rfl
  obtain ⟨beside, hbeside, -⟩ := isCompound_class.find_conditions tree .css
  obtain ⟨alone, halone, -, haloneMem⟩ := isCompound_class.find_pseudo hwritten tree .css
  obtain ⟨both, hboth, -, hbothMem⟩ := isCompound_class.find_both hwritten tree .css
  have hplaced : Path.Placed tree "li".toList ⟨[.child 1], 2, 2⟩ :=
    ⟨[], 1, by decide +kernel, rfl, by decide +kernel⟩
  refine ⟨beside, alone, both, hbeside, halone, hboth, ?_, ?_⟩
  · refine (hbothMem _).2 ⟨_, hplaced, rfl, ?_, fun hcondition => ?_⟩
    · have hpredicates : Path.plainPredicates ((Segment.parse "li.a".toList).toOption.getD
          (Segment.made 0 ⟨[], [], [], [], none, []⟩ none)) = [.hasClass "a".toList] := by
        decide +kernel
      rw [hpredicates]
      intro predicate hmem
      rw [List.mem_singleton.1 hmem]
      show "a".toList ∈ ((tree.attribute? [.child 1] "class".toList).getD []).words
      decide +kernel
    · cases hcondition
  · intro hmem
    obtain ⟨focus, hfocus, hnode, value, heval, hselects⟩ := (haloneMem _).1 hmem
    rw [hfocus.eq hplaced hnode] at heval hselects
    have hone : XPath.eval tree ⟨[.child 1], 2, 2⟩ (Position.expr .first) =
        .ok (.scalar (.number (Number.ofDigits ['1'] []))) := eval_digitsExpr ['1']
    have hposition : SiblingClass.firstChild.position = .first := rfl
    rw [hposition, hone] at heval
    cases heval
    have hsecond : Value.selects (.scalar (.number (Number.ofDigits ['1'] []))) 2 = false := by
      decide +kernel
    rw [hsecond] at hselects
    cases hselects

end Document
end TreeSelect
