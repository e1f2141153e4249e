import TreeSelect.Proofs.Document.Find
import TreeSelect.Proofs.Path.Brackets
import TreeSelect.Proofs.Path.Positions

/-!
# Queries below an element

A selector that is asked of an element is to find elements below it.  Its branches compile as they do
from the root, and each gets a point in front.  That is enough for whatever a selector can ask for
with closed brackets (`findFrom_below`).  An argument that closes a bracket which it did not open can
end the brackets it stands in, and what follows may then start at the root
(`findFrom_bracket_beside`).
-/

namespace TreeSelect

open TreeSelect.XPath TreeSelect.XPath.Parser TreeSelect.XPath.Grammar

namespace Compiler

variable {whole : Text}

/-- The text of a branch, before what may stand behind one. -/
theorem exists_below_of_directBranch {branch : Branch} {text : Text}
    (h : directBranch whole .descendant branch = .ok text)
    (htakes : ∀ segments, Segment.chain branch.text = .ok segments →
      ∀ segment ∈ segments, segment.TakesClosed)
    {rest : Text} (hrest : Onward rest) :
    ∃ c s, isTagChar c = true ∧ Onward s ∧ text ++ rest = '/' :: '/' :: c :: s := by
  obtain ⟨path, hpath, rfl⟩ := Attempt.map_eq_ok.1 (Attempt.mapError_eq_ok.1 h)
  obtain ⟨steps, hsteps, rfl⟩ := Attempt.map_eq_ok.1 hpath
  obtain ⟨segments, hchain, -⟩ := Path.exists_chain hsteps
  exact Path.exists_below (Path.axis_of_stepsFrom hsteps)
    (Path.isEnclosed_of_stepsFrom (by decide) hsteps hchain (htakes segments hchain)) hrest

/-- Branches that start at the context node may stand behind another one. -/
theorem onward_branches {list : List Branch} {texts : List Text}
    (h : list.mapM (directBranch whole .descendant) = .ok texts)
    (htakes : ∀ branch ∈ list, ∀ segments, Segment.chain branch.text = .ok segments →
      ∀ segment ∈ segments, segment.TakesClosed) :
    Onward (texts.flatMap fun text => '|' :: '.' :: text) := by
  induction list generalizing texts with
  | nil =>
    cases h
    exact .nil
  | cons branch list ih =>
    obtain ⟨text, others, htext, hothers, rfl⟩ := Attempt.mapM_cons_eq_ok.1 h
    have hrest := ih hothers fun other hother => htakes other (List.mem_cons_of_mem branch hother)
    obtain ⟨c, s, hc, hs, hsplit⟩ :=
      exists_below_of_directBranch htext (htakes branch List.mem_cons_self) hrest
    rw [List.flatMap_cons, List.cons_append, List.cons_append, hsplit]
    exact .branch hc hs

/-- The texts of branches, each behind a point, stay below the context node. -/
theorem below_joinBranches {list : List Branch} {texts : List Text} (hne : list ≠ [])
    (h : list.mapM (directBranch whole .descendant) = .ok texts)
    (htakes : ∀ branch ∈ list, ∀ segments, Segment.chain branch.text = .ok segments →
      ∀ segment ∈ segments, segment.TakesClosed) :
    Below (joinBranches true texts) := by
  obtain ⟨branch, list, rfl⟩ := List.exists_cons_of_ne_nil hne
  obtain ⟨text, others, htext, hothers, rfl⟩ := Attempt.mapM_cons_eq_ok.1 h
  have hrest := onward_branches hothers fun other hother =>
    htakes other (List.mem_cons_of_mem branch hother)
  obtain ⟨c, s, hc, hs, hsplit⟩ :=
    exists_below_of_directBranch htext (htakes branch List.mem_cons_self) hrest
  have hjoined : joinBranches true (text :: others) =
      '.' :: (text ++ others.flatMap fun other => '|' :: '.' :: other) := by
    rw [joinBranches, if_pos rfl, List.map_cons, Text.intercalate_cons, List.flatMap_map]
    rfl
  rw [hjoined, hsplit]
  exact .mk hc hs

end Compiler

namespace Document

/-- Where the expression of a query stays below its node, the query finds elements below that
node. -/
theorem selectElements_below {tree : Tree} {element : Address} {text : Text} {found : List Address}
    (hbelow : ∀ expr, XPath.parse text = .ok expr → expr.StaysBelow)
    (h : selectElements tree element text = .ok found) :
    ∀ node ∈ found, node ∈ tree.descendantsOf element ∧ tree.kind? node = some .element := by
  unfold selectElements query at h
  cases hparse : XPath.parse text with
  | error offset =>
    rw [hparse] at h
    cases h
  | ok expr =>
    rw [hparse] at h
    simp only at h
    split at h
    case h_1 => cases h
    case h_2 =>
      cases h
      intro node hnode
      cases hnode
    case h_3 nodes hquery =>
      cases h
      intro node hnode
      obtain ⟨hmem, hkind⟩ := List.mem_filter.1 hnode
      rw [decide_eq_true_eq] at hkind
      have hancestor := hbelow expr hparse tree ⟨element, 1, 1⟩ nodes
        (Attempt.mapError_eq_ok.1 hquery) node hmem
      obtain ⟨rest, hne, rfl⟩ := Address.mem_ancestors.1 hancestor
      exact ⟨Tree.mem_descendantsOf.2 ⟨rest, hne, rfl, Tree.subtree?_isSome_of_element hkind⟩, hkind⟩

/-- A selector that compiles finds, below an element, the elements that its text gives there. -/
theorem findFrom_of_eval (document : Document) {element : Address} {expression text : Text}
    {expr : Expr} {nodes : List Address}
    (hcompiles : (Compiler.compile document.cache true expression .css).1 = .ok text)
    (hparse : XPath.parse text = .ok expr)
    (heval : eval document.tree ⟨element, 1, 1⟩ expr = .ok (.nodes nodes)) :
    (findFrom document (some element) expression .css).1 =
      .ok (nodes.filter fun node => document.tree.kind? node = some .element) := by
  rw [findFrom]
  simp only [Option.isSome_some, hcompiles]
  exact selectElements_of_eval hparse heval

/-- Whatever has been compiled before, a selector that is asked of an element finds elements below
the element and nothing else, unless an argument that it takes as it stands has a bracket or a quote
mark without its partner. -/
theorem findFrom_below (tree : Tree) (type : ExpressionType) (requests : List Compiler.Request)
    {element : Address} {expression : Text} {found : List Address}
    (htakes : ∀ branch ∈ branches expression, ∀ segments, Segment.chain branch.text = .ok segments →
      ∀ segment ∈ segments, segment.TakesClosed)
    (h : (findFrom ⟨tree, (Compiler.answers .empty requests).2, type⟩ (some element) expression
      .css).1 = .ok found) :
    ∀ node ∈ found, node ∈ tree.descendantsOf element ∧ tree.kind? node = some .element := by
  have hcoherent := (Compiler.answers_spec Cache.coherent_empty requests).2
  generalize (Compiler.answers .empty requests).2 = cache at h hcoherent
  have hspec := (Compiler.compileBranches_spec expression hcoherent (branches expression)).1
  simp only [findFrom, Compiler.compile, hspec] at h
  split at h
  case h_1 => cases h
  case h_2 text hcompiled =>
    obtain ⟨texts, htexts, rfl⟩ := Attempt.map_eq_ok.1 hcompiled
    have hbelow := Compiler.below_joinBranches (branches_ne_nil expression) htexts htakes
    exact selectElements_below (fun expr hparse => staysBelow_of_parse hbelow hparse) h

/-- Below the section, the last link of each list of links; the argument is taken as it stands, and
it has been compiled for the whole document before. -/
theorem findFrom_below_last :
    let tree := (Tree.element "main".toList).withChildren [
      (Tree.element "section".toList).withChildren [.element "a".toList, .element "a".toList],
      .element "a".toList]
    let list := "a:nth-child(last())".toList
    let cache := (Compiler.answers .empty [⟨false, list, .css⟩]).2
    (∀ branch ∈ branches list, ∀ segments, Segment.chain branch.text = .ok segments →
        ∀ segment ∈ segments, segment.TakesClosed) ∧
      ∃ found, (findFrom ⟨tree, cache, .css⟩ (some [.child 0]) list .css).1 = .ok found ∧
        [.child 0, .child 1] ∈ found ∧
          ∀ node ∈ found, node ∈ tree.descendantsOf [.child 0] ∧ tree.kind? node = some .element := by
  intro tree list cache
  let path : Path := ⟨[⟨.descendantFromContext, ['a'], [.position .last]⟩]⟩
  have hchain : ∀ branch ∈ branches list, ((Segment.chain branch.text).toOption.getD []).map
      Segment.pseudo = [some ⟨"nth-child".toList, some "last()".toList⟩] := by
    decide +kernel
  have hargument : Position.ofPseudo "nth-child".toList (some "last()".toList) =
      .ok (.raw "last()".toList) := by
    decide +kernel
  have htakes : ∀ branch ∈ branches list, ∀ segments, Segment.chain branch.text = .ok segments →
      ∀ segment ∈ segments, segment.TakesClosed := by
    intro branch hbranch segments hsegments segment hsegment pseudo hpseudo condition hcondition
    have hmem := List.mem_map_of_mem (f := Segment.pseudo) hsegment
    have hpseudos := hchain branch hbranch
    rw [hsegments] at hpseudos
    rw [show segments.map Segment.pseudo = _ from hpseudos, List.mem_singleton, hpseudo] at hmem
    cases hmem
    rw [hargument] at hcondition
    cases hcondition
    decide
  have hcompiles : (Compiler.compile cache true list .css).1 = .ok path.text := by decide +kernel
  have hparse : XPath.parse path.text = .ok path.expr :=
    (Path.written (by decide : path.isReadable = true)).expression.parse
  obtain ⟨nodes, heval, hmem⟩ := Path.eval_step tree .descendantFromContext
    (rfl : Path.conditions [.position .last] = [Position.expr .last])
    (fun focus hplaced => Path.selects_position (by decide : Position.isReadable .last = true)
      hplaced.size_pos) ⟨[.child 0], 1, 1⟩
  have hfind := findFrom_of_eval ⟨tree, cache, .css⟩ hcompiles hparse heval
  refine ⟨htakes, _, hfind, ?_, findFrom_below tree .css [⟨false, list, .css⟩] htakes hfind⟩
  have hplaced : Path.Placed tree ['a'] ⟨[.child 0, .child 1], 2, 2⟩ :=
    ⟨[.child 0], 1, by decide +kernel, rfl, by decide +kernel⟩
  have hkeeps : Path.Keeps tree .last ⟨[.child 0, .child 1], 2, 2⟩ :=
    ⟨_, eval_lastExpr tree _, by decide +kernel⟩
  have hbelow : [.child 0] ∈ Address.ancestors [.child 0, .child 1] := by decide
  exact List.mem_filter.2 ⟨(hmem _).2 ⟨_, hplaced, rfl, hbelow, hkeeps⟩, by decide +kernel⟩

/-- The first link of the document is found below a section beside it: the argument closes the
bracket in which it is written, and goes on with a branch that starts at the root. -/
theorem findFrom_bracket_beside :
    let tree := (Tree.element "main".toList).withChildren [.element "section".toList,
      .element "a".toList]
    let cache := (Compiler.answers .empty [⟨false, "section".toList, .css⟩]).2
    ∃ found, (findFrom ⟨tree, cache, .css⟩ (some [.child 0]) "a:nth-child(1]|//a[1)".toList .css).1 =
        .ok found ∧
      [.child 1] ∈ found ∧ [.child 1] ∉ tree.descendantsOf [.child 0] := by
  intro tree cache
  let path (axis : Path.Axis) : Path := ⟨[⟨axis, ['a'], [.position .first]⟩]⟩
  let parts : List (Text × Expr) := [.descendantFromContext, .descendant].map fun axis =>
    ((path axis).text, (path axis).expr)
  have hcompiles : (Compiler.compile cache true "a:nth-child(1]|//a[1)".toList .css).1 =
      .ok (['|'].intercalate (parts.map (·.1))) := by
    decide +kernel
  have hparse : XPath.parse (['|'].intercalate (parts.map (·.1))) =
      .ok (joinedExpr (parts.map (·.2))) := by
    have hparts : ∀ part ∈ parts,
        Written (pathExpr Grammar.expr) false pathSigns part.1 part.2 := by
      intro part hpart
      obtain ⟨axis, -, rfl⟩ := List.mem_map.1 hpart
      exact Path.written (by rfl : (path axis).isReadable = true)
    exact (written_joined (List.cons_ne_nil _ _) hparts).parse
  have hbranch : ∀ axis, ∃ nodes,
      eval tree ⟨[.child 0], 1, 1⟩ (path axis).expr = .ok (.nodes nodes) ∧
        ∀ node, node ∈ nodes ↔ ∃ focus, Path.Placed tree ['a'] focus ∧ focus.node = node ∧
          axis.Relates (axis.origin [.child 0]) node ∧ Path.Keeps tree .first focus :=
    fun axis => Path.eval_step tree axis
      (rfl : Path.conditions [.position .first] = [Position.expr .first])
      (fun focus hplaced => Path.selects_position (by decide : Position.isReadable .first = true)
        hplaced.size_pos) ⟨[.child 0], 1, 1⟩
  obtain ⟨below, hbelow, -⟩ := hbranch .descendantFromContext
  obtain ⟨anywhere, hanywhere, hmem⟩ := hbranch .descendant
  have hunion : unionNodes tree ⟨[.child 0], 1, 1⟩ (parts.map (·.2)) = .ok (below ++ anywhere) := by
    show unionNodes tree _ [_, _] = _
    rw [unionNodes, unionNodes, unionNodes, hbelow, hanywhere]
    show Except.ok (below ++ (anywhere ++ [])) = _
    rw [List.append_nil]
  obtain ⟨nodes, heval, hnodes⟩ := eval_joinedExpr hunion
  have hfind := findFrom_of_eval ⟨tree, cache, .css⟩ hcompiles hparse heval
  refine ⟨_, hfind, ?_, by decide +kernel⟩
  have hplaced : Path.Placed tree ['a'] ⟨[.child 1], 1, 1⟩ :=
    ⟨[], 0, by decide +kernel, rfl, by decide +kernel⟩
  have hkeeps : Path.Keeps tree .first ⟨[.child 1], 1, 1⟩ :=
    ⟨_, eval_digitsExpr ['1'], by decide +kernel⟩
  have hroot : Path.Axis.Relates .descendant [] [.child 1] := by
    show [] ∈ Address.ancestors [.child 1]
    decide
  have hfound : [.child 1] ∈ anywhere := (hmem _).2 ⟨_, hplaced, rfl, hroot, hkeeps⟩
  exact List.mem_filter.2 ⟨(hnodes _).2 (List.mem_append_right _ hfound), by decide +kernel⟩

end Document
end TreeSelect
