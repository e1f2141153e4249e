import TreeSelect.Proofs.Document.Find
import TreeSelect.Proofs.Selector.Anchored

/-!
# What a selector finds below an element

Asked of an element, a selector finds what its segments lead to from there, with all elements on the
way below the element (`findFrom_css`).  So it finds no more than it finds in the whole document, and
less if an element on the way is above the element or beside it.
-/

namespace TreeSelect

open TreeSelect.XPath TreeSelect.XPath.Parser TreeSelect.XPath.Grammar
open Address (InDocumentOrder)

namespace Document

/-- With whatever coherent cache, a query at a node of the tree or at the root finds the elements to
which the segments of some branch lead from there. -/
theorem findFrom_descends (tree : Tree) (type : ExpressionType) {cache : Cache}
    (hcache : cache.Coherent) (origin : Option Address) (horigin : tree.has (origin.getD []) = true)
    {list text : Text} (hcompiles : (Compiler.compile .empty false list .css).1 = .ok text)
    (hplain : ∀ branch ∈ branches list, ∀ segments, Segment.chain branch.text = .ok segments →
      ∀ segment ∈ segments, segment.isPlain = true) :
    ∃ found, (findFrom ⟨tree, cache, type⟩ origin list .css).1 = .ok found ∧
      InDocumentOrder found ∧ ∀ node, node ∈ found ↔ ∃ branch ∈ branches list, ∃ segments,
        Segment.chain branch.text = .ok segments ∧
          Descends tree .descendant (origin.getD []) segments node := by
  let request : Compiler.Request := ⟨origin.isSome, list, .css⟩
  -- the branches compile from the root, and so they do from the context node
  obtain ⟨texts, htexts⟩ : ∃ texts,
      (branches list).mapM (Compiler.directBranch list request.axis) = .ok texts := by
    have hdirect := (Compiler.compile_spec Cache.coherent_empty ⟨false, list, .css⟩).1
    rw [hcompiles] at hdirect
    obtain ⟨texts, htexts, -⟩ := Attempt.map_eq_ok.1 hdirect.symm
    have hroot : (branches list).mapM (Compiler.directBranch list .descendant) = .ok texts := htexts
    cases origin with
    | none => exact ⟨texts, hroot⟩
    | some element =>
      refine ⟨texts.map ('.' :: ·), ?_⟩
      show (branches list).mapM (Compiler.directBranch list .descendantFromContext) = _
      rw [Compiler.mapM_directBranch_descendantFromContext, hroot]
      rfl
  obtain ⟨parts, hparts, hlength, hwritten, hunion⟩ := branches_leads htexts hplain
  obtain ⟨nodes, hnodes, hmem⟩ := hunion tree ⟨origin.getD [], 1, 1⟩
  obtain ⟨joined, heval, hjoinedMem⟩ := eval_joinedExpr hnodes
  have hparse := parse_joined hlength hwritten
  rw [hparts] at hparse
  obtain ⟨found, hfound, horder, hfoundMem⟩ :=
    selectElements_inDocumentOrder horigin hparse heval
  have horiginNode : request.axis.origin (origin.getD []) = origin.getD [] := by
    cases origin <;> rfl
  have hrelates : ∀ {above next : Address},
      request.axis.Relates above next ↔ Relation.descendant.Relates above next := by
    cases origin <;> exact Iff.rfl
  refine ⟨found, ?_, horder, fun node => ?_⟩
  · have hcompiled : (Compiler.compile cache origin.isSome list .css).1 =
        .ok (['|'].intercalate texts) := by
      rw [(Compiler.compile_spec hcache request).1]
      show ((branches list).mapM (Compiler.directBranch list request.axis)).map _ = _
      rw [htexts]
      rfl
    rw [findFrom]
    simp only [hcompiled]
    exact hfound
  · rw [hfoundMem, hjoinedMem, hmem]
    simp only [horiginNode, Path.leads_iff_descends fun _ => hrelates]
    constructor
    · intro h
      exact h.1
    · intro hcase
      have hbelow := hcase
      obtain ⟨branch, -, segments, hchain, hdescends⟩ := hbelow
      exact ⟨hcase, (hdescends.below (Segment.chainFrom_ne_nil hchain)).2⟩

/-- Whatever has been compiled before, a query of an element by a selector list that compiles
succeeds.  It finds the elements to which the segments of some branch lead from the element, each
once and in document order.  The same query of the whole document finds all of them; if each branch is
one segment, they are the elements among those that are below the element. -/
theorem findFrom_css (tree : Tree) (type : ExpressionType) (requests : List Compiler.Request)
    {element : Address} (hhas : tree.has element = true) {list text : Text}
    (hcompiles : (Compiler.compile .empty false list .css).1 = .ok text)
    (hplain : ∀ branch ∈ branches list, ∀ segments, Segment.chain branch.text = .ok segments →
      ∀ segment ∈ segments, segment.isPlain = true) :
    ∃ found everywhere,
      (findFrom ⟨tree, (Compiler.answers .empty requests).2, type⟩ (some element) list .css).1 =
          .ok found ∧
        (find ⟨tree, (Compiler.answers .empty requests).2, type⟩ list .css).1 = .ok everywhere ∧
        found.Nodup ∧ InDocumentOrder found ∧
        (∀ node, node ∈ found ↔ ∃ branch ∈ branches list, ∃ segments,
          Segment.chain branch.text = .ok segments ∧
            Descends tree .descendant element segments node) ∧
        (∀ node ∈ found, node ∈ everywhere) ∧
        ((∀ branch ∈ branches list, ∀ segments, Segment.chain branch.text = .ok segments →
            segments.length = 1) →
          found = everywhere.filter (· ∈ tree.descendantsOf element)) := by
  have hcoherent := (Compiler.answers_spec Cache.coherent_empty requests).2
  obtain ⟨found, hfound, horder, hmem⟩ :=
    findFrom_descends tree type hcoherent (some element) hhas hcompiles hplain
  obtain ⟨everywhere, heverywhere, horderAll, hmemAll⟩ :=
    findFrom_descends tree type hcoherent none (Tree.has_nil tree) hcompiles hplain
  refine ⟨found, everywhere, hfound, heverywhere, horder.nodup, horder, hmem, ?_, ?_⟩
  · intro node hnode
    obtain ⟨branch, hbranch, segments, hchain, hdescends⟩ := (hmem node).1 hnode
    have hroot := hdescends.from_root (Segment.chainFrom_ne_nil hchain)
    exact (hmemAll node).2 ⟨branch, hbranch, segments, hchain, hroot⟩
  · intro hsingle
    refine InDocumentOrder.eq_of_mem_iff (horderAll.sublist List.filter_sublist) horder ?_
    intro node
    rw [List.mem_filter, decide_eq_true_eq, hmem, hmemAll]
    constructor
    · intro h
      obtain ⟨branch, hbranch, segments, hchain, hdescends⟩ := h
      have hne := Segment.chainFrom_ne_nil hchain
      exact ⟨⟨branch, hbranch, segments, hchain, hdescends.from_root hne⟩,
        hdescends.mem_descendantsOf hne⟩
    · intro h
      obtain ⟨⟨branch, hbranch, segments, hchain, hdescends⟩, hbelow⟩ := h
      obtain ⟨segment, rfl⟩ := List.length_eq_one_iff.1 (hsingle branch hbranch segments hchain)
      have hsatisfied := (descends_singleton.1 hdescends).2
      exact ⟨branch, hbranch, [segment], hchain,
        descends_singleton.2 ⟨Tree.mem_ancestors_of_mem_descendantsOf hbelow, hsatisfied⟩⟩

/-- The list items of the section are found below it by way of their list, and not by way of the
section; the list beside the section is not looked at. -/
theorem findFrom_css_section :
    let tree := (Tree.element "main".toList).withChildren [
      (Tree.element "section".toList).withChild ((Tree.element "ul".toList).withChildren [
        .element "li".toList, (Tree.element "li".toList).withChild (.element "em".toList)]),
      (Tree.element "ul".toList).withChild (.element "li".toList)]
    let cache := (Compiler.answers .empty [⟨false, "ul > li".toList, .css⟩]).2
    let list := "section em, ul > li".toList
    tree.has [.child 0] = true ∧
      (Compiler.compile .empty false list .css).1 = .ok "//section//em|//ul/li".toList ∧
        (∀ branch ∈ branches list, ∀ segments, Segment.chain branch.text = .ok segments →
          ∀ segment ∈ segments, segment.isPlain = true) ∧
          (findFrom ⟨tree, cache, .css⟩ (some [.child 0]) list .css).1 =
            .ok [[.child 0, .child 0, .child 0], [.child 0, .child 0, .child 1]] := by
  intro tree cache list
  let chain (branch : Branch) : List Segment := (Segment.chain branch.text).toOption.getD []
  have hhas : tree.has [.child 0] = true := by decide +kernel
  have hcompiles : (Compiler.compile .empty false list .css).1 =
      .ok "//section//em|//ul/li".toList := by
    decide +kernel
  have hchains : ∀ branch ∈ branches list, (Segment.chain branch.text).isOk = true := by
    decide +kernel
  have hnonempty : ∀ branch ∈ branches list, chain branch ≠ [] := by
    decide +kernel
  have hnames : ∀ branch ∈ branches list, ∀ segment ∈ chain branch, segment.isPlain = true := by
    decide +kernel
  have hplain := forall_segments hnames
  obtain ⟨found, everywhere, hfound, -, -, horder, hmem, -⟩ :=
    findFrom_css tree .css [⟨false, "ul > li".toList, .css⟩] hhas hcompiles hplain
  refine ⟨hhas, hcompiles, hplain, hfound.trans (congrArg Except.ok ?_)⟩
  have hlisting : ∀ node ∈ tree.descendantsOf [.child 0],
      (∃ branch ∈ branches list, Descends tree .descendant [.child 0] (chain branch) node) ↔
        node ∈ [[.child 0, .child 0, .child 0], [.child 0, .child 0, .child 1]] := by
    decide +kernel
  have hbelow : ∀ node ∈ [[.child 0, .child 0, .child 0], [.child 0, .child 0, .child 1]],
      node ∈ tree.descendantsOf [.child 0] := by
    decide +kernel
  refine InDocumentOrder.eq_of_mem_iff ?_ horder fun node => ?_
  · simp [InDocumentOrder]
    decide
  · rw [hmem, exists_segments hchains]
    constructor
    · intro h
      obtain ⟨branch, hbranch, hdescends⟩ := h
      have hnode := hdescends.mem_descendantsOf (hnonempty branch hbranch)
      exact (hlisting node hnode).1 ⟨branch, hbranch, hdescends⟩
    · intro hnode
      exact (hlisting node (hbelow node hnode)).2 hnode

end Document
end TreeSelect
