import TreeSelect.Document.Basic
import TreeSelect.Proofs.Compiler.Joined
import TreeSelect.Proofs.Selector.Branches

/-!
# What a selector finds in a document

A query compiles a selector list to a text, reads the text as an XPath expression and evaluates the
expression at the root.  `find_css` says what comes out of all this in terms of the selector list and
the tree alone.
-/

namespace TreeSelect

open TreeSelect.XPath TreeSelect.XPath.Parser TreeSelect.XPath.Grammar
open Address (InDocumentOrder)

namespace Document

/-- Where the expression of a query gives nodes, the query finds the elements among them. -/
theorem selectElements_of_eval {tree : Tree} {element : Address} {text : Text} {expr : Expr}
    {nodes : List Address} (hparse : XPath.parse text = .ok expr)
    (heval : eval tree ⟨element, 1, 1⟩ expr = .ok (.nodes nodes)) :
    selectElements tree element text =
      .ok (nodes.filter fun node => tree.kind? node = some .element) := by
  unfold selectElements
  rw [query_eq_ok hparse heval]

/-- Where the expression of a query gives nodes, the query finds the elements among them in document
order. -/
theorem selectElements_inDocumentOrder {tree : Tree} {element : Address} {text : Text} {expr : Expr}
    {nodes : List Address} (hhas : tree.has element = true) (hparse : XPath.parse text = .ok expr)
    (heval : eval tree ⟨element, 1, 1⟩ expr = .ok (.nodes nodes)) :
    ∃ found, selectElements tree element text = .ok found ∧ InDocumentOrder found ∧
      ∀ node, node ∈ found ↔ node ∈ nodes ∧ tree.kind? node = some .element := by
  have horder := (eval_nodes hhas expr heval).2
  refine ⟨_, selectElements_of_eval hparse heval, horder.sublist List.filter_sublist, ?_⟩
  intro node
  rw [List.mem_filter, decide_eq_true_eq]

theorem selectElements_eq_ok {tree : Tree} {text : Text} {expr : Expr} {nodes : List Address}
    (hparse : XPath.parse text = .ok expr)
    (heval : eval tree ⟨[], 1, 1⟩ expr = .ok (.nodes nodes)) :
    ∃ found, selectElements tree [] text = .ok found ∧ InDocumentOrder found ∧
      ∀ node, node ∈ found ↔ node ∈ nodes ∧ tree.kind? node = some .element :=
  selectElements_inDocumentOrder (Tree.has_nil tree) hparse heval

/-- What segments match is among the descendants of the root. -/
theorem mem_descendants_of_matches {tree : Tree} {segments : List Segment} {node : Address}
    (h : Matches tree segments node) : node ∈ tree.descendants := by
  obtain ⟨hparent, helement⟩ := h.element
  rw [Tree.mem_descendants]
  refine ⟨?_, Tree.subtree?_isSome_of_element helement⟩
  intro hroot
  rw [hroot] at hparent
  cases hparent

/-- A query by a selector list that compiles succeeds, and it finds exactly the elements that some
branch matches, each once and in document order.  The list may ask for tags, ids, classes and
attributes whose names are names of XPath; the values of ids and attributes may be any text. -/
theorem find_css (tree : Tree) (type : ExpressionType) {list text : Text}
    (hcompiles : (Compiler.compile .empty false list .css).1 = .ok text)
    (hplain : ∀ branch ∈ branches list, ∀ segments, Segment.chain branch.text = .ok segments →
      ∀ segment ∈ segments, segment.isPlain = true) :
    ∃ found, (find ⟨tree, .empty, type⟩ list .css).1 = .ok found ∧
      found.Nodup ∧ InDocumentOrder found ∧
        ∀ node, node ∈ found ↔ ∃ branch ∈ branches list, ∃ segments,
          Segment.chain branch.text = .ok segments ∧ Matches tree segments node := by
  have hdirect := (Compiler.compileBranches_spec list Cache.coherent_empty (branches list)).1
  obtain ⟨texts, htexts, hjoined⟩ := Attempt.map_eq_ok.1 hcompiles
  rw [hdirect] at htexts
  obtain ⟨parts, hparts, hlength, hwritten, hunion⟩ := branches_spec htexts hplain
  obtain ⟨nodes, hnodes, hmem⟩ := hunion tree ⟨[], 1, 1⟩
  have hne : parts ≠ [] := by
    intro hnil
    rw [hnil] at hlength
    exact branches_ne_nil list (List.eq_nil_of_length_eq_zero hlength.symm)
  obtain ⟨joined, heval, hjoinedMem⟩ := eval_joinedExpr hnodes
  have hparse := (written_joined hne hwritten).parse
  rw [hparts] at hparse
  obtain ⟨found, hfound, horder, hfoundMem⟩ := selectElements_eq_ok hparse heval
  refine ⟨found, ?_, horder.nodup, horder, fun node => ?_⟩
  · rw [find, findFrom]
    simp only [Option.isSome_none, hcompiles]
    rw [← hjoined]
    exact hfound
  · rw [hfoundMem, hjoinedMem, hmem]
    constructor
    · intro h
      exact h.1
    · intro hcase
      rcases hcase with ⟨branch, hbranch, segments, hchain, hmatches⟩
      exact ⟨⟨branch, hbranch, segments, hchain, hmatches⟩, hmatches.element.2⟩

/-- Three branches, of which two find the same element, and a value with quote marks of both kinds. -/
theorem find_css_quotes :
    let tree := Tree.document.withChild ((Tree.element "ul".toList).withChildren [
      ((Tree.element "li".toList).withAttribute "class".toList "a b".toList).withAttribute
        "title".toList "it's \"x\"".toList,
      (Tree.element "li".toList).withChild (.element "em".toList),
      (Tree.element "li".toList).withAttribute "class".toList "b".toList])
    let list := "ul > li.b[title], em, ul li[title=it's \"x\"]".toList
    let text := "//ul/li[(@title) and ".toList ++
      "(contains(concat(' ', normalize-space(@class), ' '), ' b '))]".toList ++
      "|//em|//ul//li[@title=concat('it', \"'\", 's \"x\"')]".toList
    (Compiler.compile .empty false list .css).1 = .ok text ∧
      (∀ branch ∈ branches list, ∀ segments, Segment.chain branch.text = .ok segments →
        ∀ segment ∈ segments, segment.isPlain = true) ∧
        (find ⟨tree, .empty, .css⟩ list .css).1 =
          .ok [[.child 0, .child 0], [.child 0, .child 1, .child 0]] := by
  intro tree list text
  let chain (branch : Branch) : List Segment := (Segment.chain branch.text).toOption.getD []
  have hcompiles : (Compiler.compile .empty false list .css).1 = .ok text := by
    decide +kernel
  have hchains : ∀ branch ∈ branches list, (Segment.chain branch.text).isOk = true := by
    decide +kernel
  have hnames : ∀ branch ∈ branches list, ∀ segment ∈ chain branch, segment.isPlain = true := by
    decide +kernel
  have hplain := forall_segments hnames
  obtain ⟨found, hfound, -, horder, hmem⟩ := find_css tree .css hcompiles hplain
  refine ⟨hcompiles, hplain, hfound.trans (congrArg Except.ok ?_)⟩
  have hlisting : ∀ node ∈ tree.descendants,
      (∃ branch ∈ branches list, Matches tree (chain branch) node) ↔
        node ∈ [[.child 0, .child 0], [.child 0, .child 1, .child 0]] := by
    decide +kernel
  have hbelow : ∀ node ∈ [[.child 0, .child 0], [.child 0, .child 1, .child 0]],
      node ∈ tree.descendants := by
    decide +kernel
  refine InDocumentOrder.eq_of_mem_iff ?_ horder fun node => ?_
  · simp [InDocumentOrder]
    decide
  · rw [hmem, exists_segments hchains]
    constructor
    · intro h
      obtain ⟨branch, hbranch, hmatches⟩ := h
      exact (hlisting node (mem_descendants_of_matches hmatches)).1 ⟨branch, hbranch, hmatches⟩
    · intro hnode
      exact (hlisting node (hbelow node hnode)).2 hnode

end Document
end TreeSelect
