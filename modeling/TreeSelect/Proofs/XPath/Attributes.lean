import TreeSelect.Proofs.Path.Meaning
import TreeSelect.Proofs.XPath.NamedSteps
import TreeSelect.Selector.Segment

/-!
# Attributes as they were set

A tree is put together step by step: attributes are set, and children and texts are added, in any
order.  `attributes_built` leaves of all this the attributes, one insertion after another, and
`OrderedMap.Collects` says what these come to.

There are three ways to the value of an attribute: the map that holds it, the look-up at a node of a
tree, and a query for the attribute node.  `insertions_collected` is the main theorem: they agree on
the last value that was set.
-/

namespace TreeSelect

open TreeSelect.XPath

/-! ## Putting trees together -/

/-- One step of putting a tree together. -/
inductive Addition
  | «attribute» (name value : Text)
  | child (added : Tree)
  | children (added : List Tree)
  | text (value : Text)

namespace Addition

/-- The tree after the step. -/
def add (tree : Tree) : Addition → Tree
  | .attribute name value => tree.withAttribute name value
  | .child added => tree.withChild added
  | .children added => tree.withChildren added
  | .text value => tree.withText value

/-- The attribute that a step sets, if it sets one. -/
def attribute? : Addition → Option (Text × Text)
  | .attribute name value => some (name, value)
  | _ => none

end Addition

namespace Tree

/-- The tree that is put together by several steps from a node without attributes and children. -/
def built (label : Label) (additions : List Addition) : Tree :=
  additions.foldl Addition.add (.node label .empty [])

/-- Of what is added to a tree only the attributes change its attributes. -/
theorem attributes_foldl_add (tree : Tree) (additions : List Addition) :
    (additions.foldl Addition.add tree).attributes =
      (additions.filterMap Addition.attribute?).foldl
        (fun map entry => map.insert entry.1 entry.2) tree.attributes := by
  induction additions generalizing tree with
  | nil => rfl
  | cons addition additions ih =>
    rw [List.foldl_cons, ih, List.filterMap_cons]
    cases addition <;> rfl

theorem attributes_built (label : Label) (additions : List Addition) :
    (built label additions).attributes = .ofList (additions.filterMap Addition.attribute?) :=
  attributes_foldl_add (.node label .empty []) additions

/-! ## Attributes at a node -/

variable {tree subtree : Tree} {node : Address}

/-- The attribute nodes are the entries of the map, in the same order. -/
theorem map_at?_attributesOf (h : tree.subtree? node = some subtree) :
    (tree.attributesOf node).map tree.at? =
      subtree.attributes.entries.map fun entry => some (.attribute entry.1 entry.2) := by
  apply List.ext_getElem
  · simp [attributesOf, h, OrderedMap.size]
  · intro index hlt hlt'
    have hentry := List.getElem?_eq_getElem (l := subtree.attributes.entries) (by simpa using hlt')
    simp [attributesOf, h, at?_attribute, hentry]

theorem length_attributesOf (h : tree.subtree? node = some subtree) :
    (tree.attributesOf node).length = subtree.attributes.size := by
  simp [attributesOf, h]

theorem attribute?_of_subtree? (h : tree.subtree? node = some subtree) (name : Text) :
    tree.attribute? node name = subtree.attributes.get? name := by
  rw [attribute?, h, Option.bind_some]

end Tree

/-- The query for the attributes with a name finds none, or the one whose value is looked up. -/
theorem query_attribute (tree : Tree) (node : Address) {name : Text}
    (h : Lexeme.isName name = true) :
    ∃ found, query tree node ("attribute::".toList ++ name) = .ok (.nodes found) ∧
      found.map tree.valueAt = (tree.attribute? node name).toList := by
  have hparse : parse ("attribute::".toList ++ name) = .ok (Path.attributeExpr name) :=
    parse_namedStep .attribute h
  rcases Path.eval_attributeExpr tree ⟨node, 1, 1⟩ name with
    ⟨hnone, heval⟩ | ⟨found, hsome, heval⟩
  · exact ⟨[], query_eq_ok hparse heval, by rw [hnone]; rfl⟩
  · exact ⟨[found], query_eq_ok hparse heval, by rw [hsome]; rfl⟩

/-- Insertions one after another leave each key once, in the order of the first insertions, with the
value of its last insertion, and nothing is looked up for other keys.  This holds of conditions on
attributes and of the attributes of a tree that is put together in any way; and wherever this tree
stands in another, its attribute nodes are the entries, and the look-up of a name and the query for
it give the last value. -/
theorem insertions_collected :
    (∀ insertions : List (Text × Option Text),
      (OrderedMap.ofList insertions : AttributeConditions).Collects insertions) ∧
    ∀ (label : Label) (additions : List Addition),
      let insertions := additions.filterMap Addition.attribute?
      let built := Tree.built label additions
      built.attributes.Collects insertions ∧
      ∀ (tree : Tree) (node : Address), tree.subtree? node = some built →
        (tree.attributesOf node).map tree.at? =
            built.attributes.entries.map (fun entry => some (.attribute entry.1 entry.2)) ∧
          (tree.attributesOf node).length = (insertions.map Prod.fst).toFinset.card ∧
          (∀ name, tree.attribute? node name = OrderedMap.lastValue? insertions name) ∧
          ∀ name, Lexeme.isName name = true →
            ∃ found, query tree node ("attribute::".toList ++ name) = .ok (.nodes found) ∧
              found.map tree.valueAt = (OrderedMap.lastValue? insertions name).toList := by
  refine ⟨OrderedMap.collects_ofList, fun label additions => ?_⟩
  have hcollects := OrderedMap.collects_ofList (additions.filterMap Addition.attribute?)
  rw [← Tree.attributes_built label additions] at hcollects
  refine ⟨hcollects, fun tree node hthere => ?_⟩
  have hlookup : ∀ name, tree.attribute? node name =
      OrderedMap.lastValue? (additions.filterMap Addition.attribute?) name := by
    intro name
    rw [Tree.attribute?_of_subtree? hthere, hcollects.get?_eq]
  refine ⟨Tree.map_at?_attributesOf hthere, ?_, hlookup, fun name hname => ?_⟩
  · rw [Tree.length_attributesOf hthere, hcollects.size_eq]
  · rw [← hlookup]
    exact query_attribute tree node hname

/-- A link whose target is set, then its title, then its target again behind a child. -/
theorem insertions_collected_link :
    let additions := [Addition.attribute "href".toList "/x".toList,
      .attribute "xlink:title".toList "t".toList, .text "a".toList,
      .attribute "href".toList "/y".toList]
    let link := Tree.built (.element "a".toList) additions
    let tree := Tree.document.withChildren [.text "b".toList, link]
    tree.subtree? [.child 1] = some link ∧ Lexeme.isName "href".toList = true ∧
      link.attributes.entries = [("href".toList, "/y".toList),
        ("xlink:title".toList, "t".toList)] ∧
      (tree.attributesOf [.child 1]).length = 2 ∧
      tree.attribute? [.child 1] "href".toList = some "/y".toList ∧
      tree.attribute? [.child 1] "id".toList = none ∧
      ∃ found, query tree [.child 1] "attribute::href".toList = .ok (.nodes found) ∧
        found.map tree.valueAt = ["/y".toList] := by
  intro additions link tree
  have hthere : tree.subtree? [.child 1] = some link := rfl
  obtain ⟨-, hlength, hlookup, hquery⟩ :=
    (insertions_collected.2 (.element "a".toList) additions).2 tree [.child 1] hthere
  refine ⟨hthere, by decide, by decide, hlength.trans (by decide), ?_, ?_, ?_⟩
  · rw [hlookup]
    decide
  · rw [hlookup]
    decide
  · exact hquery "href".toList (by decide)

end TreeSelect
