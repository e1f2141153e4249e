import TreeSelect.Proofs.Document.History
import TreeSelect.Proofs.Document.Positions
import TreeSelect.Proofs.OrderedMap
import TreeSelect.Proofs.Selector.Conditions

/-!
# Conditions on attributes

A segment keeps its conditions on attributes in a map, so that of several conditions on one attribute
the last one written is enforced and the others are not.  `find_attributes` says what a tag with
conditions behind it finds, and when all of the conditions are enforced.
-/

namespace TreeSelect

open TreeSelect.XPath

namespace WrittenCondition

variable {written : List WrittenCondition} {asked : WrittenCondition}

/-- Whether an element has the attribute of a condition, with the value that is asked for, if one
is. -/
def Holds (tree : Tree) (node : Address) (asked : WrittenCondition) : Prop :=
  (tree.attribute? node asked.name).isSome = true ∧
    ∀ value ∈ asked.value, tree.attribute? node asked.name = some value.2

instance (tree : Tree) (node : Address) (asked : WrittenCondition) :
    Decidable (asked.Holds tree node) :=
  inferInstanceAs (Decidable (_ ∧ _))

/-! ## The last condition on an attribute -/

/-- Whether a condition is written and no later one is on the same attribute. -/
def IsLast (written : List WrittenCondition) (asked : WrittenCondition) : Prop :=
  ∃ before after, written = before ++ asked :: after ∧ asked.name ∉ after.map name

theorem IsLast.mem (h : IsLast written asked) : asked ∈ written := by
  obtain ⟨before, after, rfl, -⟩ := h
  simp

theorem isLast_cons {first : WrittenCondition} {later : List WrittenCondition} :
    IsLast (first :: later) asked ↔
      asked = first ∧ first.name ∉ later.map name ∨ IsLast later asked := by
  constructor
  · rintro ⟨before, after, hwritten, hafter⟩
    rcases List.cons_eq_append_iff.1 hwritten with ⟨rfl, hcons⟩ | ⟨before, rfl, hlater⟩
    · obtain ⟨rfl, rfl⟩ := List.cons.inj hcons
      exact .inl ⟨rfl, hafter⟩
    · exact .inr ⟨before, after, hlater, hafter⟩
  · rintro (⟨rfl, hlater⟩ | ⟨before, after, rfl, hafter⟩)
    · exact ⟨[], later, rfl, hlater⟩
    · exact ⟨first :: before, after, rfl, hafter⟩

/-- Which condition is the last one can be computed. -/
def decideIsLast (asked : WrittenCondition) :
    (written : List WrittenCondition) → Decidable (IsLast written asked)
  | [] => isFalse fun h => List.not_mem_nil h.mem
  | _ :: later =>
    have := decideIsLast asked later
    decidable_of_iff _ isLast_cons.symm

instance (written : List WrittenCondition) (asked : WrittenCondition) :
    Decidable (IsLast written asked) :=
  decideIsLast asked written

/-- The map of the conditions has the last one on each attribute. -/
theorem mem_entries_iff {entry : Text × Option Text} :
    entry ∈ (OrderedMap.ofList (written.map WrittenCondition.entry)).entries ↔
      ∃ asked, IsLast written asked ∧ asked.entry = entry := by
  have hnames : ∀ list : List WrittenCondition,
      (list.map WrittenCondition.entry).map Prod.fst = list.map name := fun list => List.map_map
  rw [OrderedMap.mem_entries_ofList]
  constructor
  · rintro ⟨before, after, hwritten, hafter⟩
    obtain ⟨front, back, rfl, rfl, hback⟩ := List.map_eq_append_iff.1 hwritten
    obtain ⟨asked, later, rfl, rfl, rfl⟩ := List.map_eq_cons_iff.1 hback
    rw [hnames] at hafter
    exact ⟨asked, ⟨front, later, rfl, hafter⟩, rfl⟩
  · rintro ⟨asked, ⟨before, after, rfl, hafter⟩, rfl⟩
    refine ⟨before.map WrittenCondition.entry, after.map WrittenCondition.entry, by simp, ?_⟩
    rw [hnames]
    exact hafter

/-- Each attribute that is named has a last condition. -/
theorem exists_isLast {target : Text} (h : target ∈ written.map name) :
    ∃ last, IsLast written last ∧ last.name = target := by
  induction written with
  | nil => cases h
  | cons first later ih =>
    by_cases hlater : target ∈ later.map name
    · obtain ⟨last, hlast, hname⟩ := ih hlater
      exact ⟨last, isLast_cons.2 (.inr hlast), hname⟩
    · obtain rfl : target = first.name := by
        rw [List.map_cons, List.mem_cons] at h
        exact h.resolve_right hlater
      exact ⟨first, isLast_cons.2 (.inl ⟨rfl, hlater⟩), rfl⟩

/-- Whether the last condition on an attribute asks for the value of each earlier one on it that asks
for a value. -/
def Agree (written : List WrittenCondition) : Prop :=
  ∀ asked ∈ written, ∀ last, IsLast written last → last.name = asked.name →
    ∀ value ∈ asked.value, ∃ other ∈ last.value, other.2 = value.2

/-- Conditions that agree hold if the last ones hold. -/
theorem forall_isLast_iff (h : Agree written) {tree : Tree} {node : Address} :
    (∀ asked, IsLast written asked → asked.Holds tree node) ↔
      ∀ asked ∈ written, asked.Holds tree node := by
  constructor
  · intro hlast asked hasked
    obtain ⟨last, hisLast, hname⟩ := exists_isLast (List.mem_map_of_mem (f := name) hasked)
    obtain ⟨hhas, hvalue⟩ := hlast last hisLast
    rw [hname] at hhas hvalue
    refine ⟨hhas, fun value hmem => ?_⟩
    obtain ⟨other, hother, hsame⟩ := h asked hasked last hisLast hname value hmem
    rw [hvalue other hother, hsame]
  · exact fun hall asked hasked => hall asked hasked.mem

end WrittenCondition

namespace Document

/-- A selector that is one plain segment finds the elements below the root that satisfy the segment. -/
theorem find_segment (tree : Tree) (type : ExpressionType) {s : Text} {segment : Segment}
    (hbranch : branches s = [⟨0, s⟩]) (hparse : Segment.parse s = .ok segment)
    (hmatched : segment.matched = s) (hrelation : segment.relation = .descendant)
    (hplain : segment.isPlain = true) :
    ∃ found, (find ⟨tree, .empty, type⟩ s .css).1 = .ok found ∧ Address.InDocumentOrder found ∧
      ∀ node, node ∈ found ↔ node.parent?.isSome = true ∧ segment.Satisfied tree node := by
  let path : Path := ⟨Path.ofSegments .descendant [segment]⟩
  obtain ⟨hpseudo, -⟩ := Segment.isPlain_iff.1 hplain
  have hnames := Segment.hasClassNames_of_read (Segment.parse_whole hparse hmatched).1
  obtain ⟨hreadable, hstep⟩ := Path.stepOf_isPlain hplain hnames .descendant
  have hpath : Path.ofSelector s .descendant = .ok path :=
    Path.ofSelector_whole hparse hmatched hpseudo hrelation .descendant
  have hpathReadable : path.isReadable = true := by
    simpa [path, Path.isReadable, Path.ofSegments] using hreadable
  have hsteps : ∀ step ∈ path.steps, step.isPlain = true := by
    intro step hmem
    rw [List.mem_singleton.1 hmem]
    exact hstep
  obtain ⟨nodes, heval, hnodes⟩ := Path.eval_expr hsteps rfl tree ⟨[], 1, 1⟩
  obtain ⟨found, hfound, horder, hmem⟩ := find_of_path type hbranch hpath hpathReadable heval
  refine ⟨found, hfound, horder, fun node => ?_⟩
  have hleads : node ∈ nodes ↔ Matches tree [segment] node :=
    (hnodes node).trans (Path.leads_ofSegments_iff (List.cons_ne_nil segment []))
  rw [hmem, hleads, matches_singleton]
  exact and_iff_left_of_imp fun hsatisfied => hsatisfied.2.element

/-- Whether a node has a parent and is an element with a tag, or with any tag for the star. -/
def IsTagged (tree : Tree) (tag : Text) (node : Address) : Prop :=
  node.parent?.isSome = true ∧ tree.kind? node = some .element ∧
    (tag = ['*'] ∨ tree.name? node = some tag)

instance (tree : Tree) (tag : Text) (node : Address) : Decidable (IsTagged tree tag node) :=
  inferInstanceAs (Decidable (_ ∧ _))

/-- The segment of a tag and conditions asks for the tag and the last condition on each attribute. -/
theorem satisfied_conditions {tree : Tree} {tag : Text} (hne : tag ≠ [])
    {written : List WrittenCondition} {node : Address} :
    node.parent?.isSome = true ∧ (Segment.ofConditions tag written).Satisfied tree node ↔
      IsTagged tree tag node ∧
        ∀ asked, WrittenCondition.IsLast written asked → asked.Holds tree node := by
  have htag := Segment.tag_ofConditions hne written
  have hentry : ∀ asked : WrittenCondition, asked.Holds tree node ↔
      (tree.attribute? node asked.entry.1).isSome = true ∧
        ∀ value ∈ asked.entry.2, tree.attribute? node asked.entry.1 = some value := by
    rintro ⟨name, _ | value⟩ <;> simp [WrittenCondition.Holds, WrittenCondition.entry]
  constructor
  · rintro ⟨hparent, helement, hname, -, hattributes, -⟩
    rw [htag] at hname
    refine ⟨⟨hparent, helement, hname⟩, fun asked hasked => (hentry asked).2 ?_⟩
    exact hattributes _ (WrittenCondition.mem_entries_iff.2 ⟨asked, hasked, rfl⟩)
  · rintro ⟨⟨hparent, helement, hname⟩, hattributes⟩
    refine ⟨hparent, helement, by rwa [htag], ?_, ?_, ?_⟩
    · exact fun value hvalue => absurd hvalue (Option.not_mem_none value)
    · intro entry hmem
      obtain ⟨asked, hasked, rfl⟩ := WrittenCondition.mem_entries_iff.1 hmem
      exact (hentry asked).1 (hattributes asked hasked)
    · exact fun name hname => absurd hname List.not_mem_nil

/-- A tag with conditions behind it, in one branch, finds the elements that have the tag and that the
last conditions hold for. -/
theorem find_lastConditions (tree : Tree) (type : ExpressionType) {tag : Text}
    {written : List WrittenCondition} (hchars : ∀ c ∈ tag, isTagChar c = true)
    (hname : Lexeme.isNameTest tag = true) (hne : written ≠ [])
    (hwritable : ∀ asked ∈ written, asked.IsWritable)
    (hnames : ∀ asked ∈ written, Lexeme.isName asked.name = true)
    (hbranch : branches (tag ++ bracketed (written.map WrittenCondition.text)) =
      [⟨0, tag ++ bracketed (written.map WrittenCondition.text)⟩]) :
    ∃ found,
      (find ⟨tree, .empty, type⟩ (tag ++ bracketed (written.map WrittenCondition.text)) .css).1 =
        .ok found ∧ Address.InDocumentOrder found ∧
      ∀ node, node ∈ found ↔ IsTagged tree tag node ∧
        ∀ asked, WrittenCondition.IsLast written asked → asked.Holds tree node := by
  have htag : tag ≠ [] := by
    rintro rfl
    cases hname
  have hparse := Segment.parse_conditions htag hchars hne hwritable
  have hplain : (Segment.ofConditions tag written).isPlain = true := by
    refine Segment.isPlain_iff.2 ⟨rfl, by rwa [Segment.tag_ofConditions htag], ?_⟩
    intro entry hmem
    obtain ⟨asked, hasked, rfl⟩ := WrittenCondition.mem_entries_iff.1 hmem
    exact hnames asked hasked.mem
  obtain ⟨found, hfound, horder, hmem⟩ := find_segment tree type hbranch hparse
    (text_conditionPieces tag written) rfl hplain
  exact ⟨found, hfound, horder, fun node => by rw [hmem, satisfied_conditions htag]⟩

/-- A tag with conditions on attributes behind it is one branch if the values stay together.  As one
branch it finds, in document order and whatever has been asked of the document before, the elements
below the root that have the tag and that the last condition on each attribute holds for.  So all
conditions are enforced where the last one on an attribute asks for the value of the earlier ones; else
the earlier ones are replaced. -/
theorem find_attributes (document : Document) {tag : Text} {written : List WrittenCondition}
    (hcache : document.cache.Coherent) (hchars : ∀ c ∈ tag, isTagChar c = true)
    (hname : Lexeme.isNameTest tag = true) (hne : written ≠ [])
    (hwritable : ∀ asked ∈ written, asked.IsWritable)
    (hnames : ∀ asked ∈ written, Lexeme.isName asked.name = true) :
    let selector := tag ++ bracketed (written.map WrittenCondition.text)
    (WrittenCondition.StayTogether written → branches selector = [⟨0, selector⟩]) ∧
      (branches selector = [⟨0, selector⟩] →
        ∃ found, (document.find selector .css).1 = .ok found ∧ Address.InDocumentOrder found ∧
          (∀ node, node ∈ found ↔ IsTagged document.tree tag node ∧
            ∀ asked, WrittenCondition.IsLast written asked → asked.Holds document.tree node) ∧
          (WrittenCondition.Agree written → ∀ node, node ∈ found ↔
            IsTagged document.tree tag node ∧ ∀ asked ∈ written, asked.Holds document.tree node)) := by
  intro selector
  have htag : tag ≠ [] := by
    rintro rfl
    cases hname
  refine ⟨branches_conditions htag hchars hwritable, fun hbranch => ?_⟩
  obtain ⟨found, hfound, horder, hmem⟩ := find_lastConditions document.tree document.defaultType
    hchars hname hne hwritable hnames hbranch
  have hfresh := (forgetful_findFrom none selector .css document hcache).1
  refine ⟨found, hfresh.trans hfound, horder, hmem, fun hagree node => ?_⟩
  rw [hmem, WrittenCondition.forall_isLast_iff hagree]

/-- A condition that is written twice, with a value between marks of the other kind and one that holds
a comma. -/
theorem find_attributes_twice :
    let tree := (Tree.element "main".toList).withChildren [
      ((Tree.element "p".toList).withAttribute "x".toList "2".toList).withAttribute
        "title".toList "a, \"b\"".toList,
      (Tree.element "p".toList).withAttribute "x".toList "2".toList]
    ∃ found, (find ⟨tree, .empty, .css⟩ "p[x=\"1\"][title='a, \"b\"'][x=\"2\"]".toList .css).1 =
      .ok found ∧ [.child 0] ∈ found ∧ [.child 1] ∉ found := by
  intro tree
  let written : List WrittenCondition := [⟨"x".toList, some (.double, "1".toList)⟩,
    ⟨"title".toList, some (.single, "a, \"b\"".toList)⟩, ⟨"x".toList, some (.double, "2".toList)⟩]
  have hchars : ∀ c ∈ "p".toList, isTagChar c = true := by decide +kernel
  have hwritable : ∀ asked ∈ written, asked.IsWritable := by decide +kernel
  obtain ⟨htogether, hfind⟩ := find_attributes ⟨tree, .empty, .css⟩ Cache.coherent_empty hchars
    (by decide +kernel) (List.cons_ne_nil _ _) hwritable (by decide +kernel)
  obtain ⟨found, hfound, -, hmem, -⟩ := hfind (htogether (.inl (by decide +kernel)))
  have hfirst : ∀ asked ∈ written, WrittenCondition.IsLast written asked →
      asked.Holds tree [.child 0] := by decide +kernel
  refine ⟨found, hfound, (hmem _).2 ⟨by decide +kernel,
    fun asked hasked => hfirst asked hasked.mem hasked⟩, fun hsecond => ?_⟩
  have htitle : WrittenCondition.IsLast written ⟨"title".toList, some (.single, "a, \"b\"".toList)⟩ :=
    by decide +kernel
  exact absurd (((hmem _).1 hsecond).2 _ htitle) (by decide +kernel)

/-- A condition on the value that a condition without value replaces: a paragraph is found that it
does not hold for. -/
theorem find_attributes_replaced :
    let tree := (Tree.element "main".toList).withChildren [
      (Tree.element "p".toList).withAttribute "x".toList "2".toList]
    let written : List WrittenCondition :=
      [⟨"x".toList, some (.single, "1".toList)⟩, ⟨"x".toList, none⟩]
    "p".toList ++ bracketed (written.map WrittenCondition.text) = "p[x='1'][x]".toList ∧
      ∃ found, (find ⟨tree, .empty, .css⟩ "p[x='1'][x]".toList .css).1 = .ok found ∧
        [.child 0] ∈ found ∧ ¬ ∀ asked ∈ written, asked.Holds tree [.child 0] := by
  intro tree written
  have hchars : ∀ c ∈ "p".toList, isTagChar c = true := by decide +kernel
  have hwritable : ∀ asked ∈ written, asked.IsWritable := by decide +kernel
  obtain ⟨found, hfound, -, hmem⟩ := find_lastConditions tree .css hchars (by decide +kernel)
    (List.cons_ne_nil _ _) hwritable (by decide +kernel) (by decide +kernel)
  have hlast : ∀ asked ∈ written, WrittenCondition.IsLast written asked →
      asked.Holds tree [.child 0] := by decide +kernel
  refine ⟨by decide, found, hfound, (hmem _).2 ⟨by decide +kernel,
    fun asked hasked => hlast asked hasked.mem hasked⟩, by decide +kernel⟩

end Document
end TreeSelect
