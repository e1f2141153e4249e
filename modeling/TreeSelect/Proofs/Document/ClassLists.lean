import TreeSelect.Document.Element
import TreeSelect.Proofs.Path.Meaning

/-!
# Class lists

An element lists its classes, the words of its attribute `class`, each in its first place.  Written
with spaces between them they are read as the same list (`parse_words_canonical`).

A path looks for a class in the text of the attribute, between spaces.  `query_hasClass` says that the
list and the condition agree.
-/

namespace TreeSelect

open TreeSelect.XPath

namespace ClassList

/-! ## First occurrences -/

/-- Each word of a list occurs in it for the first time somewhere. -/
theorem mem_firstOccurrences {word : Text} {words : List Text} :
    word ∈ firstOccurrences words ↔ word ∈ words := by
  induction words with
  | nil => rfl
  | cons first others ih =>
    simp only [firstOccurrences, List.mem_cons, List.mem_filter, ih, decide_eq_true_eq]
    by_cases h : word = first <;> simp [h]

/-- The words that are left keep the order of their first places. -/
theorem pairwise_firstOccurrences (words : List Text) :
    (firstOccurrences words).Pairwise fun first second =>
      words.idxOf first < words.idxOf second := by
  induction words with
  | nil => exact List.Pairwise.nil
  | cons word words ih =>
    have hlater : ∀ {other}, other ∈ (firstOccurrences words).filter (· ≠ word) →
        (word :: words).idxOf other = words.idxOf other + 1 := by
      intro other hother
      have hne : other ≠ word := by simpa using (List.mem_filter.1 hother).2
      exact List.idxOf_cons_ne words hne.symm
    rw [firstOccurrences, List.pairwise_cons]
    constructor
    · intro other hother
      rw [List.idxOf_cons_self, hlater hother]
      exact Nat.succ_pos _
    · refine (ih.filter _).imp_of_mem fun hfirst hsecond hlt => ?_
      rw [hlater hfirst, hlater hsecond]
      exact Nat.succ_lt_succ hlt

theorem nodup_firstOccurrences (words : List Text) : (firstOccurrences words).Nodup := by
  refine (pairwise_firstOccurrences words).imp fun hlt heq => ?_
  rw [heq] at hlt
  exact Nat.lt_irrefl _ hlt

/-- Where no word occurs twice, all are left. -/
theorem firstOccurrences_of_nodup {words : List Text} (h : words.Nodup) :
    firstOccurrences words = words := by
  induction words with
  | nil => rfl
  | cons word words ih =>
    obtain ⟨hnew, hwords⟩ := List.nodup_cons.1 h
    have hothers : ∀ other ∈ words, decide (other ≠ word) = true := by
      intro other hother
      exact decide_eq_true fun heq => hnew (heq ▸ hother)
    rw [firstOccurrences, ih hwords, List.filter_eq_self.2 hothers]

/-! ## Reading and writing -/

theorem mem_classes_parse {value name : Text} :
    name ∈ (parse value).classes ↔ name ∈ value.words := mem_firstOccurrences

/-- The classes in the value of an attribute are its words, which are its runs without blanks that go
on neither to the left nor to the right.  Each is listed once, and they are in the order of their first
places among the words and so in the value, where each stands before every place of those behind it in
the list.  What is written of the list is read as the same list. -/
theorem parse_words_canonical (value : Text) :
    let list := parse value
    list.classes.Nodup ∧
      (∀ name ∈ list.classes, name ≠ [] ∧ ∀ c ∈ name, Text.isBlank c = false) ∧
      (∀ name, name ∈ list.classes ↔ name ∈ value.words) ∧
      (∀ name, name ∈ value.words ↔ ∃ place, value.HasWordAt name place) ∧
      list.classes.Pairwise (fun first second =>
        value.words.idxOf first < value.words.idxOf second) ∧
      list.classes.Pairwise (fun first second => ∀ place, value.HasWordAt second place →
        ∃ earlier < place, value.HasWordAt first earlier) ∧
      parse list.text = list := by
  intro list
  have hnodup : list.classes.Nodup := nodup_firstOccurrences value.words
  have hclasses : ∀ name ∈ list.classes, name ≠ [] ∧ ∀ c ∈ name, Text.isBlank c = false :=
    fun name hname => Text.of_mem_words (mem_classes_parse.1 hname)
  have horder := pairwise_firstOccurrences value.words
  refine ⟨hnodup, hclasses, fun _ => mem_classes_parse, fun _ => Text.mem_words_iff, horder,
    horder.imp fun hlt _ hplace => Text.exists_hasWordAt_lt hlt hplace, ?_⟩
  rw [parse, text, Text.words_intercalate hclasses, firstOccurrences_of_nodup hnodup]

theorem contains_parse {value name : Text} :
    (parse value).contains name = true ↔ name ∈ value.words := by
  simp [contains, mem_classes_parse]

end ClassList

namespace Element

variable {tree : Tree} {element : Address} {name : Text}

/-- An element without the attribute `class` has no classes, as one whose attribute is empty. -/
theorem contains_classList :
    (classList tree element).contains name = true ↔
      name ∈ ((tree.attribute? element "class".toList).getD []).words := by
  rw [classList, attribute?]
  cases tree.attribute? element "class".toList with
  | none => simp [ClassList.contains, Text.words, Text.splitWhere]
  | some value => exact ClassList.contains_parse

/-- The condition of a path on a class, read from its text and evaluated at an element, is true
exactly if the class is in the class list of the element, and that is if it is a word of the
attribute `class`.  The attribute may have any value, and it may be missing. -/
theorem query_hasClass (tree : Tree) (element : Address) (hne : name ≠ [])
    (hname : ∀ c ∈ name, Text.isBlank c = false) (hmark : '\'' ∉ name) :
    (∃ condition, XPath.parse (Path.Predicate.hasClass name).text = .ok condition ∧
      ∀ position size, eval tree ⟨element, position, size⟩ condition =
        .ok (.scalar (.boolean ((classList tree element).contains name)))) ∧
      query tree element (Path.Predicate.hasClass name).text =
        .ok (.scalar (.boolean ((classList tree element).contains name))) ∧
      ((classList tree element).contains name = true ↔
        ∃ value, tree.attribute? element "class".toList = some value ∧ name ∈ value.words) := by
  have hparse := (Path.written_hasClass hmark).parse
  have heval : ∀ position size, eval tree ⟨element, position, size⟩
      (.call "contains".toList [Path.classWordsExpr, .literal (' ' :: name ++ [' '])]) =
        .ok (.scalar (.boolean ((classList tree element).contains name))) := by
    intro position size
    rw [Path.eval_hasClass, Bool.eq_iff_iff.2
      ((Text.includes_collapseBlanks hne hname).trans contains_classList.symm)]
  refine ⟨⟨_, hparse, heval⟩, query_eq_ok hparse (heval 1 1), ?_⟩
  rw [contains_classList]
  cases tree.attribute? element "class".toList with
  | none => simp [Text.words, Text.splitWhere]
  | some value => simp

/-- A word that occurs twice, and a word that only begins another. -/
theorem query_hasClass_twice :
    let tree := (Tree.element "p".toList).withAttribute "class".toList "\tab  b ab".toList
    query tree [] (Path.Predicate.hasClass "ab".toList).text = .ok (.scalar (.boolean true)) ∧
      query tree [] (Path.Predicate.hasClass "a".toList).text = .ok (.scalar (.boolean false)) := by
  intro tree
  have hword := (query_hasClass tree [] (by decide : "ab".toList ≠ []) (by decide) (by decide)).2.1
  have hpart := (query_hasClass tree [] (by decide : "a".toList ≠ []) (by decide) (by decide)).2.1
  have htrue : (classList tree []).contains "ab".toList = true := by decide
  have hfalse : (classList tree []).contains "a".toList = false := by decide
  rw [htrue] at hword
  rw [hfalse] at hpart
  exact ⟨hword, hpart⟩

end Element
end TreeSelect
