import TreeSelect.Proofs.Document.Places

/-!
# Cycles of places

`:nth-child(an+b)` is written with the remainder of the place less `b` divided by `a`, both of them
digits of any length.  `find_cycle` says that it finds the places `b`, `a + b`, `2 * a + b` and so on,
counted among the children with the tag, as long as their number stays below `2 ^ 53`; but where `a`
is zero there is no remainder, and not even the place `b` is found (`find_cycle_misses`).
-/

namespace TreeSelect

open TreeSelect.XPath

namespace Document

/-- A cycle finds the elements at the places that are its offset and a multiple of its number more.
The places are counted from one among the child elements with the tag of the node above.  A cycle
whose number is zero finds nothing. -/
theorem find_cycle (tree : Tree) (type : ExpressionType) {tag multiple offset : Text}
    (hchars : ∀ c ∈ tag, isTagChar c = true) (hname : Lexeme.isNameTest tag = true)
    (hmultiple : multiple.isDigits = true) (hoffset : offset.isDigits = true)
    (hfew : ∀ above, (tree.childrenOf above).length < Number.exactLimit) :
    ∃ found, (find ⟨tree, .empty, type⟩ (tag ++ ":nth-child(".toList ++ multiple ++ "n+".toList ++
        offset ++ ")".toList) .css).1 = .ok found ∧
      Address.InDocumentOrder found ∧
        ∀ node, node ∈ found ↔ ∃ above index, node.parent? = some above ∧
          (tree.taggedChildren tag above)[index]? = some node ∧
            Number.digitsValue multiple ≠ 0 ∧ ∃ times,
              index + 1 = Number.digitsValue multiple * times + Number.digitsValue offset := by
  have hdigits : (Position.cycle (Position.withoutLeadingZeros multiple)
      (Position.withoutLeadingZeros offset)).isReadable = true := by
    rw [Position.isReadable, Bool.and_eq_true]
    exact ⟨Position.isDigits_withoutLeadingZeros (Text.isDigits_iff.1 hmultiple).2,
      Position.isDigits_withoutLeadingZeros (Text.isDigits_iff.1 hoffset).2⟩
  obtain ⟨found, hfound, horder, hmem⟩ := find_place tree type hchars hname
    (Pseudo.standsFor_cycle hmultiple hoffset) hdigits
  have htext : tag ++ ":nth-child(".toList ++ multiple ++ "n+".toList ++ offset ++ ")".toList =
      tag ++ Pseudo.text ⟨"nth-child".toList, some (multiple ++ 'n' :: '+' :: offset)⟩ := by
    simp [Pseudo.text, Pieces.pseudoText]
  refine ⟨found, by rw [htext]; exact hfound, horder, fun node => ?_⟩
  have hkeeps : ∀ focus, Path.Placed tree tag focus →
      (Path.Keeps tree (.cycle (Position.withoutLeadingZeros multiple)
        (Position.withoutLeadingZeros offset)) focus ↔
          Number.digitsValue multiple ≠ 0 ∧ ∃ times, focus.position =
            Number.digitsValue multiple * times + Number.digitsValue offset) := by
    intro focus hplaced
    rw [Path.keeps_cycle (hplaced.lt_of_few hfew).1,
      Position.digitsValue_withoutLeadingZeros, Position.digitsValue_withoutLeadingZeros]
  have hplaces := Path.exists_placed_iff tree tag node fun place _ =>
    Number.digitsValue multiple ≠ 0 ∧ ∃ times,
      place = Number.digitsValue multiple * times + Number.digitsValue offset
  rw [hmem, ← hplaces]
  exact exists_congr fun focus => and_congr_right fun hplaced =>
    and_congr_right fun _ => hkeeps focus hplaced

/-- Every second item from the first on, with a zero before the number. -/
theorem find_cycle_second :
    let tree := (Tree.element "ul".toList).withChildren [.element "li".toList,
      .element "p".toList, .element "li".toList, .element "li".toList]
    ∃ found, (find ⟨tree, .empty, .css⟩ "li:nth-child(02n+1)".toList .css).1 = .ok found ∧
      ∀ node, node ∈ found ↔ ∃ above index, node.parent? = some above ∧
        (tree.taggedChildren "li".toList above)[index]? = some node ∧
          Number.digitsValue "02".toList ≠ 0 ∧ ∃ times, index + 1 =
            Number.digitsValue "02".toList * times + Number.digitsValue "1".toList := by
  intro tree
  have hfew : ∀ above, (tree.childrenOf above).length < Number.exactLimit := by
    intro above
    have hnodes : tree.nodes.length = 5 := by decide +kernel
    have hle := tree.length_childrenOf_le above
    have hlimit : 5 < Number.exactLimit := by decide
    omega
  have hchars : ∀ c ∈ "li".toList, isTagChar c = true := by decide +kernel
  obtain ⟨found, hfound, -, hmem⟩ := find_cycle tree .css hchars
    (by decide : Lexeme.isNameTest "li".toList = true)
    (by decide : Text.isDigits "02".toList = true) (by decide : Text.isDigits "1".toList = true)
    hfew
  exact ⟨found, hfound, hmem⟩

/-- A cycle whose number is zero does not find the place that is its offset. -/
theorem find_cycle_misses :
    let tree := (Tree.element "ul".toList).withChildren [.element "li".toList,
      .element "li".toList]
    ∃ found, (find ⟨tree, .empty, .css⟩ "li:nth-child(0n+1)".toList .css).1 = .ok found ∧
      [.child 0] ∉ found ∧ (tree.taggedChildren "li".toList [])[0]? = some [.child 0] ∧
        ∃ times, 0 + 1 = Number.digitsValue "0".toList * times + Number.digitsValue "1".toList := by
  intro tree
  have hstands := Pseudo.standsFor_cycle (by decide : Text.isDigits "0".toList = true)
    (by decide : Text.isDigits "1".toList = true)
  have hchars : ∀ c ∈ "li".toList, isTagChar c = true := by decide +kernel
  obtain ⟨found, hfound, -, hmem⟩ := find_place tree .css hchars
    (by decide : Lexeme.isNameTest "li".toList = true) hstands (by decide)
  refine ⟨found, hfound, fun hfirst => ?_, by decide +kernel, 0, by decide⟩
  obtain ⟨focus, -, -, hkeeps⟩ := (hmem _).1 hfirst
  exact Path.not_keeps_cycle rfl _ hkeeps

end Document
end TreeSelect
