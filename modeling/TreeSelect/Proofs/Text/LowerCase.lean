import Mathlib
import TreeSelect.Proofs.Text.Digits

/-!
# Lower case

Only the letters `A` to `Z` change, and they become letters again (`toNat_toLower`).  So a text in
lower case has its blanks and its signs where the text has them.
-/

namespace TreeSelect.Text

/-! ## Characters -/

theorem isUpper_iff {c : Char} : c.isUpper = true ↔ 65 ≤ c.toNat ∧ c.toNat ≤ 90 := by
  rw [Char.isUpper, decide_eq_true_eq, ge_iff_le, UInt32.le_iff_toNat_le, UInt32.le_iff_toNat_le]
  exact Iff.rfl

/-- The letters `A` to `Z` have the letters `a` to `z` in lower case. -/
theorem toNat_toLower {c : Char} (h : c.isUpper = true) : c.toLower.toNat = c.toNat + 32 := by
  have hle : c.toNat ≤ 90 := (isUpper_iff.1 h).2
  have hvalid : (c.toNat + 32).isValidChar := .inl (by omega)
  rw [Char.toLower_eq_of_isUpper h, Char.toNat_ofNat, if_pos hvalid]

theorem isBlank_toLower (c : Char) : isBlank c.toLower = isBlank c := by
  cases h : c.isUpper with
  | false => rw [Char.toLower_eq_of_not_isUpper (by simp [h])]
  | true =>
    have hupper : CodeRanges.apart [(65, 90)] blankRanges = true := by decide
    have hlower : CodeRanges.apart [(97, 122)] blankRanges = true := by decide
    have hvalue := toNat_toLower h
    have hrange := isUpper_iff.1 h
    have hc : isBlank c = false := by
      apply CodeRanges.contains_eq_false hupper
      simpa [CodeRanges.contains] using hrange
    have hother : isBlank c.toLower = false := by
      apply CodeRanges.contains_eq_false hlower
      simp only [CodeRanges.contains, List.any_cons, List.any_nil, Bool.or_false,
        Bool.and_eq_true, decide_eq_true_eq]
      omega
    rw [hc, hother]

/-! ## Texts -/

/-- What is no letter is not the lower case of another character. -/
theorem not_mem_lower {s : Text} {mark : Char} (hmark : mark.toNat < 97) (h : mark ∉ s) :
    mark ∉ s.lower := by
  intro hmem
  obtain ⟨c, hc, rfl⟩ := List.mem_map.1 hmem
  cases hupper : c.isUpper with
  | false =>
    rw [Char.toLower_eq_of_not_isUpper (by simp [hupper])] at h
    exact h hc
  | true =>
    have hvalue := toNat_toLower hupper
    have hrange := isUpper_iff.1 hupper
    omega

theorem isUpper_of_mem_lower {s : Text} {c : Char} (h : c ∈ s.lower) : c.isUpper = false := by
  obtain ⟨d, -, rfl⟩ := List.mem_map.1 h
  exact Char.isUpper_toLower_eq_false d

theorem lower_of_forall {s : Text} (h : ∀ c ∈ s, c.isUpper = false) : s.lower = s :=
  (List.map_congr_left fun c hc => Char.toLower_eq_of_not_isUpper (by simp [h c hc])).trans
    (List.map_id' s)

theorem isTrimmed_lower {s : Text} (h : s.IsTrimmed) : s.lower.IsTrimmed := by
  constructor
  · intro c hc
    rw [lower, List.head?_map] at hc
    obtain ⟨d, hd, rfl⟩ := Option.map_eq_some_iff.1 hc
    rw [isBlank_toLower]
    exact h.1 d hd
  · intro c hc
    rw [lower, List.getLast?_map] at hc
    obtain ⟨d, hd, rfl⟩ := Option.map_eq_some_iff.1 hc
    rw [isBlank_toLower]
    exact h.2 d hd

end TreeSelect.Text
