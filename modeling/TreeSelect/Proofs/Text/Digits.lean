import TreeSelect.Proofs.Attempt
import TreeSelect.Proofs.Path.Expression
import TreeSelect.Proofs.Selector.ClassNames
import TreeSelect.Selector.PseudoClass

/-!
# Trimmed texts and numbers written in digits

The argument of `:nth-child` is trimmed, compared in lower case with words and freed of zeros at the
front.  Digits come out of all this as digits (`isReadable_of_ofPseudo`).
-/

namespace TreeSelect

namespace Text

/-! ## Trimming -/

/-- Whether a text has no blanks at its ends. -/
def IsTrimmed (s : Text) : Prop :=
  (∀ c ∈ s.head?, isBlank c = false) ∧ ∀ c ∈ s.getLast?, isBlank c = false

theorem trim_of_isTrimmed {s : Text} (h : s.IsTrimmed) : s.trim = s := by
  have hfirst : s.dropWhile isBlank = s := (takeWhile_of_head h.1).2
  have hlast : s.reverse.dropWhile isBlank = s.reverse :=
    (takeWhile_of_head fun c hc => h.2 c (by rwa [List.head?_reverse] at hc)).2
  rw [trim, trimStart, trimEnd, hfirst, hlast, List.reverse_reverse]

theorem isTrimmed_of_forall {s : Text} (h : ∀ c ∈ s, isBlank c = false) : s.IsTrimmed :=
  ⟨fun c hc => h c (List.mem_of_head? hc), fun c hc => h c (List.mem_of_getLast? hc)⟩

/-! ## Digits -/

theorem isDigits_iff {s : Text} : s.isDigits = true ↔ s ≠ [] ∧ ∀ c ∈ s, c.isDigit = true := by
  rw [isDigits, Bool.and_eq_true, List.all_eq_true, Bool.not_eq_true', List.isEmpty_eq_false_iff]

theorem isDigit_iff {c : Char} : c.isDigit = true ↔ 48 ≤ c.toNat ∧ c.toNat ≤ 57 :=
  Char.isDigit_iff_toNat

theorem isBlank_of_isDigit {c : Char} (h : c.isDigit = true) : isBlank c = false := by
  have happart : CodeRanges.apart [(48, 57)] blankRanges = true := by decide
  apply CodeRanges.contains_eq_false happart
  simpa [CodeRanges.contains] using isDigit_iff.1 h

/-- Digits have no case. -/
theorem toLower_of_isDigit {c : Char} (h : c.isDigit = true) : c.toLower = c := by
  have hsmall : c.toNat ≤ 57 := (isDigit_iff.1 h).2
  unfold Char.toLower
  rw [dif_neg]
  intro hupper
  have hlarge : 65 ≤ c.toNat := UInt32.le_iff_toNat_le.1 hupper.1
  omega

end Text

namespace Position

/-- A number without the zeros at its front is still written in digits. -/
theorem isDigits_withoutLeadingZeros {digits : Text} (h : ∀ c ∈ digits, c.isDigit = true) :
    (withoutLeadingZeros digits).isDigits = true := by
  unfold withoutLeadingZeros
  split
  case h_1 => decide
  case h_2 rest hrest =>
    rw [Text.isDigits_iff]
    refine ⟨hrest, fun c hc => h c ?_⟩
    exact (List.dropWhile_suffix _).subset hc

/-- Zeros at the front of a number do not count. -/
theorem digitsValue_withoutLeadingZeros (digits : Text) :
    Number.digitsValue (withoutLeadingZeros digits) = Number.digitsValue digits := by
  have hdrop : Number.digitsValue (digits.dropWhile (· == '0')) = Number.digitsValue digits := by
    induction digits with
    | nil => rfl
    | cons c digits ih =>
      by_cases hc : c = '0'
      · subst hc
        exact ih
      · simp [hc]
  unfold withoutLeadingZeros
  split
  case h_1 hnil =>
    rw [← hdrop, hnil]
    rfl
  case h_2 => exact hdrop

/-- What begins with a digit is none of the words for positions. -/
theorem lower_ne_of_isDigit {argument word : Text} (h : ∀ c ∈ argument.head?, c.isDigit = true)
    (hne : argument ≠ []) (hword : ∀ c ∈ word.head?, c.isDigit = false) :
    argument.lower ≠ word := by
  obtain ⟨c, rest, rfl⟩ := List.exists_cons_of_ne_nil hne
  have hdigit : c.isDigit = true := h c rfl
  intro hlower
  have hhead : c ∈ word.head? := by
    rw [← hlower, Text.lower, List.map_cons, Text.toLower_of_isDigit hdigit]
    rfl
  have hletter := hword c hhead
  rw [hdigit] at hletter
  cases hletter

/-- A number is taken as a position. -/
theorem ofNthChild_digits {digits : Text} (h : digits.isDigits = true) :
    ofNthChild digits = .index (withoutLeadingZeros digits) := by
  obtain ⟨hne, hdigits⟩ := Text.isDigits_iff.1 h
  have hword : ∀ word : Text, (∀ c ∈ word.head?, c.isDigit = false) → digits.lower ≠ word :=
    fun word => lower_ne_of_isDigit (fun c hc => hdigits c (List.mem_of_head? hc)) hne
  rw [ofNthChild, if_neg (hword _ (by simp)), if_neg (hword _ (by simp)), if_pos]
  exact List.all_eq_true.2 hdigits

theorem isDecimalDigit_of_isDigit {c : Char} (h : c.isDigit = true) :
    Text.isDecimalDigit c = true := by
  have hrange := Text.isDigit_iff.1 h
  simp [Text.isDecimalDigit, CodeRanges.contains, Text.digitRanges]
  omega

/-- A multiple and an offset in digits are taken as a cycle. -/
theorem ofNthChild_cycle {multiple offset : Text} (hmultiple : multiple.isDigits = true)
    (hoffset : offset.isDigits = true) :
    ofNthChild (multiple ++ 'n' :: '+' :: offset) =
      .cycle (withoutLeadingZeros multiple) (withoutLeadingZeros offset) := by
  obtain ⟨hne, hdigits⟩ := Text.isDigits_iff.1 hmultiple
  obtain ⟨hneOffset, hdigitsOffset⟩ := Text.isDigits_iff.1 hoffset
  have hhead : ∀ c ∈ (multiple ++ 'n' :: '+' :: offset).head?, c.isDigit = true := by
    obtain ⟨first, rest, rfl⟩ := List.exists_cons_of_ne_nil hne
    intro c hc
    cases hc
    exact hdigits first List.mem_cons_self
  have hword : ∀ word : Text, (∀ c ∈ word.head?, c.isDigit = false) →
      (multiple ++ 'n' :: '+' :: offset).lower ≠ word :=
    fun word => lower_ne_of_isDigit hhead (by simp)
  have hletter : ∀ c ∈ ('n' :: '+' :: offset : Text).head?, Text.isDecimalDigit c = false := by
    intro c hc
    cases hc
    decide
  have hnumber : ∀ c ∈ multiple, Text.isDecimalDigit c = true :=
    fun c hc => isDecimalDigit_of_isDigit (hdigits c hc)
  obtain ⟨htake, hdrop⟩ := Text.takeWhile_run hnumber hletter
  have hblank : offset.dropWhile Text.isBlank = offset :=
    (Text.takeWhile_of_head fun c hc =>
      Text.isBlank_of_isDigit (hdigitsOffset c (List.mem_of_head? hc))).2
  have hall : offset.all Text.isDecimalDigit = true :=
    List.all_eq_true.2 fun c hc => isDecimalDigit_of_isDigit (hdigitsOffset c hc)
  have hcycle : cycle? (multiple ++ 'n' :: '+' :: offset) = some (multiple, offset) := by
    have hplus : ('+' :: offset).dropWhile Text.isBlank = '+' :: offset := by
      rw [List.dropWhile_cons_of_neg (by decide)]
    simp only [cycle?, htake, hdrop, hplus, hblank, hall]
    rw [if_pos ⟨hne, hneOffset, trivial⟩]
  have hletters : Text.allDigits (multiple ++ 'n' :: '+' :: offset) = false := by
    rw [Text.allDigits, List.all_append]
    simp
  rw [ofNthChild, if_neg (hword _ (by simp)), if_neg (hword _ (by simp)), hletters, hcycle]
  rfl

/-- The positions of a pseudo-class. -/
theorem cases_of_ofPseudo {name : Text} {argument : Option Text} {position : Position}
    (h : ofPseudo name argument = .ok position) :
    position = .first ∨ position = .last ∨ ∃ argument, position = ofNthChild argument := by
  unfold ofPseudo at h
  obtain ⟨kind, -, h⟩ := Attempt.bind_eq_ok.1 h
  cases kind with
  | firstChild =>
    cases h
    exact .inl rfl
  | lastChild =>
    cases h
    exact .inr (.inl rfl)
  | nthChild =>
    simp only at h
    split at h
    case h_1 => cases h
    case h_2 =>
      cases h
      exact .inr (.inr ⟨_, rfl⟩)

/-- Whether a position is none that the caller wrote as a condition, and no cycle in digits of
another script. -/
def isSpelt : Position → Bool
  | .cycle multiple offset => multiple.isDigits && offset.isDigits
  | .raw _ => false
  | _ => true

/-- A number that is taken as a position is written in digits, so that only the numbers of cycles may
not be. -/
theorem isReadable_of_ofPseudo {name : Text} {argument : Option Text} {position : Position}
    (h : ofPseudo name argument = .ok position) (hspelt : position.isSpelt = true) :
    position.isReadable = true := by
  rcases cases_of_ofPseudo h with rfl | rfl | ⟨argument, rfl⟩
  · rfl
  · rfl
  revert hspelt
  unfold ofNthChild
  split
  case isTrue => exact id
  split
  case isTrue => exact id
  split
  case isTrue hdigits =>
    intro _
    exact isDigits_withoutLeadingZeros (List.all_eq_true.1 hdigits)
  split
  case h_1 => exact id
  case h_2 => exact id

end Position
end TreeSelect
