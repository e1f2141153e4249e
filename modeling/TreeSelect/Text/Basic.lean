/-!
# Text

Text is a list of characters, and a position in it is the number of bytes that its UTF-8 form has
before that position.  This module holds

* the byte measure (`bytes`, `dropBytes?`),
* cutting at separators (`splitWhere`, `split`, `cut?`),
* search (`includes`) and ASCII lower case (`lower`).
-/

namespace TreeSelect

/-- A text is its list of characters. -/
abbrev Text := List Char

namespace Text

/-- What is said of each character of a text is decided by going through the text, whatever other
way there is to decide what is said of characters. -/
instance (priority := 2000) decidableForallMem (s : Text) (p : Char → Prop) [DecidablePred p] :
    Decidable (∀ c ∈ s, p c) := List.decidableBAll p s

/-! ## Positions -/

/-- The number of bytes of the UTF-8 form. -/
def bytes : Text → Nat
  | [] => 0
  | c :: rest => c.utf8Size + bytes rest

@[simp] theorem bytes_nil : bytes [] = 0 := rfl

@[simp] theorem bytes_cons (c : Char) (s : Text) : bytes (c :: s) = c.utf8Size + bytes s := rfl

@[simp] theorem bytes_append (s t : Text) : bytes (s ++ t) = bytes s + bytes t := by
  induction s with
  | nil => simp
  | cons c s ih => simp [ih, Nat.add_assoc]

theorem bytes_pos {s : Text} (h : s ≠ []) : 0 < bytes s := by
  obtain ⟨c, rest, rfl⟩ := List.exists_cons_of_ne_nil h
  have hpos : 0 < c.utf8Size := c.utf8Size_pos
  rw [bytes_cons]
  omega

/-- The text after the first `count` bytes; none when that is past the end or inside a character. -/
def dropBytes? : Nat → Text → Option Text
  | 0, s => some s
  | _ + 1, [] => none
  | count + 1, c :: rest =>
    if c.utf8Size ≤ count + 1 then dropBytes? (count + 1 - c.utf8Size) rest else none

@[simp] theorem dropBytes?_zero (s : Text) : dropBytes? 0 s = some s := by
  cases s <;> rfl

/-- Dropping the bytes of a beginning leaves the remainder. -/
theorem dropBytes?_bytes_append (s t : Text) : dropBytes? (bytes s) (s ++ t) = some t := by
  induction s with
  | nil => simp
  | cons c s ih =>
    have hpos : 0 < c.utf8Size := c.utf8Size_pos
    obtain ⟨k, hk⟩ : ∃ k, c.utf8Size + bytes s = k + 1 := ⟨c.utf8Size + bytes s - 1, by omega⟩
    have hle : c.utf8Size ≤ k + 1 := by omega
    have hsub : k + 1 - c.utf8Size = bytes s := by omega
    simp [hk, dropBytes?, hle, hsub, ih]

/-- A position is reached exactly by the beginnings that have its number of bytes. -/
theorem dropBytes?_eq_some_iff {count : Nat} {s t : Text} :
    dropBytes? count s = some t ↔ ∃ before, s = before ++ t ∧ bytes before = count := by
  constructor
  · intro h
    fun_induction dropBytes? count s with
    | case1 s => exact ⟨[], by simpa using h, rfl⟩
    | case2 => simp at h
    | case3 count c rest hle ih =>
      obtain ⟨before, hs, hb⟩ := ih h
      exact ⟨c :: before, by simp [hs], by simp [hb]; omega⟩
    | case4 => simp at h
  · rintro ⟨before, rfl, rfl⟩
    exact dropBytes?_bytes_append before t

/-! ## Separators -/

/-- The pieces between the characters that satisfy `isSeparator`, empty ones included. -/
def splitWhere (isSeparator : Char → Bool) : Text → List Text
  | [] => [[]]
  | c :: rest =>
    if isSeparator c then [] :: splitWhere isSeparator rest
    else (splitWhere isSeparator rest).modifyHead (c :: ·)

/-- The pieces between the occurrences of one character. -/
def split (separator : Char) (s : Text) : List Text := s.splitWhere (· == separator)

/-- A text has at least one piece. -/
theorem splitWhere_ne_nil (isSeparator : Char → Bool) (s : Text) :
    splitWhere isSeparator s ≠ [] := by
  induction s with
  | nil => simp [splitWhere]
  | cons c s ih =>
    rw [splitWhere]
    split
    · simp
    · cases h : splitWhere isSeparator s with
      | nil => exact absurd h ih
      | cons => simp

/-- The texts before and after the first occurrence of a character. -/
def cut? (separator : Char) : Text → Option (Text × Text)
  | [] => none
  | c :: rest =>
    if c = separator then some ([], rest)
    else (cut? separator rest).map fun parts => (c :: parts.1, parts.2)

/-- A cut is at the first occurrence. -/
theorem cut?_eq_some_iff {separator : Char} {s before after : Text} :
    cut? separator s = some (before, after) ↔
      s = before ++ separator :: after ∧ separator ∉ before := by
  induction s generalizing before with
  | nil => simp [cut?]
  | cons c s ih =>
    rw [cut?]
    split
    case isTrue h =>
      subst h
      cases before with
      | nil => simp
      | cons b before =>
        simp only [Option.some.injEq, Prod.mk.injEq, List.cons_append, List.cons.injEq,
          List.mem_cons, not_or]
        grind
    case isFalse h =>
      cases before with
      | nil => simp [h]
      | cons b before =>
        simp only [Option.map_eq_some_iff, Prod.exists, Prod.mk.injEq, List.cons.injEq,
          List.cons_append, List.mem_cons, not_or]
        grind

/-- A text without the character is not cut. -/
theorem cut?_eq_none_iff {separator : Char} {s : Text} :
    cut? separator s = none ↔ separator ∉ s := by
  induction s with
  | nil => simp [cut?]
  | cons c s ih =>
    rw [cut?, List.mem_cons, not_or]
    split
    case isTrue h => simp [h]
    case isFalse h => simp [ih, Ne.symm h]

/-! ## Search and case -/

/-- Whether `needle` occurs in the text as a run of neighbouring characters. -/
def includes (needle : Text) : Text → Bool
  | [] => needle.isEmpty
  | c :: rest => needle.isPrefixOf (c :: rest) || includes needle rest

/-- An occurrence splits the text around it. -/
theorem includes_iff {needle s : Text} :
    includes needle s = true ↔ ∃ before after, s = before ++ needle ++ after := by
  induction s with
  | nil => simp [includes]
  | cons c s ih =>
    simp only [includes, Bool.or_eq_true, List.isPrefixOf_iff_prefix, ih]
    constructor
    · rintro (⟨after, h⟩ | ⟨before, after, h⟩)
      · exact ⟨[], after, by simp [h]⟩
      · exact ⟨c :: before, after, by simp [h]⟩
    · rintro ⟨before, after, h⟩
      cases before with
      | nil => exact .inl ⟨after, by simpa using h.symm⟩
      | cons b before =>
        simp only [List.cons_append, List.append_assoc, List.cons.injEq] at h
        exact .inr ⟨before, after, by simp [h.2]⟩

/-- The text with the letters `A` to `Z` in lower case and all else as it is. -/
def lower (s : Text) : Text := s.map Char.toLower

end Text
end TreeSelect
