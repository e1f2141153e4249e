import TreeSelect.Number.Decimal
import TreeSelect.Proofs.Text.Pieces
import TreeSelect.Proofs.XPath.Reading
import TreeSelect.XPath.Lexeme

/-!
# Lexemes are taken from the beginning of the text

Each scanner splits the text: the lexeme it gives is a beginning of the text, and what it leaves is
the remainder (`Splits`).  A word, a name or a number ends where it must end, which is what the
conditions on the text behind it say.

No later proof opens a scanner to see what it has taken: `of_scanPlainName`, `of_scanName`,
`of_scanNameTest`, `scanWord_eq_some_iff`, `of_scanNumber` and `scanString_eq_some_iff` say that once
for each.
-/

namespace TreeSelect.XPath.Lexeme

open TreeSelect.XPath.Parser

/-- The scanner splits the text into the lexeme and the remainder. -/
def Splits (scan : Text → Option (Text × Text)) : Prop :=
  ∀ s taken rest, scan s = some (taken, rest) → s = taken ++ rest

theorem splits_scanText (expected : Text) : Splits (scanText expected) := by
  intro s taken rest h
  obtain ⟨rfl, hs⟩ := scanText_eq_some_iff.1 h
  exact hs

/-! ## Names -/

/-- A plain name is taken as far as its characters go. -/
theorem of_scanPlainName {s name rest : Text} (h : scanPlainName s = some (name, rest)) :
    ∃ c t, isNameStart c = true ∧ s = c :: t ∧ name = c :: t.takeWhile isNameChar ∧
      rest = t.dropWhile isNameChar := by
  cases s with
  | nil => cases h
  | cons c s =>
    rw [scanPlainName] at h
    split at h
    case isTrue hc =>
      cases h
      exact ⟨c, s, hc, rfl, rfl, rfl⟩
    case isFalse => cases h

theorem splits_scanPlainName : Splits scanPlainName := by
  intro s taken rest h
  obtain ⟨c, t, -, rfl, rfl, rfl⟩ := of_scanPlainName h
  rw [List.cons_append, List.takeWhile_append_dropWhile]

/-- A name is a plain name, or two of them with a colon between them. -/
theorem of_scanName {s name rest : Text} (h : scanName s = some (name, rest)) :
    scanPlainName s = some (name, rest) ∨ ∃ space localName after,
      scanPlainName s = some (space, ':' :: after) ∧ scanPlainName after = some (localName, rest) ∧
        name = space ++ ':' :: localName := by
  unfold scanName at h
  split at h
  case h_1 => cases h
  case h_2 space after hspace =>
    split at h
    case h_1 localName last hlocal =>
      cases h
      exact .inr ⟨space, localName, after, hspace, hlocal, rfl⟩
    case h_2 =>
      cases h
      exact .inl hspace
  case h_3 hname =>
    cases h
    exact .inl hname

theorem splits_scanName : Splits scanName := by
  intro s taken rest h
  obtain hname | ⟨space, localName, after, hspace, hlocal, rfl⟩ := of_scanName h
  · exact splits_scanPlainName _ _ _ hname
  · rw [splits_scanPlainName _ _ _ hspace, splits_scanPlainName _ _ _ hlocal]
    simp

theorem of_scanNameTest {s name rest : Text} (h : scanNameTest s = some (name, rest)) :
    name = ['*'] ∧ s = '*' :: rest ∨ scanName s = some (name, rest) := by
  unfold scanNameTest at h
  split at h
  case h_1 =>
    cases h
    exact .inl ⟨rfl, rfl⟩
  case h_2 => exact .inr h

theorem splits_scanNameTest : Splits scanNameTest := by
  intro s taken rest h
  obtain ⟨rfl, rfl⟩ | hname := of_scanNameTest h
  · rfl
  · exact splits_scanName _ _ _ hname

theorem splits_scanFirst (choices : List Text) : Splits (scanFirst choices) := by
  intro s taken rest h
  obtain ⟨choice, -, hchoice⟩ := List.exists_of_findSome?_eq_some h
  exact splits_scanText choice _ _ _ hchoice

/-! ## Words -/

/-- A word is taken where no name goes on with it. -/
theorem scanWord_eq_some_iff {word s taken rest : Text} :
    scanWord word s = some (taken, rest) ↔
      taken = word ∧ s = word ++ rest ∧ ∀ c ∈ rest.head?, isNameChar c = false := by
  constructor
  · intro h
    unfold scanWord at h
    split at h
    case h_1 c behind hscan =>
      split at h
      case isTrue => cases h
      case isFalse hc =>
        cases h
        obtain ⟨rfl, hs⟩ := scanText_eq_some_iff.1 hscan
        refine ⟨rfl, hs, fun d hd => ?_⟩
        cases hd
        simpa using hc
    case h_2 hscan =>
      cases h
      obtain ⟨rfl, hs⟩ := scanText_eq_some_iff.1 hscan
      exact ⟨rfl, hs, by simp⟩
    case h_3 => cases h
  · rintro ⟨rfl, rfl, hrest⟩
    rw [scanWord, scanText_eq_some_iff.2 ⟨rfl, rfl⟩]
    cases rest with
    | nil => rfl
    | cons c rest => simp only [hrest c rfl, Bool.false_eq_true, if_false]

theorem splits_scanWord (word : Text) : Splits (scanWord word) := by
  intro s taken rest h
  obtain ⟨rfl, hs, -⟩ := scanWord_eq_some_iff.1 h
  exact hs

/-! ## Numbers -/

theorem isNameChar_of_isDigit {c : Char} (h : c.isDigit = true) : isNameChar c = true := by
  simp [isNameChar, Char.isAlphanum, h]

/-- Where no name goes on, no number does. -/
theorem not_number_of_not_isNameChar {c : Char} (h : isNameChar c = false) :
    c.isDigit = false ∧ c ≠ '.' := by
  constructor
  · refine Bool.eq_false_iff.2 fun hdigit => ?_
    rw [isNameChar_of_isDigit hdigit] at h
    cases h
  · rintro rfl
    exact absurd h (by decide)

/-- Digits, or a point with digits on one side of it or on both. -/
inductive IsDecimal : Text → Prop
  | whole {digits : Text} (hne : digits ≠ []) (hdigits : ∀ c ∈ digits, c.isDigit = true) :
    IsDecimal digits
  | point {whole fraction : Text} (hne : whole ≠ [] ∨ fraction ≠ [])
    (hwhole : ∀ c ∈ whole, c.isDigit = true) (hfraction : ∀ c ∈ fraction, c.isDigit = true) :
    IsDecimal (whole ++ '.' :: fraction)

theorem IsDecimal.chars {digits : Text} (h : IsDecimal digits) :
    ∀ c ∈ digits, c.isDigit = true ∨ c = '.' := by
  intro c hc
  cases h with
  | whole _ hdigits => exact .inl (hdigits c hc)
  | point _ hwhole hfraction =>
    rcases List.mem_append.1 hc with hc | hc
    · exact .inl (hwhole c hc)
    · rcases List.mem_cons.1 hc with rfl | hc
      · exact .inr rfl
      · exact .inl (hfraction c hc)

/-- A number is taken where no number goes on with it. -/
theorem IsDecimal.scanNumber_append {digits rest : Text} (h : IsDecimal digits)
    (hrest : ∀ c ∈ rest.head?, c.isDigit = false ∧ c ≠ '.') :
    scanNumber (digits ++ rest) = some (digits, rest) := by
  have hstop : ∀ c ∈ rest.head?, c.isDigit = false := fun c hc => (hrest c hc).1
  cases h with
  | whole hne hdigits =>
    obtain ⟨htake, hdrop⟩ := Text.takeWhile_run hdigits hstop
    simp only [scanNumber, htake, hdrop]
    split
    case h_1 => exact absurd rfl (hrest '.' rfl).2
    case h_2 => rw [if_neg (by simpa using hne)]
  | @point whole fraction hne hwhole hfraction =>
    have hpoint : ∀ c ∈ ('.' :: (fraction ++ rest)).head?, c.isDigit = false := by
      intro c hc
      cases hc
      decide
    obtain ⟨htake, hdrop⟩ := Text.takeWhile_run hwhole hpoint
    obtain ⟨htakeFraction, hdropFraction⟩ := Text.takeWhile_run hfraction hstop
    have hsome : ¬ (whole.isEmpty && fraction.isEmpty) = true := by
      simpa only [Bool.and_eq_true, List.isEmpty_iff, Classical.not_and_iff_not_or_not] using hne
    simp only [scanNumber, List.append_assoc, List.cons_append, htake, hdrop, htakeFraction,
      hdropFraction, if_neg hsome]

/-- What is scanned as a number is one, and stands at the beginning of the text. -/
theorem of_scanNumber {s digits rest : Text} (h : scanNumber s = some (digits, rest)) :
    IsDecimal digits ∧ s = digits ++ rest := by
  have hdigits : ∀ t : Text, ∀ c ∈ t.takeWhile Char.isDigit, c.isDigit = true :=
    fun t => List.all_eq_true.1 List.all_takeWhile
  have hs : s.takeWhile Char.isDigit ++ s.dropWhile Char.isDigit = s :=
    List.takeWhile_append_dropWhile
  simp only [scanNumber] at h
  split at h
  case h_1 behind hbehind =>
    split at h
    case isTrue => cases h
    case isFalse hne =>
      cases h
      rw [Bool.and_eq_true, List.isEmpty_iff, List.isEmpty_iff,
        Classical.not_and_iff_not_or_not] at hne
      refine ⟨.point hne (hdigits s) (hdigits behind), ?_⟩
      rw [hbehind] at hs
      rw [List.append_assoc, List.cons_append, List.takeWhile_append_dropWhile, hs]
  case h_2 =>
    split at h
    case isTrue => cases h
    case isFalse hne =>
      cases h
      exact ⟨.whole (by simpa using hne) (hdigits s), hs.symm⟩

theorem splits_scanNumber : Splits scanNumber :=
  fun _ _ _ h => (of_scanNumber h).2

theorem ofDecimal?_digits {digits : Text} (hne : digits ≠ [])
    (hdigits : ∀ c ∈ digits, c.isDigit = true) :
    Number.ofDecimal? digits = some (Number.ofDigits digits []) := by
  have hcut : Text.cut? '.' digits = none :=
    Text.cut?_eq_none_iff.2 fun hmem => absurd (hdigits '.' hmem) (by decide)
  have hall : Text.allDigits digits = true := List.all_eq_true.2 hdigits
  have hempty : (digits ++ []).isEmpty = false := by simpa using hne
  rw [Number.ofDecimal?, hcut]
  simp only [Option.getD_none, hall, hempty]
  rfl

/-- What is scanned as a number has a value. -/
theorem IsDecimal.exists_ofDecimal {digits : Text} (h : IsDecimal digits) :
    ∃ value, Number.ofDecimal? digits = some value := by
  cases h with
  | whole hne hdigits => exact ⟨_, ofDecimal?_digits hne hdigits⟩
  | @point whole fraction hne hwhole hfraction =>
    have hcut : Text.cut? '.' (whole ++ '.' :: fraction) = some (whole, fraction) :=
      Text.cut?_eq_some_iff.2 ⟨rfl, fun hmem => absurd (hwhole '.' hmem) (by decide)⟩
    have hallWhole : Text.allDigits whole = true := List.all_eq_true.2 hwhole
    have hallFraction : Text.allDigits fraction = true := List.all_eq_true.2 hfraction
    have hempty : (whole ++ fraction).isEmpty = false := by
      rw [List.isEmpty_eq_false_iff, ne_eq, List.append_eq_nil_iff]
      exact Classical.not_and_iff_not_or_not.2 hne
    rw [Number.ofDecimal?, hcut]
    simp only [Option.getD_some, hallWhole, hallFraction, hempty]
    exact ⟨_, rfl⟩

/-! ## Strings -/

/-- A string is what stands before the next quote mark of the same kind. -/
theorem scanString_eq_some_iff {s quoted rest : Text} :
    scanString s = some (quoted, rest) ↔ ∃ mark inside, (mark = '"' ∨ mark = '\'') ∧
      mark ∉ inside ∧ quoted = mark :: inside ++ [mark] ∧ s = quoted ++ rest := by
  constructor
  · intro h
    cases s with
    | nil => cases h
    | cons mark s =>
      rw [scanString] at h
      split at h
      case isTrue hmark =>
        obtain ⟨⟨inside, after⟩, hcut, hparts⟩ := Option.map_eq_some_iff.1 h
        cases hparts
        obtain ⟨rfl, hinside⟩ := Text.cut?_eq_some_iff.1 hcut
        exact ⟨mark, inside, hmark, hinside, rfl, by simp⟩
      case isFalse => cases h
  · rintro ⟨mark, inside, hmark, hinside, rfl, rfl⟩
    have hcut : Text.cut? mark (inside ++ mark :: rest) = some (inside, rest) :=
      Text.cut?_eq_some_iff.2 ⟨rfl, hinside⟩
    rw [List.append_assoc, List.cons_append, List.singleton_append, scanString, if_pos hmark, hcut,
      Option.map_some]

theorem inside_quoted (mark : Char) (inside : Text) :
    ((mark :: inside ++ [mark]).drop 1).dropLast = inside := by
  rw [List.cons_append, List.drop_succ_cons, List.drop_zero, List.dropLast_concat]

theorem splits_scanString : Splits scanString := by
  intro s taken rest h
  obtain ⟨mark, inside, -, -, -, hs⟩ := scanString_eq_some_iff.1 h
  exact hs

end TreeSelect.XPath.Lexeme
