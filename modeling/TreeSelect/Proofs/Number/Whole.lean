import TreeSelect.Number.Decimal

/-!
# Whole numbers

A natural number below `2 ^ 53` is a number as it is, and differences, remainders and comparisons of
such numbers are those of natural numbers.  A larger one is rounded, perhaps to an infinite number,
but not below `2 ^ 53`.

* `ofNat_of_lt`, `ofNat_of_le` and `place_ofNat`: the number of a natural number.
* `sub_ofNat`, `rem_ofNat`, `le_ofNat_iff`, `eq_ofNat_iff`: arithmetic where one of the two natural
  numbers is small and the other can be any.
* `ofDigits_nil`: digits without a point.
-/

namespace TreeSelect.Number

-- A power of natural numbers is the one of the core library, whatever other powers are in scope.
local instance (priority := 2000) wholeNumberPower : Pow Nat Nat := instPowNat

/-- The limit of the natural numbers that have at most 53 binary digits. -/
def exactLimit : Nat := 2 ^ (53 : Nat)

/-! ## Rounding -/

theorem le_roundQuotient (numerator denominator : Nat) :
    numerator / denominator ≤ roundQuotient numerator denominator := by
  simp only [roundQuotient]
  split
  · exact Nat.le_refl _
  · split <;> omega

theorem roundQuotient_of_dvd {numerator denominator : Nat} (hpos : 0 < denominator)
    (h : denominator ∣ numerator) :
    roundQuotient numerator denominator = numerator / denominator := by
  simp [roundQuotient, Nat.mod_eq_zero_of_dvd h, hpos]

/-- Units that are a multiple of the last digit's place are not rounded. -/
theorem roundUnits_of_dvd {units : Nat} (h : 2 ^ (units.log2 - 52) ∣ units) :
    roundUnits units 1 = units := by
  have hpos : 0 < 2 ^ (units.log2 - 52) := Nat.two_pow_pos _
  rw [roundUnits, Nat.div_one, Nat.one_mul, roundQuotient_of_dvd hpos h, Nat.div_mul_cancel h]

/-- Rounding does not go below a power of two. -/
theorem le_roundUnits {units : Nat} (h : units ≠ 0) : 2 ^ units.log2 ≤ roundUnits units 1 := by
  have hpower : 2 ^ units.log2 =
      2 ^ (units.log2 - (units.log2 - 52)) * 2 ^ (units.log2 - 52) := by
    rw [← Nat.pow_add]
    congr 1
    omega
  have hquotient : 2 ^ (units.log2 - (units.log2 - 52)) ≤ units / 2 ^ (units.log2 - 52) := by
    rw [Nat.le_div_iff_mul_le (Nat.two_pow_pos _), ← hpower]
    exact Nat.log2_self_le h
  have hround := le_roundQuotient units (2 ^ (units.log2 - 52))
  rw [roundUnits, Nat.div_one, Nat.one_mul, hpower]
  exact Nat.mul_le_mul_right _ (Nat.le_trans hquotient hround)

theorem round_eq_finite (negative : Bool) {numerator denominator units : Nat}
    (h : roundUnits numerator denominator = units) (hlimit : units < unitsLimit) :
    ∃ representable, round negative numerator denominator =
      .finite negative units representable := by
  subst h
  exact ⟨representable_roundUnits hlimit, dif_pos hlimit⟩

/-! ## The number of a natural number -/

theorem unitsInOne_pos : 0 < unitsInOne := Nat.two_pow_pos _

theorem exactLimit_mul_unitsInOne : exactLimit * unitsInOne = 2 ^ (53 + unitExponent) := by
  rw [Nat.pow_add, exactLimit, unitsInOne]

/-- A natural number with at most 53 binary digits is a number as it is. -/
theorem ofNat_of_lt {n : Nat} (h : n < exactLimit) :
    ∃ representable, ofNat n = .finite false (n * unitsInOne) representable := by
  have hlog : (n * unitsInOne).log2 - 52 ≤ unitExponent := by
    by_cases hzero : n * unitsInOne = 0
    · rw [hzero]
      exact Nat.zero_le _
    · have hlt : n * unitsInOne < 2 ^ (53 + unitExponent) := by
        rw [← exactLimit_mul_unitsInOne]
        exact Nat.mul_lt_mul_of_pos_right h unitsInOne_pos
      have hdigits := (Nat.log2_lt hzero).2 hlt
      omega
  have hdvd : 2 ^ ((n * unitsInOne).log2 - 52) ∣ unitsInOne := by
    rw [unitsInOne]
    exact Nat.pow_dvd_pow 2 hlog
  have hexact : roundUnits (n * unitsInOne) 1 = n * unitsInOne :=
    roundUnits_of_dvd (Nat.dvd_trans hdvd (Nat.dvd_mul_left _ _))
  have hlimit : n * unitsInOne < unitsLimit := by
    have hpower : exactLimit * unitsInOne ≤ unitsLimit := by
      rw [unitsLimit, exactLimit_mul_unitsInOne]
      exact Nat.pow_le_pow_right (by decide) (Nat.add_le_add_right (by decide) _)
    exact Nat.lt_of_lt_of_le (Nat.mul_lt_mul_of_pos_right h unitsInOne_pos) hpower
  exact round_eq_finite false hexact hlimit

/-- A larger one is rounded to a number that is not below `2 ^ 53`. -/
theorem ofNat_of_le {n : Nat} (h : exactLimit ≤ n) :
    ofNat n = .infinite false ∨
      ∃ units representable, ofNat n = .finite false units representable ∧
        exactLimit * unitsInOne ≤ units := by
  have hunits : 2 ^ (53 + unitExponent) ≤ n * unitsInOne := by
    rw [← exactLimit_mul_unitsInOne]
    exact Nat.mul_le_mul_right _ h
  have hne : n * unitsInOne ≠ 0 := by
    have hpos : 0 < 2 ^ (53 + unitExponent) := Nat.two_pow_pos _
    omega
  have hlog : 53 + unitExponent ≤ (n * unitsInOne).log2 := (Nat.le_log2 hne).2 hunits
  have hround : exactLimit * unitsInOne ≤ roundUnits (n * unitsInOne) 1 := by
    rw [exactLimit_mul_unitsInOne]
    exact Nat.le_trans (Nat.pow_le_pow_right (by decide) hlog) (le_roundUnits hne)
  rw [ofNat, round]
  split
  case isTrue hsmall => exact .inr ⟨_, representable_roundUnits hsmall, rfl, hround⟩
  case isFalse => exact .inl rfl

theorem ofNat_zero : ofNat 0 = zero false := by decide +kernel

/-- The place of a number is that of a natural number, or it is not below `2 ^ 53`. -/
theorem place_ofNat (n : Nat) :
    ∃ place : Nat, (ofNat n).place? = some (place : Int) ∧
      (n < exactLimit → place = n * unitsInOne) ∧
        (exactLimit ≤ n → exactLimit * unitsInOne ≤ place) := by
  by_cases h : n < exactLimit
  · obtain ⟨representable, hnumber⟩ := ofNat_of_lt h
    refine ⟨n * unitsInOne, by rw [hnumber]; rfl, fun _ => rfl, fun hcase => ?_⟩
    omega
  · rcases ofNat_of_le (Nat.le_of_not_lt h) with hnumber | ⟨units, representable, hnumber, hunits⟩
    · refine ⟨unitsLimit, by rw [hnumber]; rfl, fun hcase => absurd hcase h, fun _ => ?_⟩
      rw [exactLimit_mul_unitsInOne, unitsLimit]
      exact Nat.pow_le_pow_right (by decide) (Nat.add_le_add_right (by decide) _)
    · exact ⟨units, by rw [hnumber]; rfl, fun hcase => absurd hcase h, fun _ => hunits⟩

/-! ## Comparison -/

theorem le_iff_of_place {x y : Number} {a b : Int} (hx : x.place? = some a)
    (hy : y.place? = some b) : x.le y = true ↔ a ≤ b := by
  simp [le, compare, hx, hy]

/-- Numbers are equal if each of them is at most the other. -/
theorem eq_iff_le {x y : Number} : x.eq y = true ↔ x.le y = true ∧ y.le x = true := by
  unfold eq le compare
  cases x.place? with
  | none => cases y.place? <;> simp
  | some a =>
    cases y.place? with
    | none => simp
    | some b => simpa using Int.le_antisymm_iff

/-- If one of two natural numbers is small, their numbers compare as they do, however large the other
one is. -/
theorem le_ofNat_iff {m n : Nat} (h : m < exactLimit ∨ n < exactLimit) :
    (ofNat m).le (ofNat n) = true ↔ m ≤ n := by
  obtain ⟨left, hleft, hexactLeft, hlargeLeft⟩ := place_ofNat m
  obtain ⟨right, hright, hexactRight, hlargeRight⟩ := place_ofNat n
  have hpos := unitsInOne_pos
  rw [le_iff_of_place hleft hright, Int.ofNat_le]
  generalize unitsInOne = one at hexactLeft hlargeLeft hexactRight hlargeRight hpos
  by_cases hm : m < exactLimit
  · rw [hexactLeft hm]
    by_cases hn : n < exactLimit
    · rw [hexactRight hn]
      exact Nat.mul_le_mul_right_iff hpos
    · have hbound := hlargeRight (Nat.le_of_not_lt hn)
      have hless := Nat.mul_lt_mul_of_pos_right hm hpos
      omega
  · have hn : n < exactLimit := h.resolve_left hm
    have hbound := hlargeLeft (Nat.le_of_not_lt hm)
    have hless := Nat.mul_lt_mul_of_pos_right hn hpos
    rw [hexactRight hn]
    omega

/-- A small number is equal to no other one, however large the other is. -/
theorem eq_ofNat_iff {m n : Nat} (h : m < exactLimit) : (ofNat m).eq (ofNat n) = true ↔ m = n := by
  rw [eq_iff_le, le_ofNat_iff (.inl h), le_ofNat_iff (.inr h), Nat.le_antisymm_iff]

/-- A number that is not zero is not rounded to zero. -/
theorem isTrue_ofNat {n : Nat} (h : 0 < n) : (ofNat n).isTrue = true := by
  obtain ⟨place, hplace, hexact, hlarge⟩ := place_ofNat n
  have hone := unitsInOne_pos
  have hpos : 0 < place := by
    by_cases hn : n < exactLimit
    · rw [hexact hn]
      exact Nat.mul_pos h hone
    · have hbound := hlarge (Nat.le_of_not_lt hn)
      exact Nat.lt_of_lt_of_le (Nat.mul_pos (by decide) hone) hbound
  rw [isTrue, hplace]
  simp only [decide_eq_true_eq]
  omega

/-! ## Arithmetic -/

theorem signed_sub {m n : Nat} (hle : m ≤ n) :
    signed false n + signed true m = (n - m : Nat) := by
  show (n : Int) + -(m : Int) = (n - m : Nat)
  omega

/-- A small number less one that is not larger. -/
theorem sub_ofNat {m n : Nat} (h : n < exactLimit) (hle : m ≤ n) :
    (ofNat n).sub (ofNat m) = ofNat (n - m) := by
  obtain ⟨hn, hnumber⟩ := ofNat_of_lt h
  obtain ⟨hm, hother⟩ := ofNat_of_lt (Nat.lt_of_le_of_lt hle h)
  have hsum := signed_sub (Nat.mul_le_mul_right unitsInOne hle)
  rw [← Nat.sub_mul] at hsum
  rw [hnumber, hother, sub, neg, add]
  simp only [Bool.not_false, hsum]
  by_cases hsame : n - m = 0
  · rw [hsame, ofNat_zero, Nat.zero_mul]
    rfl
  · have hpos := Nat.mul_pos (Nat.pos_of_ne_zero hsame) unitsInOne_pos
    rw [ofNat]
    generalize (n - m) * unitsInOne = units at hpos
    rw [if_neg (by omega), decide_eq_false (by omega)]
    rfl

theorem rem_finite {a b : Bool} {u v : Nat} {hu : Representable u} {hv : Representable v}
    (h : v ≠ 0) : (finite a u hu).rem (.finite b v hv) = round a (u % v) 1 := by
  rw [rem, if_neg h]

/-- The remainder of a small number. -/
theorem rem_ofNat {m n : Nat} (h : n < exactLimit) (hpos : 0 < m) :
    (ofNat n).rem (ofNat m) = ofNat (n % m) := by
  obtain ⟨hn, hnumber⟩ := ofNat_of_lt h
  by_cases hm : m < exactLimit
  · obtain ⟨hm', hother⟩ := ofNat_of_lt hm
    have hunits := Nat.mul_pos hpos unitsInOne_pos
    rw [hnumber, hother, rem_finite (Nat.pos_iff_ne_zero.1 hunits), Nat.mul_mod_mul_right, ofNat]
  · -- a divisor that is too large leaves the number as it is, whatever it is rounded to
    have hsmall : n % m = n := Nat.mod_eq_of_lt (by omega)
    rw [hsmall]
    rcases ofNat_of_le (Nat.le_of_not_lt hm) with hother | ⟨units, hm', hother, hunits⟩
    · rw [hnumber, hother, rem]
    · have hless := Nat.lt_of_lt_of_le (Nat.mul_lt_mul_of_pos_right h unitsInOne_pos) hunits
      rw [hnumber, hother, rem_finite (Nat.ne_zero_of_lt hless), Nat.mod_eq_of_lt hless, ← ofNat,
        hnumber]

/-- There is no remainder of a division by zero. -/
theorem rem_zero (x : Number) : x.rem (ofNat 0) = .nan := by
  rw [ofNat_zero]
  cases x <;> rfl

theorem nan_eq (x : Number) : nan.eq x = false := rfl

/-- A small number is a multiple if its remainder is zero. -/
theorem rem_eq_zero_iff {m n : Nat} (h : n < exactLimit) :
    ((ofNat n).rem (ofNat m)).eq (ofNat 0) = true ↔ m ≠ 0 ∧ m ∣ n := by
  by_cases hm : m = 0
  · subst hm
    rw [rem_zero, nan_eq]
    simp
  · have hless : n % m < exactLimit := Nat.lt_of_le_of_lt (Nat.mod_le n m) h
    rw [rem_ofNat h (Nat.pos_of_ne_zero hm), eq_ofNat_iff hless, Nat.dvd_iff_mod_eq_zero]
    simp [hm]

/-! ## Digits -/

/-- Digits without a point write a whole number. -/
theorem ofDigits_nil (digits : Text) : ofDigits digits [] = ofNat (digitsValue digits) := by
  rw [ofDigits, List.append_nil]
  rfl

end TreeSelect.Number
