/-!
# Numbers

The numbers of XPath are those of IEEE 754 binary64.  Every finite one is a whole number of units of
`2 ^ -1074`, so a number is kept as its sign and its units, and arithmetic is exact arithmetic on
units followed by one rounding.

* `roundQuotient` and `roundUnits` round to the nearest representable value, ties to the even one.
* `Number` and its operations: `neg`, `add`, `sub`, `div`, `rem`, and the comparisons.
-/

namespace TreeSelect

-- A power of natural numbers is the one of the core library, whatever other powers are in scope.
local instance (priority := 2000) wholePower : Pow Nat Nat := instPowNat

/-! ## Rounding -/

/-- The exponent of the number of units in one. -/
def unitExponent : Nat := 1074

/-- The units in one. -/
def unitsInOne : Nat := 2 ^ unitExponent

/-- The units in `2 ^ 1024`, where the finite numbers end. -/
def unitsLimit : Nat := 2 ^ (1024 + unitExponent)

/-- Whether a finite number has this many units: a significand of 53 bits, scaled by a power of
two. -/
def Representable (units : Nat) : Prop :=
  units < unitsLimit ∧
    ∃ significand scale : Nat, significand < 2 ^ (53 : Nat) ∧ units = significand * 2 ^ scale

/-- The whole number nearest to a quotient; halfway between two it is the even one. -/
def roundQuotient (numerator denominator : Nat) : Nat :=
  let quotient := numerator / denominator
  let remainder := numerator % denominator
  if 2 * remainder < denominator then quotient
  else if denominator < 2 * remainder then quotient + 1
  else quotient + quotient % 2

/-- The quotient, in units, rounded to a significand of 53 bits. -/
def roundUnits (numerator denominator : Nat) : Nat :=
  let scale := (numerator / denominator).log2 - 52
  roundQuotient numerator (denominator * 2 ^ scale) * 2 ^ scale

theorem roundQuotient_le (numerator denominator : Nat) :
    roundQuotient numerator denominator ≤ numerator / denominator + 1 := by
  simp only [roundQuotient]
  split
  · omega
  · split
    · omega
    · have := Nat.mod_lt (numerator / denominator) (by decide : 0 < 2)
      omega

theorem unitsLimit_pos : 0 < unitsLimit := Nat.two_pow_pos _

theorem representable_zero : Representable 0 :=
  ⟨unitsLimit_pos, 0, 0, by decide, by simp⟩

/-- What rounding gives is representable unless it is too large. -/
theorem representable_roundUnits {numerator denominator : Nat}
    (h : roundUnits numerator denominator < unitsLimit) :
    Representable (roundUnits numerator denominator) := by
  refine ⟨h, ?_⟩
  generalize hs : (numerator / denominator).log2 - 52 = scale
  have hlt : numerator / denominator < 2 ^ (scale + 53) :=
    Nat.lt_of_lt_of_le Nat.lt_log2_self (Nat.pow_le_pow_right (by decide) (by omega))
  have hquot : numerator / (denominator * 2 ^ scale) < 2 ^ 53 := by
    rw [← Nat.div_div_eq_div_mul]
    apply Nat.div_lt_of_lt_mul
    rwa [← Nat.pow_add]
  have hle := roundQuotient_le numerator (denominator * 2 ^ scale)
  simp only [roundUnits, hs]
  by_cases hfull : roundQuotient numerator (denominator * 2 ^ scale) < 2 ^ 53
  · exact ⟨_, scale, hfull, rfl⟩
  · refine ⟨2 ^ 52, scale + 1, by decide, ?_⟩
    have : roundQuotient numerator (denominator * 2 ^ scale) = 2 ^ 53 := by omega
    rw [this, Nat.pow_succ 2 scale, show (2 : Nat) ^ 53 = 2 ^ 52 * 2 from rfl, Nat.mul_assoc,
      Nat.mul_comm 2]

/-! ## The numbers -/

/-- A binary64 number.  A zero has a sign, and there is one value that is not a number. -/
inductive Number
  | nan
  | infinite (negative : Bool)
  | finite (negative : Bool) (units : Nat) (representable : Representable units)
  deriving DecidableEq

namespace Number

/-- The zero with the given sign. -/
def zero (negative : Bool) : Number := .finite negative 0 representable_zero

/-- The number nearest to a quotient of units; what is too large becomes infinite. -/
def round (negative : Bool) (numerator denominator : Nat) : Number :=
  if h : roundUnits numerator denominator < unitsLimit then
    .finite negative (roundUnits numerator denominator) (representable_roundUnits h)
  else .infinite negative

/-- The number nearest to a natural number. -/
def ofNat (n : Nat) : Number := round false (n * unitsInOne) 1

/-- One for true and zero for false. -/
def ofBool (b : Bool) : Number := if b then ofNat 1 else zero false

instance : Inhabited Number := ⟨.nan⟩

/-! ## Arithmetic -/

/-- The units with their sign. -/
def signed (negative : Bool) (units : Nat) : Int := if negative then -units else units

/-- The number with the other sign. -/
def neg : Number → Number
  | .nan => .nan
  | .infinite negative => .infinite !negative
  | .finite negative units h => .finite (!negative) units h

/-- The sum.  A sum of zero is negative only if both parts are. -/
def add : Number → Number → Number
  | .nan, _ => .nan
  | _, .nan => .nan
  | .infinite a, .infinite b => if a = b then .infinite a else .nan
  | .infinite a, .finite .. => .infinite a
  | .finite .., .infinite b => .infinite b
  | .finite a u _, .finite b v _ =>
    let sum := signed a u + signed b v
    if sum = 0 then zero (a && b) else round (sum < 0) sum.natAbs 1

/-- The difference. -/
def sub (x y : Number) : Number := x.add y.neg

/-- The quotient; dividing by zero gives an infinite number, or `nan` for zero by zero. -/
def div : Number → Number → Number
  | .nan, _ => .nan
  | _, .nan => .nan
  | .infinite _, .infinite _ => .nan
  | .infinite a, .finite b _ _ => .infinite (a ^^ b)
  | .finite a _ _, .infinite b => zero (a ^^ b)
  | .finite a u _, .finite b v _ =>
    if v = 0 then if u = 0 then .nan else .infinite (a ^^ b)
    else round (a ^^ b) (u * unitsInOne) v

/-- The remainder of the division whose quotient is cut to a whole number; it has the sign of the
dividend. -/
def rem : Number → Number → Number
  | .nan, _ => .nan
  | _, .nan => .nan
  | .infinite _, _ => .nan
  | .finite a u h, .infinite _ => .finite a u h
  | .finite a u _, .finite _ v _ => if v = 0 then .nan else round a (u % v) 1

/-! ## Comparison -/

/-- The place of a number in the order of numbers; `nan` has none. -/
def place? : Number → Option Int
  | .nan => none
  | .infinite negative => some (signed negative unitsLimit)
  | .finite negative units _ => some (signed negative units)

/-- Whether two numbers have places that stand in a relation. -/
def compare (relation : Int → Int → Bool) (x y : Number) : Bool :=
  match x.place?, y.place? with
  | some a, some b => relation a b
  | _, _ => false

/-- Whether two numbers are equal; the zeros are, and `nan` is equal to no number. -/
def eq (x y : Number) : Bool := compare (fun a b => a = b) x y

/-- Whether a number is less than another. -/
def lt (x y : Number) : Bool := compare (fun a b => a < b) x y

/-- Whether a number is less than or equal to another. -/
def le (x y : Number) : Bool := compare (fun a b => a ≤ b) x y

/-- Whether a number counts as true: it is neither zero nor `nan`. -/
def isTrue (x : Number) : Bool :=
  match x.place? with
  | some a => a ≠ 0
  | none => false

end Number
end TreeSelect
