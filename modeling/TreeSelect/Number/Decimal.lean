import TreeSelect.Number.Basic
import TreeSelect.Text.Blank
import TreeSelect.Text.Digit

/-!
# Decimal text of numbers

Reading takes digits with an optional point and gives the nearest number.  Writing gives whole
numbers below `10 ^ 15` as they are and all other numbers with the fewest digits that read back to
them, never with an exponent.

The fewest digits are found on grids: the grid of `e` holds the whole multiples of `10 ^ e`.  The
coarsest grid that has a point in the interval of values that round to the number holds its text, and
if the grid's points on both sides of the number are in the interval, the nearer one is taken, the
upper one at equal distance.
-/

namespace TreeSelect.Number

-- A power of natural numbers is the one of the core library, whatever other powers are in scope.
local instance (priority := 2000) wholePower : Pow Nat Nat := instPowNat

/-! ## Reading -/

/-- The natural number that digits write. -/
def digitsValue (digits : Text) : Nat :=
  digits.foldl (fun n c => 10 * n + (c.toNat - '0'.toNat)) 0

/-- The number nearest to the decimal `whole.fraction`. -/
def ofDigits (whole fraction : Text) : Number :=
  round false (digitsValue (whole ++ fraction) * unitsInOne) (10 ^ fraction.length)

/-- The number of digits with an optional point among them; there must be a digit. -/
def ofDecimal? (s : Text) : Option Number :=
  let (whole, fraction) := (s.cut? '.').getD (s, [])
  if Text.allDigits whole && Text.allDigits fraction && !(whole ++ fraction).isEmpty then
    some (ofDigits whole fraction)
  else none

/-- The number that a string stands for: a decimal, which a minus sign may precede, with blanks
around it.  Any other string is not a number. -/
def ofText (s : Text) : Number :=
  match s.trim with
  | '-' :: digits => ((ofDecimal? digits).map neg).getD .nan
  | digits => (ofDecimal? digits).getD .nan

/-! ## The grids -/

/-- The units of a positive number and its halfway points, each four times as large: the lower
halfway point, the number, and the upper one.  Below a power of two the neighbour is nearer. -/
structure Interval where
  low : Nat
  middle : Nat
  high : Nat
  /-- Whether the halfway points round to the number. -/
  closed : Bool

/-- The interval of values that round to a number of units. -/
def Interval.ofUnits (units : Nat) : Interval :=
  let scale := units.log2 - 52
  let gap := 2 ^ scale
  let below := if 0 < scale ∧ units = 2 ^ (52 : Nat) * gap then gap else 2 * gap
  { low := 4 * units - below, middle := 4 * units, high := 4 * units + 2 * gap,
    closed := units / gap % 2 = 0 }

/-- Whether `numerator / denominator` is in the interval. -/
def Interval.holds (interval : Interval) (numerator denominator : Nat) : Bool :=
  if interval.closed then
    interval.low * denominator ≤ numerator && numerator ≤ interval.high * denominator
  else interval.low * denominator < numerator && numerator < interval.high * denominator

/-- The point of the grid of `10 ^ exponent` that stands for the interval, as a multiple of
`10 ^ exponent`. -/
def gridPoint? (interval : Interval) (exponent : Int) : Option Nat :=
  -- A point is `n * spacing / denominator` on the interval's scale.
  let spacing := 4 * unitsInOne * 10 ^ exponent.toNat
  let denominator := 10 ^ (-exponent).toNat
  let lower := interval.middle * denominator / spacing
  let lowerHolds := interval.holds (lower * spacing) denominator
  let upperHolds := interval.holds ((lower + 1) * spacing) denominator
  let distance := interval.middle * denominator - lower * spacing
  if upperHolds && (!lowerHolds || spacing ≤ 2 * distance) then some (lower + 1)
  else if lowerHolds then some lower
  else none

/-- The exponents of grids on which a number can have its shortest text, coarsest first. -/
def gridExponents : List Int := (List.range 650).map fun i : Nat => 310 - (i : Int)

/-- The shortest decimal that reads back to a positive number of units: digits and the exponent of
their grid. -/
def shortest (units : Nat) : Nat × Int :=
  let interval := Interval.ofUnits units
  (gridExponents.findSome? fun exponent =>
    (gridPoint? interval exponent).map (·, exponent)).getD (0, 0)

/-! ## Writing -/

/-- The decimal `digits * 10 ^ exponent` without an exponent and without zeros at its end. -/
def positional (digits : Nat) (exponent : Int) : Text :=
  let places := (-exponent).toNat
  let whole := digits * 10 ^ exponent.toNat / 10 ^ places
  let fraction := Nat.toDigits 10 (digits % 10 ^ places)
  let padded := List.replicate (places - fraction.length) '0' ++ fraction
  let kept := (padded.reverse.dropWhile (· == '0')).reverse
  Nat.toDigits 10 whole ++ if kept.isEmpty then [] else '.' :: kept

/-- The text of a number without its sign. -/
def magnitudeText (units : Nat) : Text :=
  if units % unitsInOne = 0 ∧ units < 10 ^ (15 : Nat) * unitsInOne then
    Nat.toDigits 10 (units / unitsInOne)
  else
    let (digits, exponent) := shortest units
    positional digits exponent

/-- The text of a number; a zero has no sign in it. -/
def text : Number → Text
  | .nan => "NaN".toList
  | .infinite negative => if negative then "-Infinity".toList else "Infinity".toList
  | .finite negative units _ =>
    if negative && units ≠ 0 then '-' :: magnitudeText units else magnitudeText units

end TreeSelect.Number
