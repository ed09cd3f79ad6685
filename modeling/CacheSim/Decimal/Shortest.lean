import CacheSim.Decimal.Binary

/-!
# The shortest decimal that reads back

Every number in the interval around a double reads back as that double.  The
decimals of `n` digits form a grid, and if a point of the grid lies in the
interval, so does one of the two neighbours of the double on that grid.  The
first grid with such a neighbour has the fewest digits, and the nearer one of
two neighbours is taken.
-/

namespace CacheSim.Decimal

/-- A decimal: `digits * 10 ^ exponent`. -/
structure Value where
  digits : Nat
  exponent : Int
  deriving DecidableEq

/-- A fraction with the bounds of the interval that reads back as it, all over
one denominator. -/
structure Interval where
  value : Nat
  low : Nat
  high : Nat
  /-- The bounds themselves read back. -/
  closed : Bool
  denominator : Nat

namespace Interval

/-- The numbers that are rounded to `mantissa * 2 ^ exponent`.  Below a power
of two the neighbours are half as far apart. -/
def ofBinary (mantissa : Nat) (exponent : Int) : Interval :=
  let (num, den) := ratioPow 2 exponent
  let below := if mantissa = Binary.hiddenBit ∧ exponent ≠ Binary.leastExponent then 1 else 2
  { value := 4 * mantissa * num
    low := (4 * mantissa - below) * num
    high := (4 * mantissa + 2) * num
    closed := mantissa % 2 = 0
    denominator := 4 * den }

/-- Whether a numerator over the common denominator reads back. -/
def contains (i : Interval) (n : Nat) : Bool :=
  if i.closed then i.low ≤ n && n ≤ i.high else i.low < n && n < i.high

/-- The interval with all numerators and the denominator scaled. -/
def scale (i : Interval) (num den : Nat) : Interval :=
  { i with
    value := i.value * num, low := i.low * num, high := i.high * num
    denominator := i.denominator * den }

end Interval

/-- The exponent of the leading decimal digit of `num / den`, for a positive
fraction of at least `10 ^ -fuel`. -/
def leadingExponent (num den : Nat) : Nat → Int
  | 0 => 0
  | fuel + 1 =>
    if den ≤ num then ((Nat.toDigits 10 (num / den)).length : Int) - 1
    else leadingExponent (10 * num) den fuel - 1

/-- A point of the grid of multiples of `10 ^ exponent` that reads back, the
nearer one if both neighbours do and the even one if they are equally near. -/
def onGrid (i : Interval) (exponent : Int) : Option Nat :=
  let (num, den) := ratioPow 10 (-exponent)
  let i := i.scale num den
  let d := i.value / i.denominator
  let below := i.contains (d * i.denominator)
  let above := i.contains ((d + 1) * i.denominator)
  if below && above then
    let twice := 2 * (i.value % i.denominator)
    if twice < i.denominator || (twice = i.denominator && d % 2 = 0) then some d else some (d + 1)
  else if below then some d
  else if above then some (d + 1)
  else none

/-- Moves the zeros at the end of the digits into the exponent. -/
def trim (digits : Nat) (exponent : Int) : Nat → Value
  | 0 => ⟨digits, exponent⟩
  | fuel + 1 =>
    if digits ≠ 0 ∧ digits % 10 = 0 then trim (digits / 10) (exponent + 1) fuel
    else ⟨digits, exponent⟩

/-- The shortest decimal of a positive double; seventeen digits always suffice. -/
def shortest (mantissa : Nat) (exponent : Int) : Value :=
  let i := Interval.ofBinary mantissa exponent
  let leading := leadingExponent i.value i.denominator 400
  let found := (List.range 17).findSome? fun (n : Nat) =>
    let e := leading - n
    (onGrid i e).map fun d => trim d e 20
  found.getD ⟨0, 0⟩

end CacheSim.Decimal
