/-!
# Binary fractions

A finite number of binary floating point is a natural number times a power of
two.  `Binary.ofFloat` takes the sixty four bits of a double apart into that
form, so that its text can be made in exact arithmetic.
-/

namespace CacheSim.Decimal

/-- The absolute value of a double. -/
inductive Magnitude where
  | nan
  | infinite
  /-- `mantissa * 2 ^ exponent`. -/
  | finite (mantissa : Nat) (exponent : Int)
  deriving DecidableEq

/-- A sign and an absolute value. -/
structure Binary where
  negative : Bool
  magnitude : Magnitude
  deriving DecidableEq

namespace Binary

/-- The least exponent of a double, that of the numbers without a leading one. -/
def leastExponent : Int := -1074

/-- The weight of the leading one, which is not written. -/
def hiddenBit : Nat := 1 <<< 52

/-- The number of exponents that can be written. -/
def exponents : Nat := 2048

/-- Takes the bits of a double apart. -/
def ofBits (bits : UInt64) : Binary :=
  let n := bits.toNat
  let fraction := n % hiddenBit
  let biased : Nat := n / hiddenBit % exponents
  let magnitude :=
    if biased = exponents - 1 then
      if fraction = 0 then .infinite else .nan
    else if biased = 0 then .finite fraction leastExponent
    else .finite (hiddenBit + fraction) (leastExponent + (biased : Int) - 1)
  { negative := exponents * hiddenBit ≤ n, magnitude }

/-- Takes a double apart. -/
def ofFloat (x : Float) : Binary :=
  ofBits x.toBits

end Binary

/-- A power of a base that may be a fraction: numerator and denominator. -/
def ratioPow (base : Nat) (exponent : Int) : Nat × Nat :=
  (Nat.pow base exponent.toNat, Nat.pow base (-exponent).toNat)

end CacheSim.Decimal
