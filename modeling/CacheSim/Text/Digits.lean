/-!
# Decimal digits

The number that a row of decimal digits stands for.
-/

namespace CacheSim.Digits

/-- The value of a digit. -/
def digit (c : Char) : Nat :=
  c.toNat - '0'.toNat

/-- The value of digits, the most significant one first. -/
def value (ds : List Char) : Nat :=
  ds.foldl (fun n c => 10 * n + digit c) 0

/-- The value of a text of digits, at least one. -/
def value? (ds : List Char) : Option Nat :=
  if !ds.isEmpty && ds.all Char.isDigit then some (value ds) else none

end CacheSim.Digits
