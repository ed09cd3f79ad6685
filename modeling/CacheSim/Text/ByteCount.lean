import CacheSim.Decimal.Fixed

/-!
# Sizes for readers

A number of bytes in the largest binary unit that it reaches, with one decimal
place that is left out when it is zero.
-/

namespace CacheSim.ByteCount

/-- The units, each 1024 times the one before it. -/
def units : List String :=
  ["B", "KiB", "MiB", "GiB", "TiB", "PiB", "EiB"]

/-- Leaves out a zero after the point, as often as there is one. -/
def dropTenths (s : String) : String :=
  let rec go : List Char → List Char
    | '0' :: '.' :: rest => go rest
    | cs => cs
  String.ofList (go s.toList.reverse).reverse

/-- A number of bytes in its unit.  The unit is the whole part of the logarithm
to the base 1024, and the number is what the rest of it stands for. -/
def text (bytes : Nat) : String :=
  if bytes = 0 then "0 B"
  else
    let size := (UInt64.ofNat bytes).toFloat
    let power := size.log10 / (1024.0 : Float).log10
    let unit := power.floor
    let amount := (1024.0 : Float) ^ (power - unit)
    dropTenths (Decimal.tenths amount) ++ " " ++ units.getD unit.toUInt64.toNat ""

end CacheSim.ByteCount
