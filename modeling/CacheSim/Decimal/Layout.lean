import CacheSim.Decimal.Shortest

/-!
# Layouts of decimal text

The digits of a number are the same in every text; what differs is where the
point goes, and whether a number is written with an exponent.  A `Layout` holds
these choices.
-/

namespace CacheSim.Decimal

/-- How the digits of a number are set. -/
structure Layout where
  /-- The exponents of the leading digit that are written without an exponent:
  the least one and the one above the greatest, if there are such bounds. -/
  positional : Option (Int × Int)
  /-- A whole number ends in `.0`. -/
  keepPoint : Bool

namespace Layout

/-- Digits with a point after the first `whole` of them. -/
def setPoint (l : Layout) (digits : List Char) (whole : Int) : String :=
  if whole ≤ 0 then
    "0." ++ String.ofList (List.replicate (-whole).toNat '0' ++ digits)
  else
    let w := whole.toNat
    let head := digits.take w ++ List.replicate (w - digits.length) '0'
    let tail := digits.drop w
    String.ofList head ++
      (if tail.isEmpty then (if l.keepPoint then ".0" else "") else "." ++ String.ofList tail)

/-- Digits with a point after the first one and an exponent. -/
def setExponent (digits : List Char) (leading : Int) : String :=
  let tail := digits.drop 1
  String.ofList (digits.take 1) ++
    (if tail.isEmpty then "" else "." ++ String.ofList tail) ++ s!"e{leading}"

/-- The text of a decimal. -/
def setValue (l : Layout) (d : Value) : String :=
  let digits := Nat.toDigits 10 d.digits
  let leading := d.exponent + digits.length - 1
  let plain := match l.positional with
    | none => true
    | some (low, high) => low ≤ leading ∧ leading < high
  if plain then l.setPoint digits (leading + 1) else setExponent digits leading

/-- The text of a double. -/
def text (l : Layout) (x : Float) : String :=
  let b := Binary.ofFloat x
  let sign := if b.negative then "-" else ""
  match b.magnitude with
  | .nan => "NaN"
  | .infinite => sign ++ "inf"
  | .finite 0 _ => sign ++ (if l.keepPoint then "0.0" else "0")
  | .finite m e => sign ++ l.setValue (shortest m e)

end Layout

end CacheSim.Decimal
