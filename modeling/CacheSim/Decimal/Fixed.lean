import CacheSim.Decimal.Binary

/-!
# Fixed decimal places

The text of a number with one digit after the point.  A number in the middle of
two such texts goes to the one with the even last digit.
-/

namespace CacheSim.Decimal

/-- The quotient rounded to the nearest whole number, the middle to the even one. -/
def roundDiv (num den : Nat) : Nat :=
  let q := num / den
  let twice := 2 * (num % den)
  if den < twice ∨ (twice = den ∧ q % 2 = 1) then q + 1 else q

/-- A double with one digit after the point. -/
def tenths (x : Float) : String :=
  let b := Binary.ofFloat x
  let sign := if b.negative then "-" else ""
  match b.magnitude with
  | .nan => "NaN"
  | .infinite => sign ++ "inf"
  | .finite m e =>
    let (num, den) := ratioPow 2 e
    let n := roundDiv (10 * m * num) den
    s!"{sign}{n / 10}.{n % 10}"

end CacheSim.Decimal
