import CacheSim.Fault

/-!
# Arithmetic in 64 bits

Addresses, ticks and counts are natural numbers that stay below `Word.bound`.
Where an input can push one over, the operation is checked and answers a
`Fault` instead; its lemma states the exact condition.
-/

namespace CacheSim.Word

/-- The number of values of a 64 bit word. -/
def bound : Nat := UInt64.size

/-- The greatest value of a 64 bit word. -/
def max : Nat := bound - 1

/-- The sum, if it fits. -/
def add (a b : Nat) : Except Fault Nat :=
  if a + b < bound then .ok (a + b) else .error .addOverflow

/-- The difference, if it is not negative. -/
def sub (a b : Nat) : Except Fault Nat :=
  if b ≤ a then .ok (a - b) else .error .subOverflow

/-- The product, if it fits. -/
def mul (a b : Nat) : Except Fault Nat :=
  if a * b < bound then .ok (a * b) else .error .mulOverflow

/-- The quotient by a number that may be zero. -/
def div (a b : Nat) : Except Fault Nat :=
  if b = 0 then .error .divideByZero else .ok (a / b)

/-- Adds numbers to a total one after another; answers the total reached, and
why it was not the last one. -/
def addAll (total : Nat) : List Nat → Nat × Option Fault
  | [] => (total, none)
  | n :: rest =>
    match add total n with
    | .ok sum => addAll sum rest
    | .error e => (total, some e)

/-- The sum, cut off at the greatest word. -/
def saturatingAdd (a b : Nat) : Nat :=
  min (a + b) max

theorem add_eq_ok {a b c : Nat} : add a b = .ok c ↔ a + b < bound ∧ c = a + b := by
  unfold add; grind

theorem add_eq_error {a b : Nat} {e : Fault} :
    add a b = .error e ↔ bound ≤ a + b ∧ e = .addOverflow := by
  unfold add; grind

theorem sub_eq_ok {a b c : Nat} : sub a b = .ok c ↔ b ≤ a ∧ c = a - b := by
  unfold sub; grind

theorem mul_eq_ok {a b c : Nat} : mul a b = .ok c ↔ a * b < bound ∧ c = a * b := by
  unfold mul; grind

theorem mul_eq_error {a b : Nat} {e : Fault} :
    mul a b = .error e ↔ bound ≤ a * b ∧ e = .mulOverflow := by
  unfold mul; grind

end CacheSim.Word
