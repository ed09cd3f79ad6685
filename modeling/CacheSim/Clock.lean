import CacheSim.Word

/-!
# Clocks

Time is counted in ticks, and a clock has an edge at every multiple of its
period.  `edge` answers the tick of an edge some cycles ahead.
-/

namespace CacheSim

/-- A point in time. -/
abbrev Tick := Nat

/-- A clock with an edge at every multiple of its period. -/
structure Clock where
  period : Nat
  deriving DecidableEq, Inhabited

namespace Clock

/-- The clock of a period, which must not be zero. -/
def ofPeriod? (period : Nat) : Except Fault Clock :=
  if period = 0 then .error .zeroPeriod else .ok ⟨period⟩

/-- The number of periods that cover `now`: `now` over the period, rounded up. -/
def ceilDiv (c : Clock) (now : Tick) : Nat :=
  now / c.period + if now % c.period = 0 then 0 else 1

/-- The edge `cycles` cycles after the first edge at or after `now`. -/
def edge (c : Clock) (now : Tick) (cycles : Nat) : Except Fault Tick := do
  let next ← Word.mul (c.ceilDiv now) c.period
  let ahead ← Word.mul cycles c.period
  Word.add next ahead

/-- The time that some cycles take. -/
def ticksOf (c : Clock) (cycles : Nat) : Except Fault Tick :=
  Word.mul cycles c.period

/-- The number of whole cycles in some time. -/
def cyclesIn (c : Clock) (ticks : Tick) : Nat :=
  ticks / c.period

theorem le_ceilDiv_mul {c : Clock} (h : 0 < c.period) (now : Nat) : now ≤ c.ceilDiv now * c.period := by
  have hmod : now % c.period < c.period := Nat.mod_lt now h
  have hdiv : now / c.period * c.period + now % c.period = now := by
    rw [Nat.mul_comm]
    exact Nat.div_add_mod now c.period
  by_cases hz : now % c.period = 0
  · have hceil : c.ceilDiv now = now / c.period := by rw [ceilDiv, if_pos hz]; rfl
    rw [hceil]
    omega
  · have hceil : c.ceilDiv now = now / c.period + 1 := by rw [ceilDiv, if_neg hz]
    rw [hceil, Nat.succ_mul]
    omega

/-- An edge is covered by the periods before it. -/
theorem ceilDiv_mul {c : Clock} (h : 0 < c.period) (cycles : Nat) : c.ceilDiv (cycles * c.period) = cycles := by
  rw [ceilDiv, Nat.mul_div_cancel _ h, if_pos (Nat.mul_mod_left ..), Nat.add_zero]

/-- An edge that a word can hold is reached. -/
theorem edge_eq_ok {c : Clock} {now cycles : Nat}
    (h : (c.ceilDiv now + cycles) * c.period < Word.bound) :
    c.edge now cycles = .ok ((c.ceilDiv now + cycles) * c.period) := by
  rw [Nat.add_mul] at h ⊢
  have hnext : Word.mul (c.ceilDiv now) c.period = .ok _ := Word.mul_eq_ok.mpr ⟨by omega, rfl⟩
  have hahead : Word.mul cycles c.period = .ok _ := Word.mul_eq_ok.mpr ⟨by omega, rfl⟩
  simp only [edge, hnext, hahead, bind, Except.bind]
  exact Word.add_eq_ok.mpr ⟨h, rfl⟩

end Clock

end CacheSim
