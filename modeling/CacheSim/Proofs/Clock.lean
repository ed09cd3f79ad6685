import CacheSim.EventQueue
import CacheSim.Sim
import Mathlib.Algebra.Order.Floor.Div
import Mathlib.Order.Bounds.Basic

/-!
# The edges of a clock

A number of periods covers a time if and only if it is at least the time over the
period, rounded up (`ceilDiv_eq`), so the edge from which cycles are counted is the
least multiple of the period that is not in the past (`isLeast_ceilDiv_mul`).  The
three operations that find an edge overflow together (`edge_eq`), so that a word
which holds the last result holds the ones before it.

* `edge_mono`, `edge_add`: edges keep the order of times and cycles, and cycles can be
  counted from an edge on;
* `isGreatest_cyclesIn_mul`: the whole cycles in a time lead to the last edge before it;
* `edgeLaws`: all of this for every period.
-/

namespace CacheSim.Clock

variable {c : Clock} {now later t cycles more a b : Nat}

/-! ## The next edge -/

/-- The periods that cover a time are those of the division rounded up. -/
theorem ceilDiv_eq (h : 0 < c.period) (now : Nat) : c.ceilDiv now = now ⌈/⌉ c.period := by
  refine Nat.le_antisymm ?_ ?_
  · -- whatever covers the time, the rounded quotient is not more
    have hcover : now ≤ c.period * (now ⌈/⌉ c.period) := (ceilDiv_le_iff_le_mul h).mp (Nat.le_refl _)
    have hdiv : now / c.period ≤ now ⌈/⌉ c.period := Nat.div_le_of_le_mul hcover
    unfold ceilDiv
    split
    · exact hdiv
    · rename_i hrest
      refine Nat.lt_of_le_of_ne hdiv fun heq => hrest ?_
      rw [← heq] at hcover
      rw [Nat.mod_def]
      exact Nat.sub_eq_zero_of_le hcover
  · rw [ceilDiv_le_iff_le_mul h, Nat.mul_comm]
    exact le_ceilDiv_mul h now

/-- The edge from which cycles are counted. -/
theorem isLeast_ceilDiv_mul (h : 0 < c.period) (now : Nat) :
    IsLeast {m | c.period ∣ m ∧ now ≤ m} (c.ceilDiv now * c.period) := by
  refine ⟨⟨Nat.dvd_mul_left .., le_ceilDiv_mul h now⟩, ?_⟩
  rintro m ⟨⟨k, rfl⟩, hm⟩
  rw [ceilDiv_eq h, Nat.mul_comm]
  exact Nat.mul_le_mul_left _ ((ceilDiv_le_iff_le_mul h).mpr hm)

theorem ceilDiv_mono (h : 0 < c.period) (hle : now ≤ later) : c.ceilDiv now ≤ c.ceilDiv later := by
  rw [ceilDiv_eq h now, ceilDiv_le_iff_le_mul h, Nat.mul_comm]
  exact Nat.le_trans hle (le_ceilDiv_mul h later)

/-! ## Edges ahead -/

/-- The edge that is asked for is reached if a word holds it; otherwise the first
operation that overflows tells. -/
theorem edge_eq (c : Clock) (now cycles : Nat) :
    c.edge now cycles =
      if c.ceilDiv now * c.period + cycles * c.period < Word.bound then
        .ok (c.ceilDiv now * c.period + cycles * c.period)
      else if c.ceilDiv now * c.period < Word.bound ∧ cycles * c.period < Word.bound then .error .addOverflow
      else .error .mulOverflow := by
  unfold edge Word.mul Word.add
  by_cases hnext : c.ceilDiv now * c.period < Word.bound
  · by_cases hahead : cycles * c.period < Word.bound
    · simp only [hnext, hahead, Sim.ok_bind, and_self, if_true]
    · have hsum : ¬ c.ceilDiv now * c.period + cycles * c.period < Word.bound := by omega
      simp only [hnext, hahead, hsum, Sim.ok_bind, Sim.error_bind, and_false, if_true, if_false]
  · have hsum : ¬ c.ceilDiv now * c.period + cycles * c.period < Word.bound := by omega
    simp only [hnext, hsum, Sim.error_bind, false_and, if_false]

theorem edge_eq_ok_iff : c.edge now cycles = .ok t ↔
    t < Word.bound ∧ t = c.ceilDiv now * c.period + cycles * c.period := by
  rw [edge_eq]
  grind

theorem edge_eq_error_iff {e : Fault} : c.edge now cycles = .error e ↔
    Word.bound ≤ c.ceilDiv now * c.period + cycles * c.period ∧
      e = if c.ceilDiv now * c.period < Word.bound ∧ cycles * c.period < Word.bound then .addOverflow
        else .mulOverflow := by
  rw [edge_eq]
  grind

/-- A later edge is reached only if the earlier ones are. -/
theorem edge_mono (h : 0 < c.period) (hnow : now ≤ later) (hcycles : cycles ≤ more) (hedge : c.edge later more = .ok t) :
    ∃ s, c.edge now cycles = .ok s ∧ s ≤ t := by
  obtain ⟨hbound, rfl⟩ := edge_eq_ok_iff.mp hedge
  have hnext := Nat.mul_le_mul_right c.period (ceilDiv_mono h hnow)
  have hahead := Nat.mul_le_mul_right c.period hcycles
  exact ⟨_, edge_eq_ok_iff.mpr ⟨by omega, rfl⟩, Nat.add_le_add hnext hahead⟩

/-- Cycles are counted from an edge on as from the time before it. -/
theorem edge_add (h : 0 < c.period) (hedge : c.edge now (a + b) = .ok t) :
    ∃ s, c.edge now a = .ok s ∧ c.edge s b = .ok t := by
  obtain ⟨hbound, rfl⟩ := edge_eq_ok_iff.mp hedge
  rw [Nat.add_mul, ← Nat.add_assoc] at hbound ⊢
  refine ⟨_, edge_eq_ok_iff.mpr ⟨by omega, rfl⟩, edge_eq_ok_iff.mpr ⟨hbound, ?_⟩⟩
  rw [← Nat.add_mul (c.ceilDiv now), ceilDiv_mul h, Nat.add_mul]

theorem le_of_edge (h : 0 < c.period) (hedge : c.edge now cycles = .ok t) : now ≤ t := by
  obtain ⟨-, rfl⟩ := edge_eq_ok_iff.mp hedge
  exact Nat.le_trans (le_ceilDiv_mul h now) (Nat.le_add_right ..)

/-! ## Cycles and ticks -/

theorem cyclesIn_of_ticksOf (h : 0 < c.period) (hticks : c.ticksOf cycles = .ok t) : c.cyclesIn t = cycles := by
  obtain ⟨-, rfl⟩ := Word.mul_eq_ok.mp hticks
  exact Nat.mul_div_cancel cycles h

/-- The last edge that is not in the future. -/
theorem isGreatest_cyclesIn_mul (h : 0 < c.period) (t : Nat) :
    IsGreatest {m | c.period ∣ m ∧ m ≤ t} (c.cyclesIn t * c.period) := by
  refine ⟨⟨Nat.dvd_mul_left .., Nat.div_mul_le_self ..⟩, ?_⟩
  rintro m ⟨⟨k, rfl⟩, hm⟩
  rw [Nat.mul_comm]
  exact Nat.mul_le_mul_right _ ((Nat.le_div_iff_mul_le h).mpr (Nat.mul_comm .. ▸ hm))

/-- What holds of the edges of a clock, for all times and numbers of cycles. -/
structure EdgeLaws (c : Clock) : Prop where
  /-- An edge is missing exactly if it is no word.  A product that overflows is noticed
  before the sum. -/
  missing : ∀ {now cycles e}, c.edge now cycles = .error e ↔
    Word.bound ≤ now ⌈/⌉ c.period * c.period + cycles * c.period ∧
      e = if now ⌈/⌉ c.period * c.period < Word.bound ∧ cycles * c.period < Word.bound then .addOverflow
        else .mulOverflow
  /-- Cycles are counted from the first edge that is not in the past. -/
  first : ∀ {now cycles t}, c.edge now cycles = .ok t →
    ∃ next, t = next + cycles * c.period ∧ IsLeast {m | c.period ∣ m ∧ now ≤ m} next
  mono : ∀ {now later cycles more t}, now ≤ later → cycles ≤ more → c.edge later more = .ok t →
    ∃ s, c.edge now cycles = .ok s ∧ s ≤ t
  add : ∀ {now a b t}, c.edge now (a + b) = .ok t → ∃ s, c.edge now a = .ok s ∧ c.edge s b = .ok t
  /-- An event at an edge of a queue is not in the past of the queue. -/
  future : ∀ {ε : Type} {q : EventQueue ε} {cycles t}, q.clock = c → q.edge cycles = .ok t →
    q.now ≤ t ∧ ∀ event, ∃ r, q.schedule event t = .ok r
  /-- The time that some cycles take holds as many. -/
  cycles : ∀ {n}, n * c.period < Word.bound → ∃ t, c.ticksOf n = .ok t ∧ c.cyclesIn t = n
  /-- The cycles in a time lead to the last edge that is not after it. -/
  last : ∀ {t}, t < Word.bound →
    ∃ edge, c.ticksOf (c.cyclesIn t) = .ok edge ∧ IsGreatest {m | c.period ∣ m ∧ m ≤ t} edge

/-- The edges of a clock of any period: the condition under which one is missing is exact,
they keep the order of times, cycles add up, and ticks and cycles turn into each other. -/
theorem edgeLaws (h : 0 < c.period) : c.EdgeLaws where
  missing {now cycles e} := by rw [← ceilDiv_eq h, edge_eq_error_iff]
  first {now cycles t} hedge := ⟨_, (edge_eq_ok_iff.mp hedge).2, isLeast_ceilDiv_mul h now⟩
  mono := edge_mono h
  add := edge_add h
  future {ε q cycles t} hclock hedge := by
    have hle : q.now ≤ t := le_of_edge (hclock ▸ h) hedge
    exact ⟨hle, fun event => ⟨_, if_pos hle⟩⟩
  cycles {n} hn := ⟨_, Word.mul_eq_ok.mpr ⟨hn, rfl⟩, cyclesIn_of_ticksOf h (Word.mul_eq_ok.mpr ⟨hn, rfl⟩)⟩
  last {t} ht := by
    have hle : c.cyclesIn t * c.period ≤ t := Nat.div_mul_le_self ..
    exact ⟨_, Word.mul_eq_ok.mpr ⟨Nat.lt_of_le_of_lt hle ht, rfl⟩, isGreatest_cyclesIn_mul h t⟩

/-- The laws for a period that does not divide the number of words: the last edge that a word
holds is at `2 ^ 64 - 2`, and there is none a cycle later or after it. -/
theorem edgeLaws_of_seven :
    0 < (Clock.mk 7).period ∧ (Clock.mk 7).edge (2 ^ 64 - 1) 0 = .error .mulOverflow ∧
      (Clock.mk 7).edge (2 ^ 64 - 3) 1 = .error .addOverflow ∧
      (∃ s, (Clock.mk 7).edge 5 1 = .ok s ∧ (Clock.mk 7).edge s 2 = .ok 28) ∧
      ∃ edge, (Clock.mk 7).ticksOf ((Clock.mk 7).cyclesIn (2 ^ 64 - 3)) = .ok edge ∧
        IsGreatest {m | 7 ∣ m ∧ m ≤ 2 ^ 64 - 3} edge := by
  have laws : (Clock.mk 7).EdgeLaws := edgeLaws (by decide)
  exact ⟨by decide, laws.missing.mpr ⟨by decide, rfl⟩, laws.missing.mpr ⟨by decide, rfl⟩, laws.add rfl,
    laws.last (by decide)⟩

end CacheSim.Clock
