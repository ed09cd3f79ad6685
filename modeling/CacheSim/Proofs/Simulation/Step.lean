import CacheSim.Simulation.Run
import CacheSim.Proofs.Simulation.Play

/-!
# A step of a system

A step answers and keeps the plan (`Between.step`).  It also makes progress: the
cycles that the access in service still takes and the refusals that are left are
what is ahead, every accepted access pays for as many cycles as the latencies
take, and a step that does not end the run leaves one cycle less (`Progress`).
-/

namespace CacheSim

namespace Simulation

variable {s : Simulation}

/-- All requestors of a system that is done are done. -/
theorem isDone_of_mem (h : s.isDone) {r : ScriptedRequestor} (hr : r ∈ s.requestors) : r.isDone := by
  simp only [isDone, Bool.and_eq_true, List.all_eq_true] at h
  exact h.1.1.1 r hr

/-- The cache of a system that is done takes requests. -/
theorem free_of_isDone (h : s.isDone) : s.cache.blocked = false := by
  simp only [isDone, Bool.and_eq_true] at h
  simpa using h.2

end Simulation

namespace Plan

open Simulation
open CpuSidePort (refusals)

variable {u : Plan} {k j : Nat} {s t : Simulation} {done done' : List Acceptance}
  {current current' : Option Acceptance} {rest rest' : Nat}

/-- The cycles from the acceptance of an access to that of the next one, if no
response is refused. -/
def turnaround (u : Plan) : Nat :=
  u.geometry.latency + max u.latency 1

/-- From `s` to `t` one cycle less is ahead, apart from the cycles that newly
accepted accesses take. -/
def Progress (u : Plan) (s : Simulation) (done : List Acceptance) (current : Option Acceptance) (rest : Nat)
    (t : Simulation) (done' : List Acceptance) (current' : Option Acceptance) (rest' : Nat) : Prop :=
  rest' + refusals t.cache.cpuPorts + 1 + (done ++ current.toList).length * u.turnaround ≤
    rest + refusals s.cache.cpuPorts + (done' ++ current'.toList).length * u.turnaround

theorem During.rest_of_none {rs : List ScriptedRequestor} (h : u.During k j rs s done none rest) : rest = 0 := by
  have hidle := h.runs.idle
  cases h.wait with
  | idle => rfl
  | access hs => simp [hidle] at hs
  | fetch hs => simp [hidle] at hs

/-- With nothing in service and all requestors done, the run is done. -/
theorem Runs.isDone (h : u.Runs k s.cache s.queue done none) (hdone : ∀ r ∈ s.requestors, r.isDone) :
    s.isDone := by
  cases h.consistent.stage with
  | idle hs hq hc =>
    obtain ⟨hready, hflight⟩ := ready_of_owed (h.coming.symm.trans hc)
    have hall : s.requestors.all (·.isDone) = true := List.all_eq_true.mpr hdone
    have hbusy : s.memory.isBusy = false := by
      simp [Simulation.memory, TimedMemory.isBusy, Fifo.isEmpty, hready, hflight]
    simp [Simulation.isDone, hall, EventQueue.isEmpty, hq, hbusy, h.consistent.sane.agrees.blocked_eq hs]

/-- No event is due before the cycle that comes next. -/
theorem Between.next_le (hu : u.Valid) (h : u.Between k j s done current rest) :
    ∀ tick ∈ s.queue.next?, u.tick j ≤ tick := by
  cases h.wait with
  | idle hs => simp [EventQueue.next?, h.runs.pending (by simp [hs])]
  | access _ hq hle => simpa [EventQueue.next?, hq] using hu.tick_le_tick.mpr hle
  | fetch hs => simp [EventQueue.next?, h.runs.pending (by simp [hs])]

/-- Serving and playing makes progress, unless the run is done. -/
theorem Served.progress (hs : u.Served k j s t done current rest done' current' rest')
    {played : List ScriptedRequestor} {v : Simulation} {current₂ : Option Acceptance} {rest₂ : Nat}
    (hp : u.Played (k + 1) j [] played [] t v done' current' rest' current₂ rest₂) :
    (∀ r ∈ played, r.isDone) ∧ current₂ = none ∨ u.Progress s done current rest v done' current₂ rest₂ := by
  have hstays : CpuSidePort.burdens v.cache.cpuPorts = CpuSidePort.burdens t.cache.cpuPorts := by
    have h := congrArg (fun l => (l.map fun x : Nat × Option Packet => x.1 + x.2.toList.length).sum) hp.stays
    simp only [List.map_map] at h
    exact h
  have hle := CpuSidePort.refusals_le_burdens v.cache.cpuPorts
  have hburdens := hs.burdens
  have hlength := congrArg List.length hs.history
  unfold Progress
  rcases hp.progress with ⟨rfl, rfl⟩ | ⟨rfl, ⟨a, rfl⟩, hrest⟩
  · cases hc : current₂ with
    | some a =>
      -- the access in service is one cycle closer to its answer
      have hcloser := hs.closer (by simp [hc])
      rw [hc] at hlength
      right
      rw [hlength]
      omega
    | none =>
      subst hc
      obtain rfl := hp.during.rest_of_none
      by_cases hheld : ∃ port ∈ v.cache.cpuPorts, port.parked ≠ none
      · -- a response was refused in this cycle
        obtain ⟨port, hmem, hparked⟩ := hheld
        have hlt := CpuSidePort.refusals_lt_burdens hmem hparked
        right
        rw [hlength]
        omega
      · refine .inl ⟨fun r hr => ?_, rfl⟩
        obtain ⟨i, hi⟩ := List.mem_iff_getElem?.mp hr
        refine (hp.settled rfl i r hi).resolve_right fun ⟨port, hport, hparked⟩ => hheld ?_
        exact ⟨port, List.mem_of_getElem? hport, hparked⟩
  · -- an offer was accepted
    right
    have hmore : (done' ++ (some a).toList).length = (done' ++ (none : Option Acceptance).toList).length + 1 := by
      simp
    rw [hmore, hlength, Nat.succ_mul]
    have hturn : rest₂ + 1 = u.turnaround := hrest
    omega

/-- A cycle serves what is due, and then the requestors play. -/
theorem Between.cycle_eq (hu : u.Valid) (h : u.Between k j s done current rest) (hj : u.InTime j) :
    (s.cycle j).result = ((s.begun (u.tick j)).serve (u.tick j)).result >>= fun t =>
      (playAll j t.requestors t).result >>= fun (requestors, t) => .ok { t with requestors } := by
  have hclock : s.clock.ticksOf j = .ok (u.tick j) := by rw [h.clock]; exact hj.ticksOf
  have hqueue := EventQueue.advanceTo_eq_ok h.now (h.next_le hu)
  have hmemory : s.memory.cycle j = .ok (s.memory.advanced (u.tick j)) :=
    TimedMemory.cycle_eq_ok (by rw [Simulation.memory, h.runs.memory.clock]; exact hj.ticksOf)
      h.runs.memory.retryPending
  exact result_cycle hclock hqueue hmemory h.attached.ids h.attached.asks

/-- A step answers, keeps the plan, and makes progress unless the run is done. -/
theorem Between.step (hu : u.Valid) (h : u.Between k j s done current rest) (hj : u.InTime j)
    (hk : k + 1 < Word.bound) :
    ∃ t done' current' rest', s.step.result = .ok t ∧ u.Between (k + 1) (j + 1) t done' current' rest' ∧
      (t.isDone ∨ u.Progress s done current rest t done' current' rest') := by
  obtain ⟨t, done', current', rest', hserve, hserved⟩ := h.serve hu hj hk
  have hduring : u.During (k + 1) j ([] ++ s.requestors) t done' current' rest' := hserved.during
  obtain ⟨played, v, current₂, rest₂, hplay, hplayed⟩ := hduring.playAll hu hj
  have hd : u.During (k + 1) j played v done' current₂ rest₂ := by simpa using hplayed.during
  have hstep : s.step.result = .ok { v with requestors := played, nextCycle := j + 1 } := by
    simp [Simulation.step, h.nextCycle, h.cycle_eq hu hj, hserve, hserved.requestors, hplay]
  have hlt : u.tick j < u.tick (j + 1) := hu.tick_lt_tick.mpr (Nat.lt_succ_self j)
  refine ⟨_, done', current₂, rest₂, hstep, ⟨hd.clock, rfl, ?_, hd.runs, hd.attached.mono (Nat.le_of_lt hlt),
    hd.wait, hd.sorted, fun a ha => ?_⟩, ?_⟩
  · rw [hd.now]
    exact Nat.le_of_lt hlt
  · rcases List.mem_append.mp ha with ha | ha
    · exact Nat.lt_trans (hd.past a ha) hlt
    · exact Nat.lt_of_le_of_lt (hd.recent a (by simpa using ha)) hlt
  · rcases hserved.progress hplayed with ⟨hdone, rfl⟩ | hprogress
    · exact .inl (Runs.isDone (s := { v with requestors := played, nextCycle := j + 1 }) hd.runs hdone)
    · exact .inr hprogress

end Plan

end CacheSim
