import CacheSim.Proofs.Simulation.Build
import CacheSim.Proofs.Simulation.History

/-!
# Runs of systems

Cycles keep the plan of a system (`Between.steps`), so whatever its
configuration, its requestors see a flat memory (`steps_like_flat_memory`).
Every cycle makes progress, so a run is done after as many cycles as the
latencies take for all accesses and one more for every response that is refused
(`Between.completes`, `run_completes`).
-/

namespace CacheSim

/-- The number of accesses of all scripts. -/
def Trace.accessCount (t : Trace) : Nat :=
  (t.scripts.map (·.accesses.length)).sum

/-- The number of responses that are refused. -/
def Trace.refusalCount (t : Trace) : Nat :=
  (t.scripts.map (·.refuseResponses.toNat)).sum

namespace Simulation

/-- Performs some cycles. -/
def steps (n : Nat) (s : Simulation) : Sim Simulation :=
  Sim.iterate (fun _ => true) step n s

/-- Cycles that are enough for a run. -/
def enough (config : Config) (trace : Trace) : Nat :=
  trace.accessCount * (config.cache.latency.toNat + max config.memory.latency.toNat 1) +
    trace.refusalCount + 1

/-- A system that is done performs no more cycles. -/
theorem result_iterate_of_isDone {s : Simulation} (h : s.isDone) (n : Nat) :
    (Sim.iterate (!·.isDone) step n s).result = .ok s := by
  cases n with
  | zero => rfl
  | succ n => simp [Sim.result_iterate_succ, h]

/-- A run that is done in time tells what can be told then. -/
theorem result_run_of_isDone {s t : Simulation} {limit : Nat} (h : (s.advance limit).result = .ok t)
    (hdone : t.isDone) : (s.run limit).result = .ok (.ok t.summary, t) := by
  simp [run, h, hdone]

end Simulation

namespace Plan

open Simulation
open CpuSidePort (refusals)

variable {u : Plan} {k j n : Nat} {s : Simulation} {done : List Acceptance} {current : Option Acceptance}
  {rest : Nat}

/-- Cycles answer and keep the plan. -/
theorem Between.steps (hu : u.Valid) (h : u.Between k j s done current rest)
    (hj : ∀ i < n, u.InTime (j + i)) (hk : k + n < Word.bound) :
    ∃ t done' current' rest', (Simulation.steps n s).result = .ok t ∧
      u.Between (k + n) (j + n) t done' current' rest' := by
  induction n generalizing k j s done current rest with
  | zero => exact ⟨s, done, current, rest, rfl, h⟩
  | succ n ih =>
    obtain ⟨v, done', current', rest', hstep, hv, -⟩ := h.step hu (hj 0 (Nat.succ_pos n)) (by omega)
    have hj' : ∀ i < n, u.InTime (j + 1 + i) := fun i hi => by
      rw [Nat.add_right_comm]
      exact hj (i + 1) (Nat.succ_lt_succ hi)
    obtain ⟨t, done₂, current₂, rest₂, hsteps, ht⟩ := ih hv hj' (by omega)
    refine ⟨t, done₂, current₂, rest₂, ?_, ?_⟩
    · rw [Simulation.steps, Sim.result_iterate_succ, if_pos rfl, hstep]
      exact hsteps
    · rwa [Nat.add_right_comm k, Nat.add_right_comm j] at ht

/-- A run is done before the cycles are used up that are ahead, together with
those that the accesses take which were not accepted yet. -/
theorem Between.completes (hu : u.Valid) (h : u.Between k j s done current rest)
    (hbudget : rest + refusals s.cache.cpuPorts + u.total * u.turnaround <
      n + (done ++ current.toList).length * u.turnaround)
    (hj : ∀ i < n, u.InTime (j + i)) (hk : k + n < Word.bound) :
    ∃ m ≤ n, ∃ t done' current' rest', u.Between (k + m) (j + m) t done' current' rest' ∧ t.isDone ∧
      ∀ limit, n ≤ limit → (Sim.iterate (!·.isDone) Simulation.step limit s).result = .ok t := by
  induction n generalizing k j s done current rest with
  | zero =>
    have hle := Nat.mul_le_mul_right u.turnaround h.serial.length_le
    omega
  | succ n ih =>
    by_cases hdone : s.isDone
    · exact ⟨0, Nat.zero_le _, s, done, current, rest, h, hdone, fun limit _ =>
        result_iterate_of_isDone hdone limit⟩
    · obtain ⟨v, done', current', rest', hstep, hv, hnext⟩ := h.step hu (hj 0 (Nat.succ_pos n)) (by omega)
      have hfirst : ∀ limit, (Sim.iterate (!·.isDone) Simulation.step (limit + 1) s).result =
          (Sim.iterate (!·.isDone) Simulation.step limit v).result := fun limit => by
        simp [Sim.result_iterate_succ, hdone, hstep]
      rcases hnext with hend | hprogress
      · refine ⟨1, by omega, v, done', current', rest', hv, hend, fun limit hle => ?_⟩
        obtain ⟨limit, rfl⟩ : ∃ l, limit = l + 1 := ⟨limit - 1, by omega⟩
        rw [hfirst, result_iterate_of_isDone hend]
      · have hj' : ∀ i < n, u.InTime (j + 1 + i) := fun i hi => by
          rw [Nat.add_right_comm]
          exact hj (i + 1) (Nat.succ_lt_succ hi)
        have hbudget' : rest' + refusals v.cache.cpuPorts + u.total * u.turnaround <
            n + (done' ++ current'.toList).length * u.turnaround := by
          unfold Progress at hprogress
          omega
        obtain ⟨m, hm, t, done₂, current₂, rest₂, ht, hend, hrun⟩ := ih hv hbudget' hj' (by omega)
        refine ⟨m + 1, by omega, t, done₂, current₂, rest₂, ?_, hend, fun limit hle => ?_⟩
        · rwa [Nat.add_right_comm k, Nat.add_right_comm j] at ht
        · obtain ⟨limit, rfl⟩ : ∃ l, limit = l + 1 := ⟨limit - 1, by omega⟩
          rw [hfirst]
          exact hrun limit (by omega)

end Plan

namespace Simulation

open CpuSidePort (refusals)

variable {config : Config} {trace : Trace}

/-! ## Numbers of a trace -/

/-- A sum over the scripts of a trace is one over as many requestors or more, if
those without a script do not count. -/
theorem sum_scripts (f : Script → Nat) (hf : f {} = 0) {n : Nat} (hn : trace.scripts.length ≤ n) :
    ((List.range n).map fun id => f (trace.script id)).sum = (trace.scripts.map f).sum := by
  obtain ⟨scripts⟩ := trace
  induction scripts generalizing n with
  | nil => simp [Trace.script, hf]
  | cons script scripts ih =>
    obtain ⟨n, rfl⟩ : ∃ m, n = m + 1 := ⟨n - 1, by simp at hn; omega⟩
    have hrest := ih (n := n) (by simpa using hn)
    rw [List.range_succ_eq_map, List.map_cons, List.map_map, List.map_cons, List.sum_cons, List.sum_cons,
      ← hrest]
    rfl

theorem total_plan (start : FlatMemory) (hports : trace.scripts.length ≤ config.cache.ports.toNat) :
    (plan config trace start).total = trace.accessCount :=
  sum_scripts (·.accesses.length) rfl hports

theorem refusals_initial (store : Store) (bytes : Chunks)
    (hports : trace.scripts.length ≤ config.cache.ports.toNat) :
    refusals (initial config trace store bytes).cache.cpuPorts = trace.refusalCount := by
  have hmailboxes := Cache.map_peer_connect "system.cache" 0
    ((List.range config.cache.ports.toNat).map fun id =>
      ScriptedRequestor.mailboxFor (requestorName id) (trace.script id))
  have hrefuse := congrArg (fun mailboxes => (mailboxes.map Mailbox.refuse).sum) hmailboxes
  simp only [List.map_map] at hrefuse
  exact hrefuse.trans (sum_scripts (·.refuseResponses.toNat) rfl hports)

/-! ## Results of systems -/

/-- Two lines of four bytes for two requestors, and a memory of four blocks. -/
def smallConfig : Config where
  lineSize := 4
  cache := { kind := .fullyAssociative, size := ⟨8⟩, optimized := true, ports := 2 }
  memory := { latency := 3, buffer := 1, range := ⟨16⟩ }

/-- A write that is read again after the block of another access, by a requestor
that refuses two responses. -/
def smallScript : Script where
  refuseResponses := 2
  accesses := [⟨.write, 1, none, some [7, 8]⟩, ⟨.read, 4, some 4, none⟩, ⟨.read, 0, some 4, none⟩]

/-- Whatever the configuration, and whatever bytes the memory holds first, after
any number of cycles the requestors cannot tell the system from a flat memory
that executes the accepted accesses in the order in which they were accepted, no
two of them at the same time.  What a lone requestor gets is a matter of its
script and the first bytes only. -/
theorem steps_like_flat_memory (hv : config.validate = .ok ())
    (hports : trace.scripts.length ≤ config.cache.ports.toNat)
    (hfits : trace.FitsIn config.lineSize.toNat config.memory.range.bytes.toNat)
    {bytes : Chunks} (hbytes : bytes.Valid) {n : Nat}
    (htime : (n - 1 + max config.cache.latency.toNat config.memory.latency.toNat) *
      config.clockPeriod.toNat < 2 ^ 63) :
    ∃ s t history, (build config trace).result = .ok (.ok s) ∧
      (steps n (s.loaded bytes)).result = .ok t ∧
      (plan config trace bytes.byte).Serial t history ∧
      ((t.requestors.flatMap (·.completions)).map (·.accepted)).Nodup ∧
      ∀ script, trace.scripts = [script] → ∃ r, t.requestors.head? = some r ∧
        r.completions.map (·.data) <+: FlatMemory.outcomes bytes.byte script.accesses ∧
        (t.isDone → r.completions.map (·.data) = FlatMemory.outcomes bytes.byte script.accesses) := by
  have hc := Config.checked_of_validate hv
  have hu : (plan config trace bytes.byte).Valid := valid_plan hc hfits
  have hlast : (plan config trace bytes.byte).InTime (n - 1) := htime
  have hfirst := hlast.mono (Nat.zero_le _)
  obtain ⟨store, hbuild, hstart⟩ := build_follows hv hports hbytes hfirst
  have hbound : n < Word.bound := by
    have hn := hlast.lt hu
    have hword : Word.bound = 2 ^ 64 := rfl
    omega
  obtain ⟨t, done, current, rest, hsteps, ht⟩ := hstart.steps hu (n := n)
    (fun i hi => hlast.mono (by omega)) (by rwa [Nat.zero_add])
  have hserial := ht.serial
  refine ⟨_, t, _, hbuild, hsteps, hserial, hserial.nodup_accepted, fun script hscript => ?_⟩
  have hsingle : ∀ id, id ≠ 0 → (trace.script id).accesses = [] := fun id hid => by
    obtain ⟨id, rfl⟩ := Nat.exists_eq_succ_of_ne_zero hid
    rw [Trace.script, hscript]
    rfl
  have hzero : (plan config trace bytes.byte).script 0 = script.accesses := by
    show (trace.script 0).accesses = _
    rw [Trace.script, hscript]
    rfl
  obtain ⟨r, hr, hdata⟩ := hserial.data_of_single hsingle hc.ports
  rw [hzero] at hdata
  exact ⟨r, hr, hdata⟩

/-- The theorem at a lone requestor, which completes its three accesses, and a memory that holds
some bytes first. -/
theorem steps_like_flat_memory_of_small :
    ∃ s t history, (build smallConfig ⟨[smallScript]⟩).result = .ok (.ok s) ∧
      (steps 20 (s.loaded (Chunks.empty.overlay 0 [1, 2, 3, 4, 5]))).result = .ok t ∧
      (t.requestors.flatMap (·.completions)).length = 3 ∧
      (plan smallConfig ⟨[smallScript]⟩ (Chunks.empty.overlay 0 [1, 2, 3, 4, 5]).byte).Serial t history ∧
      ((t.requestors.flatMap (·.completions)).map (·.accepted)).Nodup ∧
      ∀ script, [smallScript] = [script] → ∃ r, t.requestors.head? = some r ∧
        r.completions.map (·.data) <+:
          FlatMemory.outcomes (Chunks.empty.overlay 0 [1, 2, 3, 4, 5]).byte script.accesses ∧
        (t.isDone → r.completions.map (·.data) =
          FlatMemory.outcomes (Chunks.empty.overlay 0 [1, 2, 3, 4, 5]).byte script.accesses) := by
  obtain ⟨s, t, history, hbuild, hsteps, h⟩ := @steps_like_flat_memory smallConfig ⟨[smallScript]⟩ (by decide)
    (by decide) (by decide) _ (Chunks.valid_empty.overlay 0 [1, 2, 3, 4, 5]) 20 (by decide)
  have hrun : ((build smallConfig ⟨[smallScript]⟩).result.toOption.bind fun built => built.toOption.bind fun s =>
      (steps 20 (s.loaded (Chunks.empty.overlay 0 [1, 2, 3, 4, 5]))).result.toOption.map fun t =>
        (t.requestors.flatMap (·.completions)).length) = some 3 := by rfl
  rw [hbuild] at hrun
  simp only [Except.toOption, Option.bind_some, hsteps, Option.map_some, Option.some.injEq] at hrun
  exact ⟨s, t, history, hbuild, hsteps, hrun, h⟩

/-- A run of a system is done after as many cycles as are enough, whatever its
requestors refuse first: every requestor has completed its script, in order. -/
theorem run_completes (hv : config.validate = .ok ())
    (hports : trace.scripts.length ≤ config.cache.ports.toNat)
    (hfits : trace.FitsIn config.lineSize.toNat config.memory.range.bytes.toNat)
    (htime : (enough config trace + config.cache.latency.toNat + config.memory.latency.toNat) *
      config.clockPeriod.toNat < 2 ^ 63) :
    ∃ s, (build config trace).result = .ok (.ok s) ∧ ∀ limit, enough config trace ≤ limit →
      ∃ summary t, (s.run limit).result = .ok (.ok summary, t) ∧ summary.cycles ≤ enough config trace ∧
        summary.completions.map (·.map (·.access)) =
          (List.range config.cache.ports.toNat).map (fun id => (trace.script id).accesses) ∧
        ∀ cs ∈ summary.completions, ∀ c ∈ cs, c.issued ≤ c.accepted ∧ c.accepted < c.responded := by
  have hc := Config.checked_of_validate hv
  have hu : (plan config trace Chunks.empty.byte).Valid := valid_plan hc hfits
  have hlast : (plan config trace Chunks.empty.byte).InTime (enough config trace) := by
    refine Nat.lt_of_le_of_lt (Nat.mul_le_mul_right _ ?_) htime
    show _ + max config.cache.latency.toNat config.memory.latency.toNat ≤ _
    omega
  have hfirst := hlast.mono (Nat.zero_le _)
  obtain ⟨store, hbuild, hstart⟩ := build_follows hv hports Chunks.valid_empty hfirst
  have hbudget : 0 + refusals (initial config trace store .empty).cache.cpuPorts +
      (plan config trace Chunks.empty.byte).total * (plan config trace Chunks.empty.byte).turnaround <
        enough config trace + 0 * (plan config trace Chunks.empty.byte).turnaround := by
    rw [refusals_initial store .empty hports, total_plan _ hports, Nat.zero_add, Nat.zero_mul, Nat.add_zero,
      Nat.add_comm]
    exact Nat.lt_succ_self _
  have hbound : enough config trace < Word.bound := Nat.lt_trans (hlast.lt hu) (by decide)
  obtain ⟨m, hm, t, done, current, rest, ht, hdone, hrun⟩ := hstart.completes hu hbudget
    (fun i hi => hlast.mono (by omega)) (by rwa [Nat.zero_add])
  refine ⟨_, hbuild, fun limit hlimit => ⟨t.summary, t, result_run_of_isDone (hrun limit hlimit) hdone, ?_, ?_,
    fun cs hcs c hc => ?_⟩⟩
  · show t.nextCycle ≤ _
    rwa [ht.nextCycle, Nat.zero_add]
  · rw [summary, List.map_map]
    exact ht.serial.completions_of_isDone hdone
  · obtain ⟨r, hr, rfl⟩ := List.mem_map.mp hcs
    obtain ⟨i, hi⟩ := List.mem_iff_getElem?.mp hr
    exact ht.attached.timely hi hc

/-- The theorem at two requestors that compete for two lines. -/
theorem run_completes_of_small :
    ∃ s, (build smallConfig ⟨[smallScript, smallScript]⟩).result = .ok (.ok s) ∧
      ∀ limit, enough smallConfig ⟨[smallScript, smallScript]⟩ ≤ limit →
        ∃ summary t, (s.run limit).result = .ok (.ok summary, t) ∧
          summary.cycles ≤ enough smallConfig ⟨[smallScript, smallScript]⟩ ∧
          summary.completions.map (·.map (·.access)) =
            (List.range smallConfig.cache.ports.toNat).map
              (fun id => (Trace.script ⟨[smallScript, smallScript]⟩ id).accesses) ∧
          ∀ cs ∈ summary.completions, ∀ c ∈ cs, c.issued ≤ c.accepted ∧ c.accepted < c.responded :=
  run_completes (by decide) (by decide) (by decide) (by decide)

end Simulation

end CacheSim
