import CacheSim.Proofs.Simulation.Phases

/-!
# A cycle follows the plan

`Plan.Between` holds between two cycles and `Plan.During` while the requestors
play.  Both say how many cycles the access in service still takes at most
(`Plan.Wait`).  The part of a cycle before the requestors play brings it one
cycle closer or answers it (`Between.serve`).
-/

namespace CacheSim

namespace Simulation

/-- The system at the start of a cycle: due responses are available, and the
requestors have asked for those that they refused. -/
def begun (s : Simulation) (now : Tick) : Simulation :=
  (({ s with queue := { s.queue with now } } : Simulation).withMemory (s.memory.advanced now)).withPorts
    (s.cache.cpuPorts.map CpuSidePort.asked)

/-- The part of a cycle that the cache and the memory do. -/
def serve (s : Simulation) (now : Tick) : Sim Simulation := do
  let s ← s.deliverAll
  let s ← s.retryRequest
  s.fireDue now

/-- A cycle serves the access that is in service and lets the requestors play. -/
theorem result_cycle {s : Simulation} {cycle now : Nat} (hclock : s.clock.ticksOf cycle = .ok now)
    (hqueue : s.queue.advanceTo now = .ok { s.queue with now })
    (hmemory : s.memory.cycle cycle = .ok (s.memory.advanced now))
    (hids : s.requestors.map (·.id) = List.range' 0 s.cache.cpuPorts.length)
    (ha : ∀ port ∈ s.cache.cpuPorts, port.Asks) :
    (s.cycle cycle).result = ((s.begun now).serve now).result >>= fun t =>
      (playAll cycle t.requestors t).result >>= fun (requestors, t) => .ok { t with requestors } := by
  have hretry := result_retryResponses
    (s := ({ s with queue := { s.queue with now } } : Simulation).withMemory (s.memory.advanced now)) hids ha
  simp [Simulation.cycle, hclock, hqueue, hmemory, hretry, serve]
  rfl

/-- Nothing is served if neither a response is available nor an event is due. -/
theorem result_serve_of_quiet {s : Simulation} {now : Nat} (hready : s.memory.ready = [])
    (hretry : s.memory.sendRetry = false) (hnext : ∀ tick ∈ s.queue.next?, now < tick) :
    (s.serve now).result = .ok s := by
  simp [serve, result_deliverAll_of_none hready, result_retryRequest_of_none hretry,
    result_fireDue_of_quiet hnext]

end Simulation

namespace Plan

open CpuSidePort (refusals burdens)
open Simulation

/-- How many cycles after the one that comes next the access in service can still
be answered at the latest. -/
inductive Wait (u : Plan) (c : Cache Mailbox TimedMemory) (q : EventQueue AccessEvent) (next : Nat) :
    Nat → Prop
  | idle (service : c.service = .idle) : Wait u c q next 0
  | access {id cycle : Nat} {event : AccessEvent} (service : c.service = .access id)
    (pending : q.pending = [(u.tick cycle, event)]) (le : next ≤ cycle) :
    Wait u c q next (cycle - next + max u.latency 1)
  | fetch {id cycle since : Nat} {kept : Option Packet} {p : Packet} (service : c.service = .fetch id since kept)
    (ready : c.memPort.peer.ready = []) (inFlight : c.memPort.peer.inFlight.items = [⟨u.tick cycle, p⟩]) :
    Wait u c q next (cycle - next)

/-- Between two cycles, of which `next` is the second: the accesses `done` were
answered, `current` is in service, and they are sorted by the ticks at which they
were accepted. -/
structure Between (u : Plan) (k next : Nat) (s : Simulation) (done : List Acceptance)
    (current : Option Acceptance) (rest : Nat) : Prop where
  clock : s.clock = u.clock
  nextCycle : s.nextCycle = next
  now : s.queue.now ≤ u.tick next
  runs : u.Runs k s.cache s.queue done current
  attached : u.Attached (u.tick next) s.requestors s.cache.cpuPorts done current
  wait : u.Wait s.cache s.queue next rest
  sorted : (done ++ current.toList).Pairwise (·.tick < ·.tick)
  past : ∀ a ∈ done ++ current.toList, a.tick < u.tick next

/-- During a cycle, while the requestors `rs` play. -/
structure During (u : Plan) (k cycle : Nat) (rs : List ScriptedRequestor) (s : Simulation)
    (done : List Acceptance) (current : Option Acceptance) (rest : Nat) : Prop where
  clock : s.clock = u.clock
  nextCycle : s.nextCycle = cycle
  now : s.queue.now = u.tick cycle
  runs : u.Runs k s.cache s.queue done current
  attached : u.Attached (u.tick cycle) rs s.cache.cpuPorts done current
  wait : u.Wait s.cache s.queue (cycle + 1) rest
  sorted : (done ++ current.toList).Pairwise (·.tick < ·.tick)
  past : ∀ a ∈ done, a.tick < u.tick cycle
  recent : ∀ a ∈ current, a.tick ≤ u.tick cycle

variable {u : Plan} {k j : Nat} {s t : Simulation} {done done' : List Acceptance}
  {current current' : Option Acceptance} {rest rest' : Nat}

/-- The history stays what it was, so it is sorted and past. -/
theorem Between.during (h : u.Between k j s done current rest) {n : Nat}
    (hhistory : done' ++ current'.toList = done ++ current.toList) (hclock : t.clock = u.clock)
    (hnext : t.nextCycle = j) (hnow : t.queue.now = u.tick j) (hruns : u.Runs n t.cache t.queue done' current')
    (hattached : u.Attached (u.tick j) s.requestors t.cache.cpuPorts done' current')
    (hwait : u.Wait t.cache t.queue (j + 1) rest') :
    u.During n j s.requestors t done' current' rest' where
  clock := hclock
  nextCycle := hnext
  now := hnow
  runs := hruns
  attached := hattached
  wait := hwait
  sorted := hhistory ▸ h.sorted
  past a ha := h.past a (hhistory ▸ List.mem_append_left _ ha)
  recent a ha := Nat.le_of_lt (h.past a (hhistory ▸ List.mem_append_right _ (by simpa using ha)))

/-! ## The part before the requestors play -/

theorem Between.runs_begun (h : u.Between k j s done current rest) (hj : u.InTime j) :
    u.Runs k (s.begun (u.tick j)).cache (s.begun (u.tick j)).queue done current := by
  refine (h.runs.advance hj h.now).withPorts fun i port hp hfree => ⟨port.asked, ?_, ?_⟩
  · show (s.cache.cpuPorts.map CpuSidePort.asked)[i]? = _
    have hp' : s.cache.cpuPorts[i]? = some port := hp
    rw [List.getElem?_map, hp']
    rfl
  · rwa [CpuSidePort.asked_of_free hfree]

theorem Between.attached_begun (h : u.Between k j s done current rest) :
    u.Attached (u.tick j) s.requestors (s.begun (u.tick j)).cache.cpuPorts done current :=
  h.attached.asked

theorem Between.burdens_begun (h : u.Between k j s done current rest) :
    burdens (s.begun (u.tick j)).cache.cpuPorts ≤ refusals s.cache.cpuPorts :=
  CpuSidePort.burdens_asked_le h.attached.asks

/-- What a cycle has served before the requestors play. -/
structure Served (u : Plan) (k j : Nat) (s t : Simulation) (done : List Acceptance)
    (current : Option Acceptance) (rest : Nat) (done' : List Acceptance) (current' : Option Acceptance)
    (rest' : Nat) : Prop where
  during : u.During (k + 1) j s.requestors t done' current' rest'
  requestors : t.requestors = s.requestors
  history : done' ++ current'.toList = done ++ current.toList
  closer : current' ≠ none → rest' + 1 ≤ rest
  burdens : burdens t.cache.cpuPorts ≤ refusals s.cache.cpuPorts

/-- Nothing is due. -/
theorem Between.serve_quiet (h : u.Between k j s done current rest) (hj : u.InTime j)
    (hready : (s.begun (u.tick j)).memory.ready = []) (hnext : ∀ tick ∈ s.queue.next?, u.tick j < tick)
    (hwait : u.Wait (s.begun (u.tick j)).cache (s.begun (u.tick j)).queue (j + 1) rest')
    (hcloser : current ≠ none → rest' + 1 ≤ rest) :
    ((s.begun (u.tick j)).serve (u.tick j)).result = .ok (s.begun (u.tick j)) ∧
      u.Served k j s (s.begun (u.tick j)) done current rest done current rest' := by
  have hruns := h.runs_begun hj
  refine ⟨result_serve_of_quiet hready hruns.memory.sendRetry hnext, ?_, rfl, rfl, hcloser, h.burdens_begun⟩
  have hw := hruns.within
  refine h.during rfl h.clock h.nextCycle rfl ?_ h.attached_begun hwait
  exact ⟨hruns.consistent, hruns.shows, hw.mono (Nat.le_succ k), hruns.geometry, hruns.clock, hruns.memory,
    hruns.parked, hruns.deferred⟩

/-- The block comes that the access in service waits for. -/
theorem Between.serve_fill {a : Acceptance} (h : u.Between k j s done (some a) rest) (hj : u.InTime j)
    (hk : k + 1 < Word.bound) {p : Packet} (hready : (s.begun (u.tick j)).memory.ready = [p])
    (hflight : (s.begun (u.tick j)).memory.inFlight.items = []) :
    ∃ t, ((s.begun (u.tick j)).serve (u.tick j)).result = .ok t ∧
      u.Served k j s t done (some a) rest (done ++ [a]) none 0 := by
  have hruns := h.runs_begun hj
  have hnow : (s.begun (u.tick j)).queue.now < 2 ^ 63 := hj.tick_lt (Nat.le_add_right ..)
  obtain ⟨d, hfill, hd, hports⟩ := hruns.fill hready hflight hnow hk
  have hdeliver := result_deliverAll_of_one hready hfill
  have hmemory : d.memPort.peer.sendRetry = false := hd.memory.sendRetry
  have hpending : (s.begun (u.tick j)).queue.pending = [] := by
    cases hd.consistent.stage with
    | idle _ hq => exact hq
  refine ⟨{ s.begun (u.tick j) with cache := d }, ?_, ?_, rfl, by simp, fun hn => absurd rfl hn, ?_⟩
  · have hretry := result_retryRequest_of_none (s := { s.begun (u.tick j) with cache := d }) hmemory
    have hquiet : (fireDue { s.begun (u.tick j) with cache := d } (u.tick j)).result =
        .ok { s.begun (u.tick j) with cache := d } :=
      result_fireDue_of_quiet (by simp [EventQueue.next?, hpending])
    simp [Simulation.serve, hdeliver, hretry, hquiet]
  · refine h.during (by simp) h.clock h.nextCycle rfl hd ?_ (.idle hd.idle)
    show u.Attached _ _ d.cpuPorts _ _
    rw [hports]
    exact h.attached_begun.answered
  · show burdens d.cpuPorts ≤ _
    rw [hports]
    exact Nat.le_trans (burdens_answeredPorts_le _ _ _) h.burdens_begun

/-- The scheduled access is due: it answers its request, or sends a fetch. -/
theorem Between.serve_fire (hu : u.Valid) {a : Acceptance} (h : u.Between k j s done (some a) rest)
    (hj : u.InTime j) (hready : (s.begun (u.tick j)).memory.ready = []) {event : AccessEvent}
    (hpending : s.queue.pending = [(u.tick j, event)]) (hrest : max u.latency 1 ≤ rest) :
    ∃ t done' current' rest', ((s.begun (u.tick j)).serve (u.tick j)).result = .ok t ∧
      u.Served k j s t done (some a) rest done' current' rest' := by
  have hruns := h.runs_begun hj
  have hpending' : (s.begun (u.tick j)).queue.pending = [(u.tick j, event)] := hpending
  have hpop : (s.begun (u.tick j)).queue.pop? =
      some (u.tick j, event, { (s.begun (u.tick j)).queue with now := u.tick j, pending := [] }) := by
    simp only [EventQueue.pop?, hpending']
  obtain ⟨d, hfire, hd⟩ := hruns.fire hu hpop
  have hdue := result_fireDue_of_due hpending' (Nat.le_refl _) hfire
  have hserve : ((s.begun (u.tick j)).serve (u.tick j)).result = .ok { s.begun (u.tick j) with
      cache := d, queue := { (s.begun (u.tick j)).queue with now := u.tick j, pending := [] } } := by
    simp [Simulation.serve, result_deliverAll_of_none hready,
      result_retryRequest_of_none hruns.memory.sendRetry, hdue]
  rcases hd with ⟨hd, hports⟩ | ⟨hd, hports, ⟨since, kept, hservice⟩, hready', p, hflight⟩
  · refine ⟨_, done ++ [a], none, 0, hserve, ?_, rfl, by simp, fun hn => absurd rfl hn, ?_⟩
    · refine h.during (by simp) h.clock h.nextCycle rfl hd ?_ (.idle hd.idle)
      show u.Attached _ _ d.cpuPorts _ _
      rw [hports]
      exact h.attached_begun.answered
    · show burdens d.cpuPorts ≤ _
      rw [hports]
      exact Nat.le_trans (burdens_answeredPorts_le _ _ _) h.burdens_begun
  · refine ⟨_, done, some a, j + u.latency - (j + 1), hserve, ?_, rfl, rfl, fun _ => by omega, ?_⟩
    · have hflight' : d.memPort.peer.inFlight.items = [⟨u.tick (j + u.latency), p⟩] := by
        rw [hflight, tick_add]
        rfl
      refine h.during rfl h.clock h.nextCycle rfl hd ?_ (.fetch hservice hready' hflight')
      show u.Attached _ _ d.cpuPorts _ _
      rw [hports]
      exact h.attached_begun
    · show burdens d.cpuPorts ≤ _
      rw [hports]
      exact h.burdens_begun

/-- An access is scheduled: it is due, or one cycle closer. -/
theorem Between.serve_access (hu : u.Valid) {a : Acceptance} {id cycle : Nat} {event : AccessEvent}
    (h : u.Between k j s done (some a) (cycle - j + max u.latency 1)) (hj : u.InTime j)
    (hready : (s.begun (u.tick j)).memory.ready = []) (hs : s.cache.service = .access id)
    (hq : s.queue.pending = [(u.tick cycle, event)]) (hle : j ≤ cycle) :
    ∃ t done' current' rest', ((s.begun (u.tick j)).serve (u.tick j)).result = .ok t ∧
      u.Served k j s t done (some a) (cycle - j + max u.latency 1) done' current' rest' := by
  by_cases hlt : j < cycle
  · have hwait : u.Wait (s.begun (u.tick j)).cache (s.begun (u.tick j)).queue (j + 1)
        (cycle - (j + 1) + max u.latency 1) := .access hs hq hlt
    have hlater : ∀ tick ∈ s.queue.next?, u.tick j < tick := by
      simpa [EventQueue.next?, hq] using hu.tick_lt_tick.mpr hlt
    have hserve := h.serve_quiet hj hready hlater hwait fun _ => by omega
    exact ⟨_, done, some a, _, hserve⟩
  · obtain rfl : cycle = j := by omega
    exact h.serve_fire hu hj hready hq (by omega)

/-- A block is fetched: its response is due, or one cycle closer. -/
theorem Between.serve_fetch (hu : u.Valid) {a : Acceptance} {id cycle since : Nat} {kept : Option Packet}
    {p : Packet} (h : u.Between k j s done (some a) (cycle - j)) (hj : u.InTime j)
    (hk : k + 1 < Word.bound) (hs : s.cache.service = .fetch id since kept) (hready : s.memory.ready = [])
    (hflight : s.memory.inFlight.items = [⟨u.tick cycle, p⟩]) (hq : s.queue.pending = []) :
    ∃ t done' current' rest', ((s.begun (u.tick j)).serve (u.tick j)).result = .ok t ∧
      u.Served k j s t done (some a) (cycle - j) done' current' rest' := by
  by_cases hlt : j < cycle
  · obtain ⟨hnone, hsame⟩ := TimedMemory.advanced_of_lt hready hflight (hu.tick_lt_tick.mpr hlt)
    have hserve := h.serve_quiet hj hnone (by simp [EventQueue.next?, hq]) (.fetch hs hnone hsame)
      fun _ => by omega
    exact ⟨_, done, some a, _, hserve⟩
  · obtain ⟨hone, hnone⟩ := TimedMemory.advanced_of_le hready hflight (hu.tick_le_tick.mpr (Nat.not_lt.mp hlt))
    obtain ⟨t, hserve⟩ := h.serve_fill hj hk hone hnone
    exact ⟨t, _, none, 0, hserve⟩

/-- A cycle brings the access in service closer to its answer, or answers it,
before the requestors play. -/
theorem Between.serve (hu : u.Valid) (h : u.Between k j s done current rest) (hj : u.InTime j)
    (hk : k + 1 < Word.bound) :
    ∃ t done' current' rest', ((s.begun (u.tick j)).serve (u.tick j)).result = .ok t ∧
      u.Served k j s t done current rest done' current' rest' := by
  have hready : s.cache.lane.coming = [] → (s.begun (u.tick j)).memory.ready = [] := fun hc =>
    (ready_of_owed ((TimedMemory.owed_advanced _ _).trans (h.runs.coming.symm.trans hc))).1
  have hstage := h.runs.consistent.stage
  cases h.wait with
  | idle hs =>
    obtain rfl := h.runs.current_of_idle hs
    cases hstage with
    | idle _ hq hc =>
      have hserve := h.serve_quiet hj (hready hc) (by simp [EventQueue.next?, hq]) (.idle hs)
        fun hn => absurd rfl hn
      exact ⟨_, done, none, 0, hserve⟩
  | access hs hq hle =>
    cases current with
    | none => cases h.runs.idle.symm.trans hs
    | some a =>
      cases hstage with
      | access _ _ _ hc => exact h.serve_access hu hj (hready hc) hs hq hle
      | fetch hs' => simp [hs] at hs'
  | fetch hs hr hflight =>
    cases current with
    | none => cases h.runs.idle.symm.trans hs
    | some a =>
      have hq : s.queue.pending = [] := h.runs.pending (by simp [hs])
      exact h.serve_fetch hu hj hk hs hr hflight hq

end Plan

end CacheSim
