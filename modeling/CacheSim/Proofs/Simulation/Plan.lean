import CacheSim.Proofs.Cache.Coherence
import CacheSim.Proofs.Memory.Replay
import CacheSim.Proofs.Memory.Timed
import CacheSim.Proofs.Requestor.Mailbox

/-!
# The cache and the memory of a system

A `Plan` is what a system is built for, and `Plan.Runs` says that its cache and
its memory follow it: accesses that were answered and the one in service, on the
bytes that the memory started with.  What happens between them keeps this: time
passes (`Runs.advance`), a request is accepted (`Runs.offered`), its access hits
or fetches (`Runs.fire`), and the block that comes answers it (`Runs.fill`).

The memory never refuses anything, because a fetch is sent when nothing is owed
and there is room for one response at least.
-/

namespace CacheSim

/-- What a system is built for. -/
structure Plan where
  clock : Clock
  geometry : Geometry
  /-- Cycles from the acceptance of a request by the memory to its response. -/
  latency : Nat
  /-- How many responses may be on their way. -/
  buffer : Nat
  /-- The bytes of the memory. -/
  range : Nat
  /-- The number of ports for requestors. -/
  ports : Nat
  /-- The accesses of a requestor. -/
  script : Nat → List Access
  /-- The bytes that the memory starts with. -/
  start : FlatMemory

namespace Plan

/-- The tick of a cycle. -/
def tick (u : Plan) (cycle : Nat) : Nat :=
  cycle * u.clock.period

/-- The numbers make sense, and every access fits in a line within the memory. -/
structure Valid (u : Plan) : Prop where
  period : 0 < u.clock.period
  lineSize : 0 < u.geometry.lineSize
  cacheLatency : 0 < u.geometry.latency
  buffer : 0 < u.buffer
  range : u.range < Word.bound
  fits : ∀ id, ∀ a ∈ u.script id, a.FitsIn u.geometry.lineSize u.range

/-- The ticks that a cycle deals with stay below 2 to the 63. -/
def InTime (u : Plan) (cycle : Nat) : Prop :=
  u.tick (cycle + max u.geometry.latency u.latency) < 2 ^ 63

/-- The blocks that lie in the memory. -/
def Domain (u : Plan) (block : Nat) : Prop :=
  block + u.geometry.lineSize ≤ u.range

/-- The memory is the one that was planned, and nobody waits for room in it. -/
structure Memory (u : Plan) (m : TimedMemory) : Prop where
  clock : m.clock = u.clock
  latency : m.latency = u.tick u.latency
  range : m.range = ⟨0, u.range⟩
  limit : m.inFlight.limit = some u.buffer
  retryPending : m.retryPending = false
  sendRetry : m.sendRetry = false
  bytes : m.bytes.Valid

/-- The cache and the memory follow the plan: the accesses `done` were answered,
`current` is in service, and the counters have not passed `k`. -/
structure Runs (u : Plan) (k : Nat) (c : Cache Mailbox TimedMemory) (q : EventQueue AccessEvent)
    (done : List Acceptance) (current : Option Acceptance) : Prop where
  consistent : c.Consistent u.Domain q (current.map Acceptance.request)
  shows : c.Shows (current.map Acceptance.request) (u.start.updates (done.map (·.access)))
  within : c.Within k
  geometry : c.geometry = u.geometry
  clock : q.clock = u.clock
  memory : u.Memory c.memPort.peer
  parked : c.memPort.parked = none
  deferred : c.deferred = none

variable {u : Plan} {k : Nat} {c : Cache Mailbox TimedMemory} {q r : EventQueue AccessEvent}
  {done : List Acceptance} {current : Option Acceptance} {a : Acceptance}

theorem InTime.mono {i j : Nat} (h : u.InTime j) (hij : i ≤ j) : u.InTime i :=
  Nat.lt_of_le_of_lt (Nat.mul_le_mul_right _ (by omega)) h

theorem InTime.tick_lt {i j : Nat} (h : u.InTime j) (hi : i ≤ j + max u.geometry.latency u.latency) :
    u.tick i < 2 ^ 63 :=
  Nat.lt_of_le_of_lt (Nat.mul_le_mul_right _ hi) h

theorem InTime.lt (hu : u.Valid) {j : Nat} (h : u.InTime j) : j < 2 ^ 63 :=
  Nat.lt_of_le_of_lt (Nat.le_mul_of_pos_right _ hu.period) (h.tick_lt (Nat.le_add_right ..))

theorem tick_add (u : Plan) (i j : Nat) : u.tick (i + j) = u.tick i + u.tick j :=
  Nat.add_mul ..

theorem Valid.tick_lt_tick (h : u.Valid) {i j : Nat} : u.tick i < u.tick j ↔ i < j :=
  Nat.mul_lt_mul_right h.period

theorem Valid.tick_le_tick (h : u.Valid) {i j : Nat} : u.tick i ≤ u.tick j ↔ i ≤ j :=
  Nat.mul_le_mul_right_iff h.period

theorem InTime.ticksOf {j : Nat} (h : u.InTime j) : u.clock.ticksOf j = .ok (u.tick j) := by
  have hlt := h.tick_lt (Nat.le_add_right ..)
  have hbound : 2 ^ 63 < Word.bound := by decide
  exact Word.mul_eq_ok.mpr ⟨Nat.lt_trans hlt hbound, rfl⟩

/-- The edge at which an access is due that is accepted in a cycle. -/
theorem InTime.edge (hu : u.Valid) {j : Nat} (h : u.InTime j) (hclock : q.clock = u.clock)
    (hnow : q.now = u.tick j) : q.edge u.geometry.latency = .ok (u.tick (j + u.geometry.latency)) := by
  have hceil : u.clock.ceilDiv (u.tick j) = j := Clock.ceilDiv_mul hu.period j
  have hlt := h.tick_lt (Nat.add_le_add_left (Nat.le_max_left u.geometry.latency u.latency) j)
  have hbound : 2 ^ 63 < Word.bound := by decide
  rw [EventQueue.edge, hclock, hnow, Clock.edge_eq_ok (by rw [hceil]; exact Nat.lt_trans hlt hbound), hceil]
  rfl

/-! ## The cache at rest and at work -/

theorem Runs.idle (h : u.Runs k c q done none) : c.service = .idle := by
  cases h.consistent.stage with
  | idle hs => exact hs

theorem Runs.current_of_idle (h : u.Runs k c q done current) (hs : c.service = .idle) : current = none := by
  have hstage := h.consistent.stage
  cases current with
  | none => rfl
  | some a =>
    cases hstage with
    | access hs' => simp [hs] at hs'
    | fetch hs' => simp [hs] at hs'

/-- An event is pending only for a scheduled access. -/
theorem Runs.pending (h : u.Runs k c q done current) (hs : ∀ id, c.service ≠ .access id) : q.pending = [] := by
  have hstage := h.consistent.stage
  generalize current.map Acceptance.request = served at hstage
  cases hstage with
  | idle _ hq => exact hq
  | access hs' => exact absurd hs' (hs _)
  | fetch _ _ hq => exact hq

theorem Runs.held (h : u.Runs k c q done current) : c.lane.held = [] := by
  simp [Lane.held, Cache.lane, h.parked, h.deferred]

theorem Runs.coming (h : u.Runs k c q done current) : c.lane.coming = c.memPort.peer.owed := by
  rw [Lane.coming, h.held, FlatMemory.answers_nil, List.append_nil]
  rfl

/-- When nothing is owed, no response is on its way. -/
theorem ready_of_owed {m : TimedMemory} (h : m.owed = []) : m.ready = [] ∧ m.inFlight.items = [] := by
  obtain ⟨hr, hf⟩ := List.append_eq_nil_iff.mp h
  exact ⟨hr, List.map_eq_nil_iff.mp hf⟩

/-- An idle cache shows the bytes of the memory after the answered accesses. -/
theorem Runs.image_of_idle (h : u.Runs k c q done none) :
    c.store.overlay c.memPort.peer.bytes.byte = u.start.updates (done.map (·.access)) := by
  have himage := (Cache.shows_of_idle h.idle).mp h.shows
  rwa [Cache.image, Lane.backing, h.held] at himage

/-! ## What the requestors do -/

/-- The ports may change as long as none holds an answer that held none before. -/
theorem Runs.withPorts (h : u.Runs k c q done current) {ports : List (CpuSidePort Mailbox)}
    (hports : ∀ (i : Nat) (port : CpuSidePort Mailbox), c.cpuPorts[i]? = some port → port.parked = none →
      ∃ port' : CpuSidePort Mailbox, ports[i]? = some port' ∧ port'.parked = none) :
    u.Runs k { c with cpuPorts := ports } q done current :=
  ⟨h.consistent.withPorts hports, h.shows, ⟨h.within.hits, h.within.misses, h.within.samples, h.within.time⟩,
    h.geometry, h.clock, h.memory, h.parked, h.deferred⟩

theorem Runs.setCpuPort (h : u.Runs k c q done current) {i : Nat} {port : CpuSidePort Mailbox}
    (hport : c.cpuPorts[i]? = some port) (port' : CpuSidePort Mailbox) (hparked : port'.parked = port.parked) :
    u.Runs k (c.setCpuPort i port') q done current :=
  ⟨h.consistent.setCpuPort hport port' hparked.trans, h.shows,
    ⟨h.within.hits, h.within.misses, h.within.samples, h.within.time⟩, h.geometry, h.clock, h.memory, h.parked,
    h.deferred⟩

/-- A request that is accepted. -/
theorem Runs.offered (hu : u.Valid) (h : u.Runs k c q done none) (ha : a.access ∈ u.script a.id)
    {port : CpuSidePort Mailbox} (hport : c.cpuPorts[a.id]? = some port) (hfree : port.parked = none)
    (tick : Tick) :
    u.Runs k (c.serving (.access a.id))
      { q with pending := EventQueue.place tick ⟨a.access.toPacket a.id⟩ q.pending } done (some a) := by
  have hfits := hu.fits a.id a.access ha
  have hsize : c.lineSize = u.geometry.lineSize := congrArg Geometry.lineSize h.geometry
  have hdomain : u.Domain ((a.access.toPacket a.id).block c.lineSize) := by
    rw [Packet.block, Access.addr_toPacket, hsize]
    exact hfits.below
  refine ⟨h.consistent.offered (hsize ▸ hfits.isAccess a.id) hdomain hport hfree tick, ?_,
    ⟨h.within.hits, h.within.misses, h.within.samples, h.within.time⟩, h.geometry, h.clock, h.memory,
    h.parked, h.deferred⟩
  exact (Cache.shows_of_access (Cache.service_serving c _)).mpr ((Cache.shows_of_idle h.idle).mp h.shows)

/-! ## Time -/

/-- Time moves to a cycle, and the responses that are due become available. -/
theorem Runs.advance (h : u.Runs k c q done current) {j : Nat} (hj : u.InTime j) (hq : q.now ≤ u.tick j) :
    u.Runs k (c.withLane (c.lane.withPeer (c.memPort.peer.advanced (u.tick j)))) { q with now := u.tick j }
      done current := by
  have hready : u.tick j + c.memPort.peer.latency < Word.bound := by
    have hlt := hj.tick_lt (Nat.add_le_add_left (Nat.le_max_right u.geometry.latency u.latency) j)
    rw [h.memory.latency, ← tick_add]
    exact Nat.lt_trans hlt (by decide)
  obtain ⟨hsound, hnone, hsome⟩ := h.consistent.sane.lane.change_spec
    (c.memPort.peer.advanced (u.tick j)) (c.memPort.peer.owed_advanced _) fun p hp =>
      TimedMemory.Serves.advanced hp hready
  have hcoming : (c.lane.withPeer (c.memPort.peer.advanced (u.tick j))).coming = c.lane.coming :=
    congrArg (· ++ _) (c.memPort.peer.owed_advanced _)
  have hadvance := h.consistent.advance (r := { q with now := u.tick j }) rfl hq
  refine ⟨hadvance.withLane hsound hnone hsome, h.shows.of_eq rfl rfl hcoming rfl,
    ⟨h.within.hits, h.within.misses, h.within.samples, h.within.time⟩, h.geometry, h.clock, ?_, h.parked,
    h.deferred⟩
  have hm := h.memory
  exact ⟨hm.clock, hm.latency, hm.range, hm.limit, hm.retryPending, hm.sendRetry, hm.bytes⟩

/-! ## The access in service -/

theorem Memory.performed {m : TimedMemory} (h : u.Memory m) (p : Packet) : u.Memory (m.performed p) := by
  refine ⟨h.clock, h.latency, h.range, ?_, h.retryPending, h.sendRetry, ?_⟩
  · show Fifo.limit (if _ then _ else _) = _
    split
    · exact h.limit
    · exact h.limit
  · show Chunks.Valid (if _ then _ else _)
    split
    · exact h.bytes.overlay _ _
    · exact h.bytes

/-- The answer to an access that the flat memory gives. -/
def answer (u : Plan) (done : List Acceptance) (a : Acceptance) : Packet :=
  (u.start.updates (done.map (·.access))).answer (a.access.toPacket a.id)

/-- The access in service was answered. -/
theorem Runs.of_answered {d : Cache Mailbox TimedMemory} {answer : Packet} {image : FlatMemory}
    (hd : Cache.Answered u.Domain c d q a.id answer image) (hwithin : c.Within k)
    (hgeometry : c.geometry = u.geometry) (hclock : q.clock = u.clock) (hmemory : u.Memory c.memPort.peer)
    (hparked : c.memPort.parked = none) (hdeferred : c.deferred = none)
    (himage : image = (u.start.updates (done.map (·.access))).perform (a.access.toPacket a.id)) :
    u.Runs (k + 1) d q (done ++ [a]) none := by
  have hidle : d.service = .idle := by
    cases hd.consistent.stage with
    | idle hs => exact hs
  have hshows : d.image = u.start.updates ((done ++ [a]).map (·.access)) := by
    rw [hd.image, himage, FlatMemory.perform_toPacket, List.map_append, List.map_singleton,
      FlatMemory.updates_concat]
  have hlane : u.Memory d.lane.port.peer ∧ d.lane.port.parked = none ∧ d.lane.deferred = none := by
    rcases hd.lane with hl | ⟨w, hw, -, -, hl⟩ <;> rw [hl]
    · exact ⟨hmemory, hparked, hdeferred⟩
    · have hpush : c.lane.push w = ⟨c.memPort.forwarded w, c.deferred⟩ := Lane.push_of_free hparked w
      rw [hpush, MemSidePort.forwarded_of_room (.inl hw)]
      exact ⟨hmemory.performed w, hparked, hdeferred⟩
  exact ⟨hd.consistent, (Cache.shows_of_idle hidle).mpr hshows, hd.within k hwithin,
    hd.geometry.trans hgeometry, hclock, hlane.1, hlane.2.1, hlane.2.2⟩

/-- The block that the access in service waits for comes, which answers it. -/
theorem Runs.fill (h : u.Runs k c q done (some a)) {p : Packet} (hready : c.memPort.peer.ready = [p])
    (hflight : c.memPort.peer.inFlight.items = []) (hnow : q.now < 2 ^ 63) (hk : k + 1 < Word.bound) :
    ∃ d, ((c.withLane (c.lane.withPeer { c.memPort.peer with ready := [] })).fill q.now p).result = .ok d ∧
      u.Runs (k + 1) d q (done ++ [a]) none ∧
      d.cpuPorts = Cache.answeredPorts c.cpuPorts a.id (u.answer done a) := by
  have howed : c.lane.owed = [p] := by
    show c.memPort.peer.owed = [p]
    rw [TimedMemory.owed, hready, hflight]
    rfl
  have hmem : p ∈ c.lane.owed := by simp [howed]
  obtain ⟨-, hfill, -⟩ := Cache.Consistent.owed_eq h.consistent hmem
  obtain ⟨data, hdata, -⟩ := hfill.payload
  have hbound : Word.bound = 2 ^ 64 := rfl
  have hnow' : 2 * q.now < Word.bound := by
    unfold Tick at *
    omega
  have hsamples : c.stats.missLatency.samples + 1 < Word.bound := by
    have := h.within.samples
    omega
  have hgives : Cache.Gives c { c.memPort.peer with ready := [] } := by
    refine ⟨List.ne_nil_of_mem hmem, ?_, rfl, fun r hr =>
      ⟨hr.bytes, hr.start, hr.stop, hr.word, hr.carries, hr.ready⟩⟩
    show [] ++ _ = []
    rw [hflight]
    rfl
  obtain ⟨d, hres, hd⟩ := Cache.Consistent.fill h.consistent hgives hfill hdata hnow' hsamples
  obtain ⟨hanswer, himage⟩ := h.shows.completion_eq h.consistent hmem hdata
  have hm := h.memory
  have hw := h.within
  refine ⟨d, hres, of_answered hd ⟨hw.hits, hw.misses, hw.samples, hw.time⟩ h.geometry h.clock
    ⟨hm.clock, hm.latency, hm.range, hm.limit, hm.retryPending, hm.sendRetry, hm.bytes⟩ h.parked h.deferred
    himage, ?_⟩
  rw [hd.cpuPorts, hanswer]
  rfl

/-- While the access is scheduled, nothing is on its way. -/
theorem Runs.quiet (h : u.Runs k c q done (some a)) (hpending : q.pending ≠ []) :
    c.memPort.peer.ready = [] ∧ c.memPort.peer.inFlight.items = [] := by
  refine ready_of_owed (h.coming.symm.trans ?_)
  have hstage : Cache.Stage u.Domain c q (some (a.id, a.access.toPacket a.id)) := h.consistent.stage
  cases hstage with
  | access _ _ _ hc => exact hc
  | fetch _ _ hq => exact absurd hq hpending

/-- A fetch for the access in service has a response. -/
theorem Runs.needsResponse_fetch (h : u.Runs k c q done (some a)) :
    ((a.access.toPacket a.id).fetch c.lineSize).command.needsResponse := by
  have hstage : Cache.Stage u.Domain c q (some (a.id, a.access.toPacket a.id)) := h.consistent.stage
  cases hstage with
  | access _ hw => exact hw.access.needsResponse_fetch
  | fetch _ hw => exact hw.access.needsResponse_fetch

/-- The memory has accepted the fetch for the access in service. -/
theorem Runs.of_fetching (hu : u.Valid) (h : u.Runs k c q done (some a)) (hpending : q.pending ≠ [])
    {d : Cache Mailbox TimedMemory} {now : Tick}
    (hd : Cache.Fetching u.Domain c d r a.id (a.access.toPacket a.id) now) (hclock : r.clock = u.clock)
    (hshows : d.Shows (some (a.id, a.access.toPacket a.id)) (u.start.updates (done.map (·.access)))) :
    u.Runs (k + 1) d r done (some a) ∧ d.memPort.peer.ready = [] ∧
      ∃ p, d.memPort.peer.inFlight.items = [⟨c.memPort.peer.now + u.tick u.latency, p⟩] := by
  obtain ⟨hready, hflight⟩ := h.quiet hpending
  have hroom : c.memPort.peer.inFlight.isFull = false := by
    have hbuffer := hu.buffer
    simp [Fifo.isFull, h.memory.limit, Fifo.size, hflight]
    omega
  have hlane : d.lane = ⟨{ c.memPort with
      peer := c.memPort.peer.performed ((a.access.toPacket a.id).fetch c.lineSize) }, c.deferred⟩ := by
    have hpush : ∀ p, c.lane.push p = ⟨c.memPort.forwarded p, c.deferred⟩ := Lane.push_of_free h.parked
    rw [hd.lane, hpush, MemSidePort.forwarded_of_room (.inr hroom)]
  have hport : d.memPort = { c.memPort with
      peer := c.memPort.peer.performed ((a.access.toPacket a.id).fetch c.lineSize) } := congrArg Lane.port hlane
  have hdeferred : d.deferred = c.deferred := congrArg Lane.deferred hlane
  refine ⟨⟨hd.consistent, hshows, hd.within k h.within, hd.geometry.trans h.geometry, hclock, ?_, ?_,
    hdeferred.trans h.deferred⟩, ?_, ?_⟩
  · rw [hport]
    exact h.memory.performed _
  · rw [hport]
    exact h.parked
  · rw [hport]
    exact hready
  · rw [hport]
    simp [TimedMemory.performed, h.needsResponse_fetch, Fifo.enqueue, hflight, h.memory.latency]

/-- The scheduled access answers its request, or sends a fetch that the memory
accepts. -/
theorem Runs.fire (hu : u.Valid) (h : u.Runs k c q done (some a)) {e : AccessEvent} {tick : Tick}
    (hpop : q.pop? = some (tick, e, r)) :
    ∃ d, (c.fire tick e).result = .ok d ∧
      ((u.Runs (k + 1) d r (done ++ [a]) none ∧
          d.cpuPorts = Cache.answeredPorts c.cpuPorts a.id (u.answer done a)) ∨
        (u.Runs (k + 1) d r done (some a) ∧ d.cpuPorts = c.cpuPorts ∧
          (∃ since kept, d.service = .fetch a.id since kept) ∧ d.memPort.peer.ready = [] ∧
          ∃ p, d.memPort.peer.inFlight.items = [⟨c.memPort.peer.now + u.tick u.latency, p⟩])) := by
  obtain ⟨rfl, d, hres, hd⟩ := Cache.Consistent.fire h.consistent hpop
  have hpending : q.pending ≠ [] := fun hn => by simp [EventQueue.pop?, hn] at hpop
  have himage := h.shows.image_of_pending h.consistent hpending
  have hclock : r.clock = u.clock := (EventQueue.clock_of_pop? hpop).trans h.clock
  refine ⟨d, hres, ?_⟩
  rcases hd with hd | hd
  · refine .inl ⟨of_answered hd h.within h.geometry hclock h.memory h.parked h.deferred (by rw [himage]), ?_⟩
    rw [hd.cpuPorts, himage]
    rfl
  · obtain ⟨hruns, hready, hflight⟩ := h.of_fetching hu hpending hd hclock (hd.shows himage)
    exact .inr ⟨hruns, hd.cpuPorts, ⟨_, _, hd.service⟩, hready, hflight⟩

end Plan

end CacheSim
