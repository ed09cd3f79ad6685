import CacheSim.Proofs.Cache.Control
import CacheSim.Proofs.Cache.Lane
import CacheSim.Proofs.Stats.Histogram
import CacheSim.Proofs.Store.Basic

/-!
# What holds of a cache between two calls

`Cache.Consistent` relates the service of a cache to everything that the
request in service has set going: the event that is scheduled, the lane to the
memory, and the port that waits.  It is stated for the blocks of a domain `D`,
which the memory serves, so that it holds of memories with a limited range too.
-/

namespace CacheSim.Cache

variable {ρ μ : Type} {c : Cache ρ μ} {id : Nat} {p : Packet}

/-! ## The ports towards the requestors -/

theorem cpuPort_eq_ok {port : CpuSidePort ρ} (h : c.cpuPorts[id]? = some port) :
    c.cpuPort id = .ok port := by
  simp only [cpuPort, h]

theorem getElem?_connect (name : String) (id : Nat) (peers : List ρ) (j : Nat) :
    (connect name id peers)[j]? =
      peers[j]?.map fun peer => { name := s!"{name}.cpu_side[{id + j}]", id := id + j, peer } := by
  induction peers generalizing id j with
  | nil => rfl
  | cons peer peers ih =>
    cases j with
    | zero => rfl
    | succ j =>
      rw [connect, List.getElem?_cons_succ, List.getElem?_cons_succ, ih, show id + 1 + j = id + (j + 1) by omega]

@[simp] theorem map_peer_connect (name : String) (id : Nat) (peers : List ρ) :
    (connect name id peers).map (·.peer) = peers := by
  induction peers generalizing id with
  | nil => rfl
  | cons peer peers ih => rw [connect, List.map_cons, ih]

@[simp] theorem length_connect (name : String) (id : Nat) (peers : List ρ) :
    (connect name id peers).length = peers.length := by
  rw [← List.length_map (·.peer), map_peer_connect]

/-- A cache that was built is idle, and its ports hold nothing. -/
theorem build_eq_ok {name : String} {g : Geometry} {store : Store} {requestors : List ρ} {memory : μ}
    (h : (build name g store requestors memory).result = .ok c) :
    store.lineSize = g.lineSize ∧ c = {
      name, geometry := g, store
      cpuPorts := connect name 0 requestors
      memPort := { name := s!"{name}.mem_side", peer := memory } } := by
  simp only [build, Sim.result_bind, Sim.result_debug, Sim.ok_bind] at h
  obtain ⟨-, -, h⟩ := Sim.bind_eq_ok.mp h
  obtain ⟨_, hsize, h⟩ := Sim.bind_eq_ok.mp h
  exact ⟨Sim.of_require hsize, (Except.ok.inj h).symm⟩

section Requestors

variable [LawfulRequestor ρ]

/-- The ports after an answer on one of them, and the signals that follow. -/
def answeredPorts (ports : List (CpuSidePort ρ)) (id : Nat) (p : Packet) : List (CpuSidePort ρ) :=
  (ports.modify id (·.delivered p)).map CpuSidePort.notified

/-- The cache after the answer to the request of a port. -/
def answered (c : Cache ρ μ) (id : Nat) (p : Packet) : Cache ρ μ :=
  { c.serving .idle with cpuPorts := answeredPorts c.cpuPorts id p }

/-- The answers that a port was given. -/
def sentOn (c : Cache ρ μ) (id : Nat) : List Packet :=
  c.cpuPorts[id]?.elim [] CpuSidePort.sent

/-- An answer on the port that waits, which holds none. -/
theorem result_reply {port : CpuSidePort ρ} (hb : c.blocked) (hw : c.waitingPort = some id)
    (h : c.cpuPorts[id]? = some port) (hp : port.parked = none) (p : Packet) :
    (c.reply p).result = .ok { c.answered id p with original := c.original } := by
  have hmap : ((c.cpuPorts.set id (port.delivered p)).mapM CpuSidePort.trySendRetry).result =
      .ok ((c.cpuPorts.set id (port.delivered p)).map CpuSidePort.notified) :=
    Sim.result_mapM fun port _ => port.result_trySendRetry
  have hset : c.cpuPorts.modify id (·.delivered p) = c.cpuPorts.set id (port.delivered p) := by
    rw [List.modify_eq_set_getElem?, h]
    rfl
  simp [reply, hb, hw, h, CpuSidePort.result_send hp, hmap, answered, answeredPorts, hset, serving, Control.entering]

/-- No request is left to complete when an answer is sent. -/
theorem result_reply_of_none {port : CpuSidePort ρ} (hb : c.blocked) (hw : c.waitingPort = some id)
    (ho : c.original = none) (h : c.cpuPorts[id]? = some port) (hp : port.parked = none) (p : Packet) :
    (c.reply p).result = .ok (c.answered id p) := by
  rw [result_reply hb hw h hp, ho]
  rfl

theorem getElem?_answeredPorts (ports : List (CpuSidePort ρ)) (id j : Nat) (p : Packet) :
    (answeredPorts ports id p)[j]? =
      ports[j]?.map fun port => (if id = j then port.delivered p else port).notified := by
  simp only [answeredPorts, List.getElem?_map, List.getElem?_modify]
  cases ports[j]? with
  | none => rfl
  | some port => split <;> simp_all

/-- An answer is sent on its port, and on no other one. -/
theorem sentOn_answeredPorts {d : Cache ρ μ} {port : CpuSidePort ρ} (h : c.cpuPorts[id]? = some port)
    (hp : port.parked = none) (hd : d.cpuPorts = answeredPorts c.cpuPorts id p) (j : Nat) :
    d.sentOn j = c.sentOn j ++ if id = j then [p] else [] := by
  rw [sentOn, hd, getElem?_answeredPorts, sentOn]
  by_cases hj : id = j
  · subst hj
    simp [h, CpuSidePort.sent_delivered hp]
  · cases c.cpuPorts[j]? <;> simp [hj]

/-- A port that changes and was sent nothing more. -/
theorem sentOn_setCpuPort {old port : CpuSidePort ρ} (h : c.cpuPorts[id]? = some old)
    (hs : port.sent = old.sent) (j : Nat) : (c.setCpuPort id port).sentOn j = c.sentOn j := by
  show (c.cpuPorts.set id port)[j]?.elim _ _ = _
  by_cases hj : id = j
  · subst hj
    rw [List.getElem?_set_self (List.getElem?_eq_some_iff.mp h).1, sentOn, h]
    exact hs
  · rw [List.getElem?_set_ne hj]
    rfl

end Requestors

/-! ## The memory and the stages of a request -/

/-- The lane to the memory. -/
def lane (c : Cache ρ μ) : Lane μ :=
  ⟨c.memPort, c.deferred⟩

/-- The cache with another state of its lane. -/
def withLane (c : Cache ρ μ) (l : Lane μ) : Cache ρ μ :=
  { c with memPort := l.port, deferred := l.deferred }

@[simp] theorem lane_withLane (c : Cache ρ μ) (l : Lane μ) : (c.withLane l).lane = l := rfl
@[simp] theorem store_withLane (c : Cache ρ μ) (l : Lane μ) : (c.withLane l).store = c.store := rfl
@[simp] theorem stats_withLane (c : Cache ρ μ) (l : Lane μ) : (c.withLane l).stats = c.stats := rfl
@[simp] theorem cpuPorts_withLane (c : Cache ρ μ) (l : Lane μ) : (c.withLane l).cpuPorts = c.cpuPorts := rfl
@[simp] theorem geometry_withLane (c : Cache ρ μ) (l : Lane μ) : (c.withLane l).geometry = c.geometry := rfl
@[simp] theorem toControl_withLane (c : Cache ρ μ) (l : Lane μ) : (c.withLane l).toControl = c.toControl := rfl

variable [LawfulMemory μ]

/-- The bytes that the cache shows: those of the memory after the packets that
wait for it, under those of the resident blocks. -/
def image (c : Cache ρ μ) : FlatMemory :=
  c.store.overlay c.lane.backing

/-- The parts of a cache are in order, and its blocks are those of a domain. -/
structure Sane (D : Nat → Prop) (c : Cache ρ μ) : Prop where
  valid : c.store.Valid
  lineSize : c.store.lineSize = c.lineSize
  pos : 0 < c.lineSize
  resident : ∀ b, (c.store.lookup b).isSome → D b
  counts : c.stats.missLatency.Counts
  lane : c.lane.Sound D c.lineSize
  agrees : c.toControl.Agrees

/-- An access to the domain waits for its answer on a port that holds none. -/
structure Waits (D : Nat → Prop) (c : Cache ρ μ) (id : Nat) (p : Packet) : Prop where
  access : p.IsAccess c.lineSize
  domain : D (p.block c.lineSize)
  port : ∃ port, c.cpuPorts[id]? = some port ∧ port.parked = none

/-- How far the request in service is: its port and packet, what is scheduled
for it, and what is to come for it. -/
inductive Stage (D : Nat → Prop) (c : Cache ρ μ) (q : EventQueue AccessEvent) :
    Option (Nat × Packet) → Prop
  /-- No request is in service. -/
  | idle (service : c.service = .idle) (pending : q.pending = []) (coming : c.lane.coming = []) :
    Stage D c q none
  /-- Its access is scheduled. -/
  | access {id : Nat} {p : Packet} {tick : Tick} (service : c.service = .access id)
    (waits : c.Waits D id p) (pending : q.pending = [(tick, ⟨p⟩)]) (coming : c.lane.coming = []) :
    Stage D c q (some (id, p))
  /-- Its block is to come. -/
  | fetch {id : Nat} {p : Packet} {since : Tick}
    (service : c.service = .fetch id since (p.kept c.lineSize)) (waits : c.Waits D id p)
    (pending : q.pending = []) (since_le : since ≤ q.now)
    (absent : c.store.lookup (p.block c.lineSize) = none)
    (coming : ∃ a, c.lane.coming = [a] ∧ a.IsFill (p.block c.lineSize) c.lineSize) :
    Stage D c q (some (id, p))

/-- The cache is in order, and serves `current`. -/
structure Consistent (D : Nat → Prop) (c : Cache ρ μ) (q : EventQueue AccessEvent)
    (current : Option (Nat × Packet)) : Prop where
  sane : c.Sane D
  stage : Stage D c q current

variable {D : Nat → Prop} {q : EventQueue AccessEvent}

theorem Sane.withLane (h : c.Sane D) {l : Lane μ} (hl : l.Sound D c.lineSize) : (c.withLane l).Sane D :=
  ⟨h.valid, h.lineSize, h.pos, h.resident, h.counts, hl, h.agrees⟩

omit [LawfulMemory μ] in
theorem Waits.withLane (h : c.Waits D id p) (l : Lane μ) : (c.withLane l).Waits D id p :=
  ⟨h.access, h.domain, h.port⟩

theorem Sane.withStore (h : c.Sane D) {s : Store} {n : Nat} (hf : c.store.Follows s n)
    (hr : ∀ b, (s.lookup b).isSome → D b) : ({ c with store := s } : Cache ρ μ).Sane D :=
  ⟨hf.valid, hf.lineSize.trans h.lineSize, h.pos, hr, h.counts, h.lane, h.agrees⟩

theorem Sane.withStats (h : c.Sane D) (stats : CacheStats) (hc : stats.missLatency.Counts) :
    ({ c with stats } : Cache ρ μ).Sane D :=
  ⟨h.valid, h.lineSize, h.pos, h.resident, hc, h.lane, h.agrees⟩

theorem Sane.serving (h : c.Sane D) (s : Service) : (c.serving s).Sane D :=
  ⟨h.valid, h.lineSize, h.pos, h.resident, h.counts, h.lane, c.toControl.agrees_entering s⟩

theorem Sane.answered [LawfulRequestor ρ] (h : c.Sane D) (id : Nat) (p : Packet) :
    (c.answered id p).Sane D :=
  have hs := h.serving .idle
  ⟨hs.valid, hs.lineSize, hs.pos, hs.resident, hs.counts, hs.lane, hs.agrees⟩

/-- An empty store over a memory that owes nothing is consistent. -/
theorem sane_of_empty (hv : c.store.Valid) (hn : ∀ a, c.store.lookup a = none)
    (hsize : c.store.lineSize = c.lineSize) (hpos : 0 < c.lineSize) (hstats : c.stats = {})
    (hcontrol : c.toControl = {}) (hheld : c.lane.held = []) (hserves : ∀ p : Packet, p.IsBlock c.lineSize → D p.addr →
      LawfulMemory.Serves c.memPort.peer p) : c.Sane D where
  valid := hv
  lineSize := hsize
  pos := hpos
  resident b hb := by simp [hn] at hb
  counts := hstats ▸ Histogram.counts_empty (by decide) (by decide) (by decide)
  lane := by
    obtain ⟨-, hd⟩ := List.append_eq_nil_iff.mp hheld
    have hd' : c.lane.deferred = none := by simpa using hd
    exact ⟨fun _ => hheld, by simp [hd'], by simp [hheld], hserves⟩
  agrees := hcontrol ▸ Control.agrees_default

theorem Sane.idle (h : c.Sane D) (hs : c.service = .idle) (hq : q.pending = [])
    (hc : c.lane.coming = []) : c.Consistent D q none :=
  ⟨h, .idle hs hq hc⟩

end CacheSim.Cache
