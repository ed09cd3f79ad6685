import CacheSim.Proofs.Memory.Timed

/-!
# Sessions with a timed memory

Any calls of a timed memory, with records of what happened: which requests were
accepted, when, and what the bytes were then, which clock cycles came, and which
responses were taken.  The bytes are kept as a flat memory on which every call
is performed at once.

* `TimedMemory.offer_eq_ok`, `functional_eq_ok`, `eq_of_cycle`: what a call does when
  it answers at all;
* `MemorySession.Consistent.step`, `Timely.step`: the records agree with the
  memory, and the responses that are due are the ones that were made available;
* `MemorySession.run_serves`: every accepted request that needs a response gets
  one, in order and with the bytes of the moment of its acceptance, and if time
  never goes back, the response is available from the first cycle on that is not
  before its time.
-/

namespace CacheSim

namespace TimedMemory

variable {m : TimedMemory} {p : Packet}

/-- The bytes after an access. -/
def stored (m : TimedMemory) (p : Packet) : Chunks :=
  if p.command.isWrite then m.bytes.overlay p.addr (p.payload.getD []) else m.bytes

theorem valid_stored (h : m.bytes.Valid) (p : Packet) : (m.stored p).Valid := by
  unfold stored
  split
  · exact h.overlay _ _
  · exact h

theorem byte_stored (h : m.bytes.Valid) (p : Packet) : (m.stored p).byte = m.contents.perform p := by
  unfold stored FlatMemory.perform
  split
  · exact h.byte_overlay _ _
  · rfl

/-- An access that answers gives the bytes of its range, or stores its payload. -/
theorem access_eq_ok {x : Packet × TimedMemory} (h : (m.access p).result = .ok x) :
    x = ({ m.contents.answer p with command := p.command }, { m with bytes := m.stored p }) := by
  simp only [access, Sim.result_bind, Sim.result_liftM] at h
  obtain ⟨-, -, h⟩ := Sim.bind_eq_ok.mp h
  by_cases hw : p.command.isWrite
  · simp only [if_pos hw, Sim.result_bind, Sim.result_liftM, Sim.result_pure, Sim.result_trace,
      Sim.ok_bind] at h
    obtain ⟨data, hdata, h⟩ := Sim.bind_eq_ok.mp h
    obtain ⟨written, hwritten, h⟩ := Sim.bind_eq_ok.mp h
    obtain rfl := Except.ok.inj h
    have hpayload : p.payload = some data := Packet.data?_eq_ok.mp hdata
    obtain ⟨-, -, hwritten⟩ := Sim.bind_eq_ok.mp hwritten
    obtain rfl := Except.ok.inj hwritten
    simp only [FlatMemory.answer, stored, if_pos hw, hpayload, Option.getD_some]
    rw [← hpayload]
  · simp only [if_neg hw, Sim.result_bind, Sim.result_liftM, Sim.result_pure, Sim.result_trace,
      Sim.ok_bind] at h
    obtain ⟨-, -, h⟩ := Sim.bind_eq_ok.mp h
    obtain ⟨data, hdata, h⟩ := Sim.bind_eq_ok.mp h
    obtain ⟨filled, hfilled, h⟩ := Sim.bind_eq_ok.mp h
    obtain rfl := Except.ok.inj h
    obtain ⟨-, -, hdata⟩ := Sim.bind_eq_ok.mp hdata
    obtain rfl := Except.ok.inj hdata
    unfold Packet.setData? at hfilled
    split at hfilled
    · obtain rfl := Except.ok.inj hfilled
      simp only [FlatMemory.answer, stored, if_neg hw, contents, Chunks.slice_eq_read]
    · cases hfilled

/-- An offer that is answered performs the request or hands it back. -/
theorem offer_eq_ok {x : Handshake × TimedMemory} (h : (m.offer p).result = .ok x) : x = m.handle p := by
  unfold offer at h
  unfold handle
  split at h
  · rename_i hfull
    rw [if_pos hfull]
    simpa using h.symm
  · rename_i hfull
    rw [if_neg hfull]
    rw [Sim.result_bind] at h
    obtain ⟨⟨q, m'⟩, hacc, h⟩ := Sim.bind_eq_ok.mp h
    obtain ⟨rfl, rfl⟩ := Prod.mk.inj (access_eq_ok hacc)
    by_cases hr : p.command.needsResponse
    · have hans : Packet.respond? { m.contents.answer p with command := p.command } = .ok (m.contents.answer p) :=
        Packet.respond?_of_needsResponse hr
      simp only [if_pos hr, Sim.result_bind, Sim.result_liftM] at h
      obtain ⟨q, hq, h⟩ := Sim.bind_eq_ok.mp h
      obtain rfl := Except.ok.inj (hans.symm.trans hq)
      obtain ⟨ready, hready, h⟩ := Sim.bind_eq_ok.mp h
      obtain ⟨-, rfl⟩ := Word.add_eq_ok.mp hready
      obtain rfl := Except.ok.inj h
      simp only [performed, if_pos hr]
      rfl
    · simp only [if_neg hr, Sim.result_pure] at h
      obtain rfl := Except.ok.inj h
      simp only [performed, if_neg hr]
      rfl

/-- An access past the timing path that is answered is performed. -/
theorem functional_eq_ok {x : Packet × TimedMemory} (h : (m.functional p).result = .ok x) :
    x = (m.contents.answer p, { m with bytes := m.stored p }) := by
  simp only [functional, Sim.result_bind] at h
  obtain ⟨⟨q, m'⟩, hacc, h⟩ := Sim.bind_eq_ok.mp h
  obtain ⟨rfl, rfl⟩ := Prod.mk.inj (access_eq_ok hacc)
  by_cases hr : p.command.needsResponse
  · have hans : Packet.respond? { m.contents.answer p with command := p.command } = .ok (m.contents.answer p) :=
      Packet.respond?_of_needsResponse hr
    simp only [if_pos hr, Sim.result_bind, Sim.result_liftM, hans, Sim.ok_bind] at h
    exact (Except.ok.inj h).symm
  · have hnone : p.command.response? = none := by simpa [Command.needsResponse] using hr
    simp only [if_neg hr, Sim.result_pure] at h
    obtain rfl := Except.ok.inj h
    simp only [FlatMemory.answer, hnone, Option.getD_none]

/-- A cycle gives the signal that is pending as soon as there is room. -/
theorem eq_of_cycle {m' : TimedMemory} {n : Nat} (h : m.cycle n = .ok m') :
    m' = { m.advanced (n * m.clock.period) with
      retryPending := m.retryPending && (m.advanced (n * m.clock.period)).inFlight.isFull
      sendRetry := m.sendRetry || m.retryPending && !(m.advanced (n * m.clock.period)).inFlight.isFull } := by
  obtain ⟨now, hnow, h⟩ := Sim.bind_eq_ok.mp h
  obtain ⟨-, rfl⟩ := Word.mul_eq_ok.mp hnow
  obtain rfl := Except.ok.inj h
  cases m.retryPending <;> simp [advanced, Fifo.drainWhile]

/-- A cycle that does not leave the words moves time to its tick. -/
theorem exists_of_cycle {m' : TimedMemory} {n : Nat} (h : m.cycle n = .ok m') :
    ∃ pending send, m' = { m.advanced (n * m.clock.period) with retryPending := pending, sendRetry := send } :=
  ⟨_, _, eq_of_cycle h⟩

end TimedMemory

/-! ## Sessions -/

/-- A call of a timed memory. -/
inductive MemoryCall where
  /-- A request is offered. -/
  | offer (p : Packet)
  /-- Time moves to a clock cycle. -/
  | cycle (n : Nat)
  /-- The next available response is taken. -/
  | takeResponse
  /-- The signal to try again is taken. -/
  | takeRetry
  /-- An access past the timing path. -/
  | functional (p : Packet)
  /-- Bytes are read directly. -/
  | read (addr size : Nat)
  /-- Bytes are changed directly. -/
  | write (addr : Nat) (data : Bytes)

/-- The clock cycle that a call moves to. -/
def MemoryCall.cycle? : MemoryCall → Option Nat
  | .cycle n => some n
  | _ => none

/-- Of numbers that do not decrease, none behind the first one above a bound is within it. -/
theorem lt_of_mem_dropWhile {α : Type} {f : α → Nat} {n : Nat} {l : List α} (h : (l.map f).Pairwise (· ≤ ·)) :
    ∀ a ∈ l.dropWhile (f · ≤ n), n < f a := by
  induction l with
  | nil => simp
  | cons b l ih =>
    rw [List.map_cons, List.pairwise_cons] at h
    rw [List.dropWhile_cons]
    split
    · exact ih h.2
    · rename_i hb
      have hlt : n < f b := by simpa using hb
      intro a ha
      rcases List.mem_cons.mp ha with rfl | ha
      · exact hlt
      · exact Nat.lt_of_lt_of_le hlt (h.1 _ (List.mem_map_of_mem ha))

/-- A request that a memory accepted. -/
structure AcceptedRequest where
  packet : Packet
  /-- The time of the memory when it accepted the request. -/
  time : Tick
  /-- How many cycles came before. -/
  cycles : Nat
  /-- The bytes of the memory before the request was performed. -/
  contents : FlatMemory

namespace AcceptedRequest

/-- What the memory notes of the request. -/
def receipt (a : AcceptedRequest) : Receipt :=
  (a.packet.command, a.packet.addr, a.packet.size)

/-- The response to the request: a read carries the bytes of the moment of its
acceptance, and a write its own payload. -/
def answer (a : AcceptedRequest) : Packet :=
  a.contents.answer a.packet

/-- Of the ticks of all cycles, one that came after the acceptance is not before
the time of the response. -/
def Due (a : AcceptedRequest) (latency : Tick) (ticks : List Tick) : Prop :=
  ∃ tick ∈ ticks.drop a.cycles, a.time + latency ≤ tick

instance (a : AcceptedRequest) (latency : Tick) (ticks : List Tick) : Decidable (a.Due latency ticks) :=
  inferInstanceAs (Decidable (∃ tick ∈ ticks.drop a.cycles, a.time + latency ≤ tick))

variable {a : AcceptedRequest} {latency tick : Tick} {ticks : List Tick}

theorem due_concat_iff (h : a.cycles ≤ ticks.length) :
    a.Due latency (ticks ++ [tick]) ↔ a.Due latency ticks ∨ a.time + latency ≤ tick := by
  simp only [Due, List.drop_append_of_le_length h, List.mem_append, List.mem_singleton]
  constructor
  · rintro ⟨t, ht | rfl, hle⟩
    · exact .inl ⟨t, ht, hle⟩
    · exact .inr hle
  · rintro (⟨t, ht, hle⟩ | hle)
    · exact ⟨t, .inl ht, hle⟩
    · exact ⟨tick, .inr rfl, hle⟩

theorem not_due_of_fresh (h : a.cycles = ticks.length) : ¬ a.Due latency ticks := by
  rintro ⟨t, ht, -⟩
  rw [h, List.drop_length] at ht
  cases ht

end AcceptedRequest

/-- A timed memory, and records of what happened. -/
structure MemorySession where
  memory : TimedMemory
  /-- The bytes with all that was performed so far. -/
  contents : FlatMemory := fun _ => 0
  /-- The ticks of the cycles. -/
  ticks : List Tick := []
  /-- The accepted requests, the first one in front. -/
  accepted : List AcceptedRequest := []
  /-- The responses that were taken, the first one in front. -/
  taken : List Packet := []

namespace MemorySession

/-- The start: a memory of zeros, which owes nothing. -/
def start (name : String) (clock : Clock) (latency buffer size : Nat) : Sim MemorySession := do
  let memory ← TimedMemory.build name clock latency buffer size
  return { memory }

/-- The time that the last cycle moved to. -/
def now (s : MemorySession) : Tick :=
  s.ticks.getLast?.getD 0

/-- The accepted requests that need a response. -/
def answered (s : MemorySession) : List AcceptedRequest :=
  s.accepted.filter (·.packet.command.needsResponse)

/-- The session after a request was accepted. -/
def accepting (s : MemorySession) (p : Packet) (memory : TimedMemory) : MemorySession :=
  { s with
    memory
    contents := s.contents.perform p
    accepted := s.accepted ++ [⟨p, s.now, s.ticks.length, s.contents⟩] }

/-- Makes a call. -/
def perform (s : MemorySession) : MemoryCall → Sim MemorySession
  | .offer p => do
    let (handshake, memory) ← s.memory.offer p
    if handshake = .accepted then return s.accepting p memory else return { s with memory }
  | .cycle n => do
    let memory ← s.memory.cycle n
    return { s with memory, ticks := s.ticks ++ [n * s.memory.clock.period] }
  | .takeResponse =>
    match s.memory.takeResponse with
    | none => pure s
    | some (p, memory) => pure { s with memory, taken := s.taken ++ [p] }
  | .takeRetry => pure { s with memory := s.memory.takeRetry.2 }
  | .functional p => do
    let (_, memory) ← s.memory.functional p
    return { s with memory, contents := s.contents.perform p }
  | .read addr size => do
    let _ ← s.memory.bytes.read addr size
    return s
  | .write addr data => do
    let bytes ← s.memory.bytes.write addr data
    return { s with memory := { s.memory with bytes }, contents := s.contents.write addr data }

/-- Makes calls in order. -/
def run : List MemoryCall → MemorySession → Sim MemorySession
  | [], s => pure s
  | c :: rest, s => do
    let s ← s.perform c
    run rest s

/-- Every request that the memory accepted is served once and in order, and only
a full buffer refuses one. -/
structure Orderly (s : MemorySession) (buffer : Nat) : Prop where
  /-- A request is handed back, and nothing but a flag changes, if and only if it
  needs a response and there is no room for one. -/
  handshake : ∀ p handshake m, (s.memory.offer p).result = .ok (handshake, m) →
    if p.command.needsResponse ∧ s.memory.inFlight.size = buffer then
      handshake = .refused p ∧ m = { s.memory with retryPending := true }
    else handshake = .accepted
  /-- A full buffer refuses a request before the memory looks at it. -/
  refusal : ∀ p, p.command.needsResponse → s.memory.inFlight.size = buffer →
    (s.memory.offer p).result = .ok (.refused p, { s.memory with retryPending := true })
  writeback : ∀ p handshake m, p.command = .writebackDirty →
    (s.memory.offer p).result = .ok (handshake, m) → handshake = .accepted
  bounded : s.memory.inFlight.size ≤ buffer
  /-- The responses that were taken, are available, or are on their way. -/
  responses : s.taken ++ s.memory.ready ++ s.memory.inFlight.items.map (·.packet) = s.answered.map (·.answer)
  /-- The response that can be taken is the first one that is available, and answers the first of
  the requests whose responses were not taken. -/
  takes : ∀ p m, s.memory.takeResponse = some (p, m) → s.memory.ready = p :: m.ready ∧
    m = { s.memory with ready := m.ready } ∧ (s.answered.map (·.answer))[s.taken.length]? = some p
  /-- None can be taken only if none is available. -/
  none_iff : s.memory.takeResponse = none ↔ s.memory.ready = []
  received : s.memory.received = s.accepted.map (·.receipt)
  contents : s.memory.contents = s.contents
  busy : s.memory.isBusy ↔ s.taken.length < s.answered.length

/-- Exactly the responses that are due were made available. -/
structure Prompt (s : MemorySession) (latency : Tick) : Prop where
  available : s.taken ++ s.memory.ready = (s.answered.filter (·.Due latency s.ticks)).map (·.answer)
  underWay : s.memory.inFlight.items =
    (s.answered.filter fun a => ¬ a.Due latency s.ticks).map fun a => ⟨a.time + latency, a.answer⟩

/-! ## What a call does -/

variable {s t : MemorySession} {c : MemoryCall} {clock : Clock} {latency : Tick} {buffer : Nat}

/-- What a call that answers does to a session. -/
inductive Moves (s : MemorySession) : MemoryCall → MemorySession → Prop where
  | accepted (p : Packet) (h : ¬ (p.command.needsResponse && s.memory.inFlight.isFull)) :
    Moves s (.offer p) (s.accepting p (s.memory.performed p))
  | refused (p : Packet) : Moves s (.offer p) { s with memory := { s.memory with retryPending := true } }
  | cycle (n : Nat) (pending send : Bool) :
    Moves s (.cycle n) { s with
      memory := { s.memory.advanced (n * s.memory.clock.period) with retryPending := pending, sendRetry := send }
      ticks := s.ticks ++ [n * s.memory.clock.period] }
  | taken (p : Packet) (ready : List Packet) (h : s.memory.ready = p :: ready) :
    Moves s .takeResponse { s with memory := { s.memory with ready }, taken := s.taken ++ [p] }
  | told : Moves s .takeRetry { s with memory := s.memory.takeRetry.2 }
  | functional (p : Packet) :
    Moves s (.functional p) { s with
      memory := { s.memory with bytes := s.memory.stored p }
      contents := s.contents.perform p }
  | written (addr : Nat) (data : Bytes) :
    Moves s (.write addr data) { s with
      memory := { s.memory with bytes := s.memory.bytes.overlay addr data }
      contents := s.contents.write addr data }
  | noResponse (h : s.memory.ready = []) : Moves s .takeResponse s
  | read (addr size : Nat) : Moves s (.read addr size) s

theorem moves_of_perform (h : (s.perform c).result = .ok t) : s.Moves c t := by
  cases c with
  | offer p =>
    simp only [perform, Sim.result_bind] at h
    obtain ⟨x, hx, h⟩ := Sim.bind_eq_ok.mp h
    obtain rfl := TimedMemory.offer_eq_ok hx
    unfold TimedMemory.handle at h
    split at h
    · obtain rfl := Except.ok.inj h
      exact .refused p
    · rename_i hroom
      obtain rfl := Except.ok.inj h
      exact .accepted p hroom
  | cycle n =>
    simp only [perform, Sim.result_bind, Sim.result_liftM] at h
    obtain ⟨m, hm, h⟩ := Sim.bind_eq_ok.mp h
    obtain ⟨pending, send, rfl⟩ := TimedMemory.exists_of_cycle hm
    obtain rfl := Except.ok.inj h
    exact .cycle n pending send
  | takeResponse =>
    simp only [perform, TimedMemory.takeResponse] at h
    cases hready : s.memory.ready with
    | nil =>
      rw [hready] at h
      obtain rfl := Except.ok.inj h
      exact .noResponse hready
    | cons p ready =>
      rw [hready] at h
      obtain rfl := Except.ok.inj h
      exact .taken p ready hready
  | takeRetry =>
    obtain rfl := Except.ok.inj h
    exact .told
  | functional p =>
    simp only [perform, Sim.result_bind] at h
    obtain ⟨x, hx, h⟩ := Sim.bind_eq_ok.mp h
    obtain rfl := TimedMemory.functional_eq_ok hx
    obtain rfl := Except.ok.inj h
    exact .functional p
  | read addr size =>
    simp only [perform, Sim.result_bind, Sim.result_liftM] at h
    obtain ⟨-, -, h⟩ := Sim.bind_eq_ok.mp h
    obtain rfl := Except.ok.inj h
    exact .read addr size
  | write addr data =>
    simp only [perform, Sim.result_bind, Sim.result_liftM] at h
    obtain ⟨bytes, hbytes, h⟩ := Sim.bind_eq_ok.mp h
    obtain ⟨-, -, hbytes⟩ := Sim.bind_eq_ok.mp hbytes
    obtain rfl := Except.ok.inj hbytes
    obtain rfl := Except.ok.inj h
    exact .written addr data

/-! ## The records agree with the memory -/

/-- The records agree with the memory. -/
structure Consistent (s : MemorySession) (clock : Clock) (latency : Tick) (buffer : Nat) : Prop where
  clock : s.memory.clock = clock
  latency : s.memory.latency = latency
  limit : s.memory.inFlight.limit = some buffer
  now : s.memory.now = s.now
  bytes : s.memory.bytes.Valid
  contents : s.memory.contents = s.contents
  bounded : s.memory.inFlight.size ≤ buffer
  received : s.memory.received = s.accepted.map (·.receipt)
  owed : s.taken ++ s.memory.owed = s.answered.map (·.answer)

theorem Consistent.isFull_iff (h : s.Consistent clock latency buffer) :
    s.memory.inFlight.isFull ↔ s.memory.inFlight.size = buffer := by
  have hb := h.bounded
  simp only [Fifo.isFull, h.limit, decide_eq_true_eq]
  omega

theorem answered_accepting (s : MemorySession) (p : Packet) (m : TimedMemory) :
    (s.accepting p m).answered = s.answered ++
      if p.command.needsResponse then [⟨p, s.now, s.ticks.length, s.contents⟩] else [] := by
  simp only [answered, accepting, List.filter_append]
  by_cases hr : p.command.needsResponse <;> simp [hr]

theorem inFlight_performed (m : TimedMemory) (p : Packet) :
    (m.performed p).inFlight.items = m.inFlight.items ++
      if p.command.needsResponse then [⟨m.now + m.latency, m.contents.answer p⟩] else [] := by
  unfold TimedMemory.performed
  by_cases hr : p.command.needsResponse <;> simp [hr, Fifo.enqueue]

theorem Consistent.accepting (h : s.Consistent clock latency buffer) {p : Packet}
    (hroom : ¬ (p.command.needsResponse && s.memory.inFlight.isFull)) :
    (s.accepting p (s.memory.performed p)).Consistent clock latency buffer := by
  refine ⟨h.clock, h.latency, ?_, h.now, ?_, ?_, ?_, ?_, ?_⟩
  · show Fifo.limit (if _ then _ else _) = _
    split <;> exact h.limit
  · exact TimedMemory.valid_stored h.bytes p
  · exact (TimedMemory.byte_stored h.bytes p).trans (congrArg (·.perform p) h.contents)
  · have hsize := inFlight_performed s.memory p
    show (s.memory.performed p).inFlight.items.length ≤ buffer
    have hb : s.memory.inFlight.items.length ≤ buffer := h.bounded
    by_cases hr : p.command.needsResponse
    · have hne : s.memory.inFlight.items.length ≠ buffer := fun e =>
        hroom (by rw [hr, Bool.true_and]; exact h.isFull_iff.mpr e)
      rw [hsize, if_pos hr, List.length_append, List.length_singleton]
      omega
    · rw [hsize, if_neg hr, List.append_nil]
      exact hb
  · have hrec := h.received
    simp only [TimedMemory.received] at hrec ⊢
    simp [TimedMemory.performed, MemorySession.accepting, hrec, AcceptedRequest.receipt]
  · have howed := h.owed
    rw [answered_accepting, List.map_append, ← howed]
    show s.taken ++ (s.memory.ready ++ (s.memory.performed p).inFlight.items.map _) = _
    rw [inFlight_performed, List.map_append, h.contents]
    simp only [TimedMemory.owed, List.append_assoc]
    split <;> rfl

theorem Consistent.step (h : s.Consistent clock latency buffer) (hm : s.Moves c t) :
    t.Consistent clock latency buffer := by
  cases hm with
  | accepted p hroom => exact h.accepting hroom
  | refused p => exact ⟨h.clock, h.latency, h.limit, h.now, h.bytes, h.contents, h.bounded, h.received, h.owed⟩
  | cycle n pending send =>
    have howed := TimedMemory.owed_advanced s.memory (n * s.memory.clock.period)
    refine ⟨h.clock, h.latency, h.limit, ?_, h.bytes, h.contents, ?_, h.received, ?_⟩
    · simp [MemorySession.now, TimedMemory.advanced]
    · exact Nat.le_trans (List.dropWhile_sublist _).length_le h.bounded
    · exact (congrArg (s.taken ++ ·) howed).trans h.owed
  | taken p ready hready =>
    refine ⟨h.clock, h.latency, h.limit, h.now, h.bytes, h.contents, h.bounded, h.received, ?_⟩
    have howed := h.owed
    rw [TimedMemory.owed, hready] at howed
    simpa [TimedMemory.owed, answered] using howed
  | told => exact ⟨h.clock, h.latency, h.limit, h.now, h.bytes, h.contents, h.bounded, h.received, h.owed⟩
  | functional p =>
    refine ⟨h.clock, h.latency, h.limit, h.now, ?_, ?_, h.bounded, h.received, h.owed⟩
    · exact TimedMemory.valid_stored h.bytes p
    · exact (TimedMemory.byte_stored h.bytes p).trans (congrArg (·.perform p) h.contents)
  | written addr data =>
    refine ⟨h.clock, h.latency, h.limit, h.now, ?_, ?_, h.bounded, h.received, h.owed⟩
    · exact h.bytes.overlay addr data
    · exact (h.bytes.byte_overlay addr data).trans (congrArg (·.write addr data) h.contents)
  | noResponse hready => exact h
  | read addr size => exact h

/-! ## Responses in time -/

/-- Requests were accepted at times that do not decrease, the responses that are
due are those that were made available, and the others are on their way. -/
structure Timely (s : MemorySession) (latency : Tick) : Prop where
  sorted : (s.accepted.map (·.time)).Pairwise (· ≤ ·)
  past : ∀ a ∈ s.accepted, a.time ≤ s.now ∧ a.cycles ≤ s.ticks.length
  split : ∃ available underWay, s.answered = available ++ underWay ∧
    (∀ a ∈ available, a.Due latency s.ticks) ∧ (∀ a ∈ underWay, ¬ a.Due latency s.ticks) ∧
    s.taken ++ s.memory.ready = available.map (·.answer) ∧
    s.memory.inFlight.items = underWay.map fun a => ⟨a.time + latency, a.answer⟩

theorem Timely.accepting (h : s.Timely latency) (hc : s.Consistent clock latency buffer) (p : Packet) :
    (s.accepting p (s.memory.performed p)).Timely latency := by
  obtain ⟨available, underWay, hsplit, hdue, hwait, hready, hflight⟩ := h.split
  refine ⟨?_, ?_, available,
    underWay ++ if p.command.needsResponse then [⟨p, s.now, s.ticks.length, s.contents⟩] else [],
    ?_, hdue, ?_, hready, ?_⟩
  · show (List.map AcceptedRequest.time (s.accepted ++ [_])).Pairwise (· ≤ ·)
    rw [List.map_append, List.pairwise_append]
    refine ⟨h.sorted, List.pairwise_singleton .., fun x hx y hy => ?_⟩
    obtain ⟨a, ha, rfl⟩ := List.mem_map.mp hx
    obtain rfl : y = s.now := by simpa using hy
    exact (h.past a ha).1
  · intro a ha
    rcases List.mem_append.mp ha with ha | ha
    · exact h.past a ha
    · obtain rfl := List.mem_singleton.mp ha
      exact ⟨Nat.le_refl _, Nat.le_refl _⟩
  · rw [answered_accepting, hsplit, List.append_assoc]
  · intro a ha
    rcases List.mem_append.mp ha with ha | ha
    · exact hwait a ha
    · split at ha
      · obtain rfl := List.mem_singleton.mp ha
        exact AcceptedRequest.not_due_of_fresh rfl
      · cases ha
  · show (s.memory.performed p).inFlight.items = _
    rw [inFlight_performed, hflight, List.map_append, hc.now, hc.latency, hc.contents]
    split <;> rfl

theorem Timely.cycle (h : s.Timely latency) {tick : Tick} {m : TimedMemory}
    (hle : s.now ≤ tick) (hready : m.ready = (s.memory.advanced tick).ready)
    (hflight : m.inFlight = (s.memory.advanced tick).inFlight) :
    MemorySession.Timely { s with memory := m, ticks := s.ticks ++ [tick] } latency := by
  obtain ⟨available, underWay, hsplit, hdue, hwait, hold, hitems⟩ := h.split
  have hmem : ∀ {a}, a ∈ s.answered → a ∈ s.accepted := fun ha => (List.mem_filter.mp ha).1
  have hav : ∀ {a}, a ∈ available → a ∈ s.accepted := fun ha =>
    hmem (hsplit ▸ List.mem_append_left _ ha)
  have hun : ∀ {a}, a ∈ underWay → a ∈ s.accepted := fun ha =>
    hmem (hsplit ▸ List.mem_append_right _ ha)
  have hsorted : (underWay.map (·.time + latency)).Pairwise (· ≤ ·) := by
    have hsub : List.Sublist underWay s.accepted :=
      (hsplit ▸ List.sublist_append_right available underWay).trans List.filter_sublist
    have hp := (List.pairwise_map.mp h.sorted).sublist hsub
    exact List.pairwise_map.mpr (hp.imp fun hab => Nat.add_le_add_right hab latency)
  refine ⟨h.sorted, fun a ha => ⟨?_, ?_⟩,
    available ++ underWay.takeWhile (·.time + latency ≤ tick), underWay.dropWhile (·.time + latency ≤ tick),
    ?_, ?_, ?_, ?_, ?_⟩
  · exact Nat.le_trans (h.past a ha).1 (by simpa [MemorySession.now] using hle)
  · exact Nat.le_trans (h.past a ha).2 (by simp)
  · rw [List.append_assoc, List.takeWhile_append_dropWhile]
    exact hsplit
  · intro a ha
    rcases List.mem_append.mp ha with ha | ha
    · exact (AcceptedRequest.due_concat_iff (h.past a (hav ha)).2).mpr (.inl (hdue a ha))
    · have hin := hun ((List.takeWhile_sublist _).subset ha)
      exact (AcceptedRequest.due_concat_iff (h.past a hin).2).mpr
        (.inr (by simpa using List.all_eq_true.mp List.all_takeWhile a ha))
  · intro a ha
    have hin := (List.dropWhile_sublist _).subset ha
    rw [AcceptedRequest.due_concat_iff (h.past a (hun hin)).2]
    rintro (hd | hd)
    · exact hwait a hin hd
    · exact Nat.not_lt.mpr hd (lt_of_mem_dropWhile hsorted a ha)
  · show s.taken ++ m.ready = _
    rw [hready, TimedMemory.advanced, Fifo.drainWhile, hitems, List.takeWhile_map, List.map_map,
      ← List.append_assoc, hold, List.map_append]
    rfl
  · show m.inFlight.items = _
    rw [hflight, TimedMemory.advanced, Fifo.drainWhile, hitems, List.dropWhile_map]
    rfl

theorem Timely.step (h : s.Timely latency) (hc : s.Consistent clock latency buffer) (hm : s.Moves c t)
    (hle : ∀ n ∈ c.cycle?, s.now ≤ n * clock.period) : t.Timely latency := by
  cases hm with
  | accepted p hroom => exact h.accepting hc p
  | refused p => exact ⟨h.sorted, h.past, h.split⟩
  | cycle n pending send => exact h.cycle (hc.clock.symm ▸ hle n rfl) rfl rfl
  | taken p ready hready =>
    obtain ⟨available, underWay, hsplit, hdue, hwait, hold, hitems⟩ := h.split
    refine ⟨h.sorted, h.past, available, underWay, hsplit, hdue, hwait, ?_, hitems⟩
    rw [hready] at hold
    simpa using hold
  | told => exact ⟨h.sorted, h.past, h.split⟩
  | functional p => exact ⟨h.sorted, h.past, h.split⟩
  | written addr data => exact ⟨h.sorted, h.past, h.split⟩
  | noResponse hready => exact h
  | read addr size => exact h

/-! ## Runs -/

theorem consistent_start {name : String} {cycles size : Nat}
    (h : (start name clock cycles buffer size).result = .ok s) :
    s.Consistent clock (cycles * clock.period) buffer ∧ s.Timely (cycles * clock.period) ∧ s.now = 0 := by
  simp only [start, TimedMemory.build, Sim.result_bind, Sim.result_liftM] at h
  obtain ⟨m, hm, h⟩ := Sim.bind_eq_ok.mp h
  obtain ⟨l, hl, hm⟩ := Sim.bind_eq_ok.mp hm
  obtain ⟨-, rfl⟩ := Word.mul_eq_ok.mp hl
  obtain rfl := Except.ok.inj hm
  obtain rfl := Except.ok.inj h
  refine ⟨?_, ⟨.nil, by simp, [], [], rfl, by simp, by simp, rfl, rfl⟩, rfl⟩
  exact ⟨rfl, rfl, rfl, rfl, Chunks.valid_empty, funext Chunks.byte_empty, Nat.zero_le _, rfl, rfl⟩

theorem Consistent.run (h : s.Consistent clock latency buffer) {calls : List MemoryCall}
    (hr : (run calls s).result = .ok t) : t.Consistent clock latency buffer := by
  induction calls generalizing s with
  | nil => exact Except.ok.inj hr ▸ h
  | cons c rest ih =>
    rw [MemorySession.run, Sim.result_bind] at hr
    obtain ⟨u, hu, hr⟩ := Sim.bind_eq_ok.mp hr
    exact ih (h.step (moves_of_perform hu)) hr

/-- Only a cycle moves time. -/
theorem Moves.now_eq (hm : s.Moves c t) (hc : s.memory.clock = clock) :
    t.now = (c.cycle?.map (· * clock.period)).getD s.now := by
  cases hm with
  | cycle n pending send => simp [MemorySession.now, MemoryCall.cycle?, hc]
  | _ => rfl

theorem Timely.run (h : s.Timely latency) (hc : s.Consistent clock latency buffer) {calls : List MemoryCall}
    (hpast : ∀ n ∈ calls.filterMap (·.cycle?), s.now ≤ n * clock.period)
    (hsorted : (calls.filterMap (·.cycle?)).Pairwise (· ≤ ·)) (hr : (run calls s).result = .ok t) :
    t.Timely latency := by
  induction calls generalizing s with
  | nil => exact Except.ok.inj hr ▸ h
  | cons c rest ih =>
    rw [MemorySession.run, Sim.result_bind] at hr
    obtain ⟨u, hu, hr⟩ := Sim.bind_eq_ok.mp hr
    have hm := moves_of_perform hu
    have hnow := hm.now_eq hc.clock
    have hle : ∀ n ∈ c.cycle?, s.now ≤ n * clock.period := fun n hn =>
      hpast n (List.mem_filterMap.mpr ⟨c, List.mem_cons_self .., hn⟩)
    refine ih (h.step hc hm hle) (hc.step hm) (fun n hn => ?_) ?_ hr
    · cases hcycle : c.cycle? with
      | none =>
        rw [hcycle] at hnow
        rw [List.filterMap_cons_none hcycle] at hpast
        exact hnow ▸ hpast n hn
      | some k =>
        rw [hcycle] at hnow
        rw [List.filterMap_cons_some hcycle, List.pairwise_cons] at hsorted
        exact hnow ▸ Nat.mul_le_mul_right _ (hsorted.1 n hn)
    · exact hsorted.sublist ((List.sublist_cons_self c rest).filterMap _)

theorem Consistent.isBusy_iff (h : s.Consistent clock latency buffer) :
    s.memory.isBusy ↔ s.taken.length < s.answered.length := by
  have hlen := congrArg List.length h.owed
  simp only [TimedMemory.owed, List.length_append, List.length_map] at hlen
  have hbusy : s.memory.isBusy ↔ 0 < s.memory.ready.length + s.memory.inFlight.items.length := by
    simp only [TimedMemory.isBusy, Fifo.isEmpty, Bool.or_eq_true, Bool.not_eq_true', List.isEmpty_eq_false_iff,
      ← List.length_pos_iff]
    omega
  rw [hbusy]
  omega

theorem takeResponse_eq_some {m n : TimedMemory} {p : Packet} (h : m.takeResponse = some (p, n)) :
    m.ready = p :: n.ready ∧ n = { m with ready := n.ready } := by
  unfold TimedMemory.takeResponse at h
  cases hready : m.ready with
  | nil => simp [hready] at h
  | cons q ready =>
    simp only [hready] at h
    cases h
    exact ⟨rfl, rfl⟩

theorem takeResponse_eq_none_iff {m : TimedMemory} : m.takeResponse = none ↔ m.ready = [] := by
  unfold TimedMemory.takeResponse
  cases m.ready <;> simp

theorem Consistent.orderly (h : s.Consistent clock latency buffer) : s.Orderly buffer := by
  have hfull : ∀ p : Packet, (p.command.needsResponse && s.memory.inFlight.isFull) = true ↔
      p.command.needsResponse ∧ s.memory.inFlight.size = buffer := fun p => by
    rw [Bool.and_eq_true, h.isFull_iff]
  have hhand : ∀ p handshake m, (s.memory.offer p).result = .ok (handshake, m) →
      if p.command.needsResponse ∧ s.memory.inFlight.size = buffer then
        handshake = .refused p ∧ m = { s.memory with retryPending := true }
      else handshake = .accepted := by
    intro p handshake m hoffer
    have hx := TimedMemory.offer_eq_ok hoffer
    unfold TimedMemory.handle at hx
    split
    · rename_i hroom
      rw [if_pos ((hfull p).mpr hroom)] at hx
      exact Prod.mk.inj hx
    · rename_i hroom
      rw [if_neg (mt (hfull p).mp hroom)] at hx
      exact (Prod.mk.inj hx).1
  have hresponses : s.taken ++ s.memory.ready ++ s.memory.inFlight.items.map (·.packet) = s.answered.map (·.answer) := by
    rw [List.append_assoc]
    exact h.owed
  refine ⟨hhand, fun p hr hsize => ?_, fun p handshake m hw hoffer => ?_, h.bounded, hresponses,
    fun p m htake => ?_, takeResponse_eq_none_iff, h.received, h.contents, h.isBusy_iff⟩
  · simp [TimedMemory.offer, (hfull p).mpr ⟨hr, hsize⟩]
  · have hp := hhand p handshake m hoffer
    rwa [if_neg (fun hr => by rw [hw] at hr; exact absurd hr.1 (by decide))] at hp
  · obtain ⟨hready, hm⟩ := takeResponse_eq_some htake
    refine ⟨hready, hm, ?_⟩
    rw [← hresponses, hready]
    simp

theorem Timely.prompt (h : s.Timely latency) : s.Prompt latency := by
  obtain ⟨available, underWay, hsplit, hdue, hwait, hready, hitems⟩ := h.split
  have hall : available.filter (·.Due latency s.ticks) = available :=
    List.filter_eq_self.mpr fun a ha => decide_eq_true (hdue a ha)
  have hnone : underWay.filter (·.Due latency s.ticks) = [] :=
    List.filter_eq_nil_iff.mpr fun a ha => by simpa using hwait a ha
  have hnot : available.filter (fun a => ¬ a.Due latency s.ticks) = [] :=
    List.filter_eq_nil_iff.mpr fun a ha => by simpa using hdue a ha
  have hrest : underWay.filter (fun a => ¬ a.Due latency s.ticks) = underWay :=
    List.filter_eq_self.mpr fun a ha => decide_eq_true (hwait a ha)
  constructor
  · rw [hsplit, List.filter_append, hall, hnone, List.append_nil, hready]
  · rw [hsplit, List.filter_append, hnot, hrest, List.nil_append, hitems]

/-- After any calls that a memory answered, every request that it accepted was
served once and in order, and if the cycles never went back, in time. -/
theorem run_serves {name : String} {cycles buffer size : Nat} {calls : List MemoryCall}
    (hrun : (start name clock cycles buffer size >>= run calls).result = .ok s) :
    s.Orderly buffer ∧
      ((calls.filterMap (·.cycle?)).Pairwise (· ≤ ·) → s.Prompt (cycles * clock.period)) := by
  rw [Sim.result_bind] at hrun
  obtain ⟨s₀, h₀, hrun⟩ := Sim.bind_eq_ok.mp hrun
  obtain ⟨hc, ht, hnow⟩ := consistent_start h₀
  refine ⟨(hc.run hrun).orderly, fun hsorted => ?_⟩
  exact (ht.run hc (fun _ _ => hnow ▸ Nat.zero_le _) hsorted hrun).prompt

/-- The theorem at a request that is refused by a full buffer, offered again when
there is room, and answered with the bytes that a writeback left. -/
theorem run_serves_of_full :
    ∃ s, (start "mem" ⟨10⟩ 2 1 256 >>= run [.offer (.read 64 2 0), .offer (.read 128 1 1), .write 64 [5],
        .offer (.writeback 128 [7, 8]), .cycle 1, .cycle 2, .takeRetry, .offer (.read 128 1 1), .takeResponse,
        .functional (.write 128 [9] 0), .cycle 4]).result = .ok s ∧
      s.Orderly 1 ∧ s.Prompt 20 :=
  (Sim.exists_eq_ok (by rfl)).imp fun _ h => ⟨h, (run_serves h).1, (run_serves h).2 (by decide)⟩

end MemorySession

end CacheSim
