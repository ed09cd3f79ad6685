import CacheSim.Bench.Recorder
import CacheSim.Cache.Retry
import CacheSim.Cache.Timing

/-!
# A test bench for one cache

A cache with recording peers and the queue of its events.  Every step of its
traffic can be taken alone, and `access` takes all steps of one access.
-/

namespace CacheSim

/-- A cache between recording peers. -/
structure Bench where
  cache : Cache RecordingRequestor RecordingMemory
  queue : EventQueue AccessEvent

namespace Bench

/-- The ticks that the memory takes to respond. -/
def memoryLatency : Nat := 10

/-- A bench for a store, with a number of requestors and a clock that ticks in
cycles. -/
def build (geometry : Geometry) (store : Store) (ports : Nat) : Sim Bench := do
  let cache ← Cache.build "cache" geometry store (List.replicate ports {}) {}
  return { cache, queue := .empty { period := 1 } }

/-- The recording memory. -/
def memory (b : Bench) : RecordingMemory :=
  b.cache.memPort.peer

/-- The bench with another state of its memory. -/
def withMemory (b : Bench) (m : RecordingMemory) : Bench :=
  { b with cache := { b.cache with memPort := { b.cache.memPort with peer := m } } }

/-- The requestor of a number. -/
def requestor (b : Bench) (id : Nat) : Except Fault RecordingRequestor :=
  match b.cache.cpuPorts[id]? with
  | some port => .ok port.peer
  | none => .error (.indexOutOfBounds b.cache.cpuPorts.length id)

/-- Makes a requestor refuse the next `n` responses. -/
def refuseResponses (b : Bench) (id n : Nat) : Except Fault Bench :=
  match b.cache.cpuPorts[id]? with
  | some port =>
    .ok { b with
      cache := b.cache.setCpuPort id { port with peer := { port.peer with refuse := n } } }
  | none => .error (.indexOutOfBounds b.cache.cpuPorts.length id)

/-- Makes the memory refuse the next `n` requests. -/
def refuseRequests (b : Bench) (n : Nat) : Bench :=
  b.withMemory { b.memory with refuse := n }

/-- Offers a request on a port. -/
def send (b : Bench) (id : Nat) (p : Packet) : Sim (Handshake × Bench) := do
  let (handshake, cache, queue) ← b.cache.offer b.queue id p
  return (handshake, { cache, queue })

/-- Performs an access event now. -/
def process (b : Bench) (e : AccessEvent) : Sim Bench := do
  let cache ← b.cache.fire b.queue.now e
  return { b with cache }

/-- Takes the next event and performs it; answers its tick. -/
def event (b : Bench) : Sim (Option Tick × Bench) := do
  match b.queue.pop? with
  | none => return (none, b)
  | some (tick, e, queue) =>
    let b ← { b with queue }.process e
    return (some tick, b)

/-- Performs events at their ticks. -/
def fireAll (b : Bench) : List (Tick × AccessEvent) → Sim Bench
  | [] => pure b
  | (tick, e) :: rest => do
    let queue := { b.queue with now := tick, pending := rest }
    let b ← { b with queue }.process e
    b.fireAll rest

/-- Performs all events; an access schedules no other one. -/
def runEvents (b : Bench) : Sim Bench :=
  b.fireAll b.queue.pending

/-- Lets the memory perform all requests; answers the responses. -/
def collect (b : Bench) : Except Fault (List Packet × Bench) := do
  let (responses, m) ← b.memory.respond
  return (responses, b.withMemory m)

/-- Gives the cache a response now. -/
def deliver (b : Bench) (p : Packet) : Sim Bench := do
  let cache ← b.cache.fill b.queue.now p
  return { b with cache }

/-- Gives the cache responses in order. -/
def deliverAll (b : Bench) (ps : List Packet) : Sim Bench :=
  ps.foldlM deliver b

/-- Moves time forward. -/
def advance (b : Bench) (tick : Tick) : Except Fault Bench := do
  let queue ← b.queue.advanceTo tick
  return { b with queue }

/-- Lets the memory respond to all requests after its latency.  The cache
answers a response with writebacks only, which the memory performs as well. -/
def respondMemory (b : Bench) : Sim Bench := do
  let (responses, b) ← b.collect
  if responses.isEmpty then return b
  let tick ← Word.add b.queue.now memoryLatency
  let b ← b.advance tick
  let b ← b.deliverAll responses
  let (_, b) ← b.collect
  return b

/-- Performs a complete access on a port; answers its response. -/
def access (b : Bench) (id : Nat) (p : Packet) : Sim (Packet × Bench) := do
  let before := (← b.requestor id).responses.length
  let (handshake, b) ← b.send id p
  if let .refused p := handshake then Sim.fail (.accessRefused p)
  let b ← b.runEvents
  let b ← b.respondMemory
  let responses := (← b.requestor id).responses
  Sim.require (responses.length = before + 1) (.responseCount responses.length (before + 1))
  return (responses.getD before default, b)

/-- Reads bytes on the first port. -/
def read (b : Bench) (addr size : Nat) : Sim (Bytes × Bench) := do
  let (p, b) ← b.access 0 (.read addr size 0)
  return (← p.data?, b)

/-- Writes bytes on the first port. -/
def write (b : Bench) (addr : Nat) (data : Bytes) : Sim Bench := do
  let (_, b) ← b.access 0 (.write addr data 0)
  return b

/-- The block addresses of the writebacks that the memory accepted. -/
def writebacks (b : Bench) : List Nat :=
  (b.memory.requests.filter (·.command == .writebackDirty)).map (·.addr)

end Bench

end CacheSim
