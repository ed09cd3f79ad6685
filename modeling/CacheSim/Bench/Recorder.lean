import CacheSim.Memory.Chunks
import CacheSim.Port.Peer

/-!
# Recording peers

A requestor and a memory that record what they are sent and do what they are
told: to refuse a number of packets, and, for the memory, when to respond.
-/

namespace CacheSim

/-- A requestor that records what the cache sends it. -/
structure RecordingRequestor where
  /-- How many of the next responses are refused. -/
  refuse : Nat := 0
  /-- The accepted responses, the last one in front. -/
  log : List Packet := []
  refused : Nat := 0
  retries : Nat := 0
  rangeChanges : Nat := 0
  deriving DecidableEq, Inhabited

namespace RecordingRequestor

/-- The accepted responses in order. -/
def responses (r : RecordingRequestor) : List Packet :=
  r.log.reverse

/-- Takes a response, or refuses it as told. -/
def receive (r : RecordingRequestor) (p : Packet) : Handshake × RecordingRequestor :=
  if 0 < r.refuse then
    (.refused p, { r with refuse := r.refuse - 1, refused := r.refused + 1 })
  else (.accepted, { r with log := p :: r.log })

instance : ResponseReceiver RecordingRequestor where
  receive r p := pure (r.receive p)
  retry r := { r with retries := r.retries + 1 }
  rangesChanged r := { r with rangeChanges := r.rangeChanges + 1 }

end RecordingRequestor

/-- A memory that records requests and performs them when told to respond. -/
structure RecordingMemory where
  /-- How many of the next requests are refused. -/
  refuse : Nat := 0
  /-- The accepted requests, the last one in front. -/
  log : List Packet := []
  /-- The accepted requests that were not performed yet, in order. -/
  pending : List Packet := []
  bytes : Chunks := .empty
  /-- The number of functional accesses. -/
  functionals : Nat := 0

namespace RecordingMemory

/-- The accepted requests in order. -/
def requests (m : RecordingMemory) : List Packet :=
  m.log.reverse

/-- Takes a request, or refuses it as told. -/
def receive (m : RecordingMemory) (p : Packet) : Handshake × RecordingMemory :=
  if 0 < m.refuse then (.refused p, { m with refuse := m.refuse - 1 })
  else (.accepted, { m with log := p :: m.log, pending := m.pending ++ [p] })

/-- Performs an access and turns a request into its answer. -/
def access (m : RecordingMemory) (p : Packet) : Except Fault (Packet × RecordingMemory) := do
  let (p, m) ←
    if p.command.isWrite then do
      let bytes ← m.bytes.write p.addr (← p.data?)
      pure (p, { m with bytes })
    else do
      let p ← p.setData? (← m.bytes.read p.addr p.size)
      pure (p, m)
  if p.command.needsResponse then return (← p.respond?, m) else return (p, m)

/-- Performs an access at once and counts it. -/
def functional (m : RecordingMemory) (p : Packet) : Except Fault (Packet × RecordingMemory) :=
  { m with functionals := m.functionals + 1 }.access p

/-- Performs requests in order, and answers the responses to those that need one. -/
def perform (m : RecordingMemory) : List Packet → Except Fault (List Packet × RecordingMemory)
  | [] => .ok ([], m)
  | p :: rest => do
    let (answer, m) ← m.access p
    let (answers, m) ← m.perform rest
    return (if p.command.needsResponse then answer :: answers else answers, m)

/-- Performs all requests that were not performed yet. -/
def respond (m : RecordingMemory) : Except Fault (List Packet × RecordingMemory) :=
  { m with pending := [] }.perform m.pending

instance : RequestReceiver RecordingMemory where
  receive m p := pure (m.receive p)
  functional m p := Sim.ofExcept (m.functional p)
  ranges _ := [{ start := 0, stop := UInt32.size }]

end RecordingMemory

end CacheSim
