import CacheSim.Clock
import CacheSim.Fifo
import CacheSim.Memory.Chunks
import CacheSim.Port.Peer

/-!
# A memory with a fixed latency

An access is performed when its request is accepted, and its response becomes
available a fixed time later.  The memory holds a limited number of responses
and refuses requests that need another one; once there is room again it tells
the refused requestor so.
-/

namespace CacheSim

/-- A response on its way. -/
structure InFlight where
  /-- When the response becomes available. -/
  ready : Tick
  packet : Packet
  deriving DecidableEq, Inhabited

/-- What the memory notes of an accepted request: command, address and size. -/
abbrev Receipt := Command × Nat × Nat

/-- A memory with a fixed latency. -/
structure TimedMemory where
  name : String
  clock : Clock
  /-- Ticks from the acceptance of a request to its response. -/
  latency : Nat
  range : AddrRange
  bytes : Chunks := .empty
  inFlight : Fifo InFlight
  /-- Responses that are available, the first one in front. -/
  ready : List Packet := []
  now : Tick := 0
  /-- A request was refused and there was no room since. -/
  retryPending : Bool := false
  /-- The refused requestor may try again, and was not told yet. -/
  sendRetry : Bool := false
  /-- The accepted requests, the last one in front. -/
  receipts : List Receipt := []

namespace TimedMemory

/-- An empty memory for the addresses below `size`. -/
def build (name : String) (clock : Clock) (latency buffer size : Nat) :
    Except Fault TimedMemory := do
  let latency ← clock.ticksOf latency
  return {
    name, clock, latency
    range := { start := 0, stop := size }
    inFlight := .empty (some buffer) }

/-- The accepted requests in order. -/
def received (m : TimedMemory) : List Receipt :=
  m.receipts.reverse

/-- Responses are on their way or available. -/
def isBusy (m : TimedMemory) : Bool :=
  !m.inFlight.isEmpty || !m.ready.isEmpty

/-- Checks that a packet lies within the addresses of the memory. -/
def checkRange (m : TimedMemory) (p : Packet) : Except Fault Unit := do
  let stop ← Word.add p.addr p.size
  unless m.range.start ≤ p.addr ∧ stop ≤ m.range.stop do
    throw (.outsideRange m.name p m.range.start m.range.stop)

/-- Performs an access. -/
def access (m : TimedMemory) (p : Packet) : Sim (Packet × TimedMemory) := do
  m.checkRange p
  let (p, bytes) ←
    if p.command.isWrite then do
      let data ← p.data?
      let bytes ← m.bytes.write p.addr data
      pure (p, bytes)
    else do
      Sim.require p.command.isRead (.unexpectedAccess m.name p)
      let data ← m.bytes.read p.addr p.size
      let p ← p.setData? data
      pure (p, m.bytes)
  Sim.trace fun _ => do
    let data ← p.data?
    return s!"{m.name}: {p.command.name} {Hex.number p.addr}: {Hex.dump data}"
  return (p, { m with bytes })

/-- A requestor offers a request.  It is refused if it needs a response and
there is no room for one. -/
def offer (m : TimedMemory) (p : Packet) : Sim (Handshake × TimedMemory) := do
  if p.command.needsResponse && m.inFlight.isFull then
    Sim.debug fun _ => do
      let p ← p.text?
      return s!"{m.name}: request buffer full, refusing {p}"
    return (.refused p, { m with retryPending := true })
  else
    let m := { m with receipts := (p.command, p.addr, p.size) :: m.receipts }
    let (p, m) ← m.access p
    if p.command.needsResponse then
      let p ← p.respond?
      let ready ← Word.add m.now m.latency
      Sim.debug fun _ => do
        let p ← p.text?
        return s!"{m.name}: {p} ready at {ready}"
      return (.accepted, { m with inFlight := m.inFlight.enqueue { ready, packet := p } })
    else return (.accepted, m)

/-- Performs an access at once and turns a request into its answer. -/
def functional (m : TimedMemory) (p : Packet) : Sim (Packet × TimedMemory) := do
  let (p, m) ← m.access p
  if p.command.needsResponse then
    let p ← p.respond?
    return (p, m)
  else return (p, m)

/-- Moves time to a clock cycle: the responses that are due become available. -/
def cycle (m : TimedMemory) (cycle : Nat) : Except Fault TimedMemory := do
  let now ← m.clock.ticksOf cycle
  let (due, inFlight) := m.inFlight.drainWhile (·.ready ≤ now)
  let room := m.retryPending && !inFlight.isFull
  return { m with
    now, inFlight
    ready := m.ready ++ due.map (·.packet)
    retryPending := m.retryPending && !room
    sendRetry := m.sendRetry || room }

/-- Takes the next available response. -/
def takeResponse (m : TimedMemory) : Option (Packet × TimedMemory) :=
  match m.ready with
  | [] => none
  | p :: ready => some (p, { m with ready })

/-- Whether a refused requestor may try again; it is told only once. -/
def takeRetry (m : TimedMemory) : Bool × TimedMemory :=
  (m.sendRetry, { m with sendRetry := false })

instance : RequestReceiver TimedMemory where
  receive := offer
  functional := functional
  ranges m := [m.range]

end TimedMemory

end CacheSim
