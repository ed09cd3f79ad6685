import CacheSim.Cache.Basic

/-!
# Timing accesses

The way of a request through the cache.  `offer` takes it and schedules its
access, or refuses it.  `fire` performs the access: a hit is answered at once,
and a miss sends a fetch of the whole block.  `fill` takes the block, writes
the evicted one back, and answers the request.  After an answer the cache takes
requests again, and the ports give the signals they owe.
-/

namespace CacheSim.Cache

variable {ρ μ : Type}

/-- A requestor offers a request on a port. -/
def offer (c : Cache ρ μ) (queue : EventQueue AccessEvent) (id : Nat) (p : Packet) :
    Sim (Handshake × Cache ρ μ × EventQueue AccessEvent) := do
  let port ← c.cpuPort id
  if !port.canAccept then
    let port ← port.refuse
    return (.refused p, c.setCpuPort id port, queue)
  else if c.blocked then
    Sim.debug fun _ => do
      let p ← p.text?
      return s!"{c.name}: blocked, refusing {p} from port {id}"
    let port ← port.refuse
    return (.refused p, c.setCpuPort id port, queue)
  else
    Sim.require p.command.needsResponse (.unansweredRequest c.name p)
    Sim.debug fun _ => do
      let p ← p.text?
      return s!"{c.name}: got request {p} on port {id}"
    let c := { c with blocked := true, waitingPort := some id }
    let tick ← queue.edge c.geometry.latency
    let queue ← queue.schedule ⟨p⟩ tick
    return (.accepted, { c with phase := .waitAccess }, queue)

/-- Sends an answer on the port that waits for it, takes requests again, and
gives the signals that are owed. -/
def reply [ResponseReceiver ρ] (c : Cache ρ μ) (p : Packet) : Sim (Cache ρ μ) := do
  Sim.require c.blocked (.answerUnblocked c.name)
  match c.waitingPort with
  | none => Sim.fail (.noWaitingPort c.name p)
  | some id =>
    Sim.debug fun _ => do
      let p ← p.text?
      return s!"{c.name}: sending {p} to port {id}"
    -- unblocked before the answer is sent, so that the requestor can go on
    let c := { c with waitingPort := none, blocked := false, phase := .idle }
    match c.cpuPorts[id]? with
    | none => Sim.fail (.indexOutOfBounds c.cpuPorts.length id)
    | some port =>
      let port ← port.send p
      let cpuPorts ← (c.cpuPorts.set id port).mapM CpuSidePort.trySendRetry
      return { c with cpuPorts }

variable [RequestReceiver μ]

/-- Sends a fetch, or keeps it back behind a packet that the memory refused. -/
def sendFetch (c : Cache ρ μ) (p : Packet) : Sim (Cache ρ μ) := do
  match c.memPort.parked with
  | some parked =>
    Sim.debug fun _ => do
      let p ← p.text?
      let parked ← parked.text?
      return s!"{c.name}: deferring {p} behind parked {parked}"
    return { c with deferred := some p }
  | none =>
    let memPort ← c.memPort.send p
    return { c with memPort }

/-- Handles a miss at the tick `now`.  A request for the whole block is the
fetch itself; any other request waits for a fetch of its block. -/
def miss (c : Cache ρ μ) (now : Tick) (p : Packet) : Sim (Cache ρ μ) := do
  let size := c.lineSize
  let c := { c with missTime := now, phase := .waitMem }
  if p.addr = p.block size ∧ p.size = size then
    c.sendFetch p
  else
    Sim.require (p.Fits size) (.spansLines c.name p)
    Sim.require (p.command.isRead ∨ p.command.isWrite) (.unknownUpgrade c.name p)
    let fetch ← Packet.ofBlock? p.request .readReq size
    let fetch := fetch.allocate
    Sim.debug fun _ => do
      let p ← p.text?
      let fetch ← fetch.text?
      return s!"{c.name}: upgrading {p} to {fetch}"
    let c := { c with original := some p }
    c.sendFetch fetch

/-- Performs the scheduled access at the tick `now`. -/
def fire [ResponseReceiver ρ] (c : Cache ρ μ) (now : Tick) (e : AccessEvent) :
    Sim (Cache ρ μ) := do
  Sim.require (c.phase = .waitAccess) (.strayAccess c.name c.phase)
  let p := e.packet
  let block ← Block.align? c.lineSize p.addr
  match ← c.store.access p with
  | some (p, store) =>
    Sim.debug fun _ => do
      let p ← p.text?
      return s!"{c.name}: HIT for {p}"
    let answer ← p.respond?
    let stats := { c.stats with hits := c.stats.hits + 1 }
    let c := { c with store := store.touch block, stats }
    c.reply answer
  | none =>
    Sim.debug fun _ => do
      let p ← p.text?
      return s!"{c.name}: MISS for {p}"
    let stats := { c.stats with misses := c.stats.misses + 1 }
    let c := { c with stats }
    c.miss now p

/-- Sends the block that was evicted for another one back to the memory. -/
def writeBack (c : Cache ρ μ) (addr : Nat) : Option Line → Sim (MemSidePort μ)
  | none => return c.memPort
  | some victim => do
    Sim.debug fun _ => return s!"{c.name}: evicting {victim.text} for {Hex.number addr}"
    Sim.trace fun _ => return s!"{c.name}: writeback {Hex.dump victim.data}"
    c.memPort.send (.writeback victim.tag victim.data)

/-- Installs the block of a response, and writes the evicted block back. -/
def install (c : Cache ρ μ) (p : Packet) : Sim (Cache ρ μ) := do
  let block ← Block.align? c.lineSize p.addr
  Sim.require (p.addr = block) (.unalignedFill c.name p block)
  Sim.require (p.size = c.lineSize) (.partialFill p.size c.lineSize)
  Sim.require (c.store.lookup p.addr).isNone (.residentFill c.name p.addr)
  Sim.require p.command.isResponse .requestFill
  let data ← p.data?
  Sim.trace fun _ => return s!"{c.name}: inserting {Hex.number p.addr}: {Hex.dump data}"
  let (victim, store) ← c.store.insert p.addr data
  let c := { c with store, memPort := ← c.writeBack p.addr victim }
  Sim.require (c.store.size ≤ c.store.capacity) .overfullStore
  return c

/-- The memory sends a response at the tick `now`. -/
def fill [ResponseReceiver ρ] (c : Cache ρ μ) (now : Tick) (p : Packet) : Sim (Cache ρ μ) := do
  Sim.require c.blocked (.uninvitedResponse c.name p)
  Sim.require p.command.isResponse (.notResponse c.name p)
  Sim.require (c.phase = .waitMem) (.earlyResponse c.phase)
  Sim.debug fun _ => do
    let p ← p.text?
    return s!"{c.name}: got response {p}"
  let c ← c.install p
  let elapsed ← Word.sub now c.missTime
  let missLatency ← c.stats.missLatency.sample elapsed
  let c := { c with stats := { c.stats with missLatency } }
  match c.original with
  | none => c.reply p
  | some request =>
    let c := { c with original := none }
    Sim.debug fun _ => do
      let request ← request.text?
      return s!"{c.name}: completing upgraded {request}"
    match ← c.store.access request with
    | none => Sim.fail (.missAfterFill c.name request)
    | some (served, store) =>
      let answer ← served.respond?
      let c := { c with store }
      c.reply answer

end CacheSim.Cache
