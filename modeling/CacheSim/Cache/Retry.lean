import CacheSim.Cache.Basic

/-!
# Signals and immediate accesses

A peer that refused a packet signals when it is ready for it.  Functional
accesses are performed at once, in the store if their block is resident and in
the memory otherwise.
-/

namespace CacheSim.Cache

variable {ρ μ : Type}

/-- The requestor of a port is ready for the answer that it refused. -/
def retryResponse [ResponseReceiver ρ] (c : Cache ρ μ) (id : Nat) : Sim (Cache ρ μ) := do
  let port ← c.cpuPort id
  let port ← port.retryResponse
  return c.setCpuPort id port

/-- The memory changed its addresses, which every requestor is told. -/
def rangesChanged [ResponseReceiver ρ] (c : Cache ρ μ) : Cache ρ μ :=
  { c with cpuPorts := c.cpuPorts.map CpuSidePort.sendRangeChange }

/-- Accesses without time are not supported. -/
def atomic {α : Type} (c : Cache ρ μ) (id : Nat) (p : Packet) : Sim α :=
  Sim.fail (.atomicUnsupported c.name p id)

variable [RequestReceiver μ]

/-- The memory is ready for the request that it refused.  Once that is sent, a
fetch that was kept back follows. -/
def retryRequest (c : Cache ρ μ) : Sim (Cache ρ μ) := do
  let memPort ← c.memPort.retryRequest
  let c := { c with memPort }
  match memPort.parked, c.deferred with
  | none, some fetch =>
    Sim.debug fun _ => do
      let fetch ← fetch.text?
      return s!"{c.name}: sending deferred {fetch}"
    let memPort ← memPort.send fetch
    return { c with memPort, deferred := none }
  | _, _ => return c

/-- Performs an access at once. -/
def functional (c : Cache ρ μ) (id : Nat) (p : Packet) : Sim (Packet × Cache ρ μ) := do
  let _ ← c.cpuPort id
  match ← c.store.access p with
  | some (p, store) =>
    let answer ← p.respond?
    return (answer, { c with store })
  | none =>
    let (p, memPort) ← c.memPort.functional p
    return (p, { c with memPort })

/-- The addresses that are served through the cache. -/
def ranges (c : Cache ρ μ) : List AddrRange :=
  c.memPort.ranges

end CacheSim.Cache
