import CacheSim.Cache.Retry
import CacheSim.Cache.Timing
import CacheSim.Config.Basic
import CacheSim.Memory.Timed
import CacheSim.Random.Seeded
import CacheSim.Requestor.Scripted

/-!
# Systems

Requestors that play the scripts of a trace, one cache and one memory.  The
mailboxes of the requestors and the memory are the peers behind the ports of
the cache.
-/

namespace CacheSim

/-- Requestors, a cache and a memory under one clock. -/
structure Simulation where
  clock : Clock
  queue : EventQueue AccessEvent
  cache : Cache Mailbox TimedMemory
  requestors : List ScriptedRequestor
  /-- The cycle that the next step performs. -/
  nextCycle : Nat := 0

/-- Why a system is not built. -/
inductive SimulationError where
  | config (error : ConfigError)
  /-- There are more scripts than ports for requestors. -/
  | tooManyScripts (scripts ports : Nat)
  deriving DecidableEq

/-- The wording of an error. -/
def SimulationError.message : SimulationError → String
  | config e => e.message
  | tooManyScripts scripts ports =>
    s!"trace has {scripts} initiators but the cache has only {ports} cpu side ports"

namespace Simulation

/-- The name of the requestor of a number. -/
def requestorName (id : Nat) : String :=
  s!"system.cpu[{id}]"

/-- What can be wrong with a configuration and a trace. -/
def check (config : Config) (trace : Trace) : Except SimulationError Unit := do
  config.validate.mapError .config
  let ports := config.cache.ports.toNat
  if ports < trace.scripts.length then throw (.tooManyScripts trace.scripts.length ports)

/-- The system of a configuration and a trace that passed the check.  Ports
without a script get a requestor that does nothing. -/
def assemble (config : Config) (trace : Trace) : Sim Simulation := do
  let clock ← Clock.ofPeriod? config.clockPeriod.toNat
  let memory ← TimedMemory.build "system.mem" clock config.memory.latency.toNat
    config.memory.buffer.toNat config.memory.range.bytes.toNat
  let ids := List.range config.cache.ports.toNat
  let script (id : Nat) := trace.scripts.getD id {}
  let geometry ← config.geometry
  let store ← Store.ofGeometry? geometry (.seeded config.seed.toNat)
  let mailboxes := ids.map fun id =>
    ScriptedRequestor.mailboxFor (requestorName id) (script id)
  let cache ← Cache.build "system.cache" geometry store mailboxes memory
  Sim.info fun _ => return s!"{cache.name}: {config.cache.size.text} "
    ++ s!"({store.capacity} lines), seed {config.seed}"
  return {
    clock, cache
    queue := .empty clock
    requestors := ids.map fun id => .ofScript (requestorName id) id clock (script id) }

/-- The system of a configuration and a trace. -/
def build (config : Config) (trace : Trace) : Sim (Except SimulationError Simulation) := do
  match check config trace with
  | .error e => return .error e
  | .ok () => return .ok (← assemble config trace)

/-- The memory. -/
def memory (s : Simulation) : TimedMemory :=
  s.cache.memPort.peer

/-- The system with another state of its memory. -/
def withMemory (s : Simulation) (m : TimedMemory) : Simulation :=
  { s with cache := { s.cache with memPort := { s.cache.memPort with peer := m } } }

/-- The mailbox of a requestor. -/
def mailbox (s : Simulation) (id : Nat) : Except Fault Mailbox := do
  return (← s.cache.cpuPort id).peer

/-- The system with another state of a mailbox. -/
def withMailbox (s : Simulation) (id : Nat) (m : Mailbox) : Simulation :=
  match s.cache.cpuPorts[id]? with
  | some port => { s with cache := s.cache.setCpuPort id { port with peer := m } }
  | none => s

/-- All accesses are completed and nothing is on its way. -/
def isDone (s : Simulation) : Bool :=
  s.requestors.all (·.isDone) && s.queue.isEmpty && !s.memory.isBusy && !s.cache.blocked

end Simulation

end CacheSim
