import CacheSim.Cache.Phase
import CacheSim.EventQueue
import CacheSim.Port.CpuSide
import CacheSim.Port.MemSide
import CacheSim.Stats.Counters
import CacheSim.Store.Basic

/-!
# A blocking writeback cache

The cache serves one request at a time; its `Control` fields say which one, and
every step of the request sets them.  The requestors and the memory stand behind
the ports, so that the same cache works with any kind of peers.
-/

namespace CacheSim

/-- The event that performs the access of an accepted request. -/
structure AccessEvent where
  packet : Packet
  deriving DecidableEq, Inhabited

/-- The text of an event about a packet that has one. -/
def AccessEvent.text? (e : AccessEvent) : Except Fault String := do
  let p ← e.packet.text?
  return s!"Access({p})"

/-- Which request is served, and how far it is. -/
structure Control where
  /-- A request is being served, and all others are refused. -/
  blocked : Bool := false
  /-- The port that waits for the answer. -/
  waitingPort : Option Nat := none
  /-- A request for a part of a block, kept until the block arrives. -/
  original : Option Packet := none
  /-- When the last access missed. -/
  missTime : Tick := 0
  /-- What the cache is waiting for. -/
  phase : Phase := .idle
  deriving DecidableEq, Inhabited

/-- A cache between requestors `ρ` and a memory `μ`. -/
structure Cache (ρ μ : Type) extends Control where
  name : String
  geometry : Geometry
  stats : CacheStats := {}
  store : Store
  cpuPorts : List (CpuSidePort ρ)
  memPort : MemSidePort μ
  /-- A fetch that waits behind a writeback held by the memory side port. -/
  deferred : Option Packet := none

namespace Cache

variable {ρ μ : Type}

/-- The bytes of a line. -/
def lineSize (c : Cache ρ μ) : Nat :=
  c.geometry.lineSize

/-- Ports for requestors, numbered from `id` on. -/
def connect (name : String) : Nat → List ρ → List (CpuSidePort ρ)
  | _, [] => []
  | id, peer :: peers => { name := s!"{name}.cpu_side[{id}]", id, peer } :: connect name (id + 1) peers

/-- A cache with a port for each requestor. -/
def build (name : String) (geometry : Geometry) (store : Store) (requestors : List ρ)
    (memory : μ) : Sim (Cache ρ μ) := do
  Sim.require (requestors ≠ []) (.noCpuPorts name)
  Sim.require (store.lineSize = geometry.lineSize)
    (.lineSizeMismatch name store.lineSize geometry.lineSize)
  Sim.debug fun _ => do
    let shape ← geometry.text
    return s!"{name}: {shape}"
  return {
    name, geometry, store
    cpuPorts := connect name 0 requestors
    memPort := { name := s!"{name}.mem_side", peer := memory } }

/-- The cpu side port of a number. -/
def cpuPort (c : Cache ρ μ) (id : Nat) : Except Fault (CpuSidePort ρ) :=
  match c.cpuPorts[id]? with
  | some port => .ok port
  | none => .error (.noSuchCpuPort c.name id)

/-- The cache with another state of a cpu side port. -/
def setCpuPort (c : Cache ρ μ) (id : Nat) (port : CpuSidePort ρ) : Cache ρ μ :=
  { c with cpuPorts := c.cpuPorts.set id port }

/-- The name of a port, given the interface and the place in it. -/
def portName (c : Cache ρ μ) (interface : String) (index : Option Nat) : Except Fault String :=
  match interface, index with
  | "mem_side", none => .ok c.memPort.name
  | "mem_side", some i => .error (.notVectorPort c.name i)
  | "cpu_side", some i =>
    match c.cpuPorts[i]? with
    | some port => .ok port.name
    | none => .error (.noSuchPort c.name interface index)
  | _, _ => .error (.noSuchPort c.name interface index)

end Cache

end CacheSim
