import CacheSim.Proofs.Cache.Coherence
import CacheSim.Proofs.Traffic.Peers

/-!
# Traffic through a cache

A cache between requestors and a memory that do as they like, and everything
that they may do: `Action` lists the calls, `Traffic.Allowed` says which of them
the protocol allows now, and `Traffic.run` makes those of a list of calls that
are allowed, in any order.  Times stay below `Traffic.limit`.
-/

namespace CacheSim

/-- A cache, its event queue, and the requests that it accepted. -/
structure Traffic where
  cache : Cache FreeRequestor FreeMemory
  queue : EventQueue AccessEvent
  /-- The accepted requests with their ports, the first one in front. -/
  accepted : List (Nat × Packet) := []

/-- What a peer or the clock may do. -/
inductive Action where
  /-- A requestor offers a request on its port. -/
  | offer (id : Nat) (p : Packet)
  /-- A requestor accesses the memory at once. -/
  | functional (id : Nat) (p : Packet)
  /-- Time passes. -/
  | advance (tick : Tick)
  /-- The scheduled access is performed. -/
  | fire
  /-- The memory gives an answer that it owes, or one with other bytes. -/
  | answer (i : Nat) (other : Option Bytes := none)
  /-- A requestor is ready for the answer that it refused. -/
  | retryResponse (id : Nat)
  /-- The memory is ready for the request that it refused. -/
  | retryRequest

/-- The memory answers truly, and nothing goes past the timing path. -/
def Action.IsTimed : Action → Prop
  | .functional .. => False
  | .answer _ other => other = none
  | _ => True

namespace Packet

instance (p : Packet) : Decidable p.Carries :=
  decidable_of_iff (p.command.isWrite = true → p.payload.any (·.length == p.size)) <| by
    unfold Carries
    cases p.payload <;> simp

instance (p : Packet) : Decidable p.AroundRequest :=
  inferInstanceAs (Decidable (_ ∨ _))

instance (p : Packet) (size : Nat) : Decidable (p.IsAccess size) :=
  decidable_of_iff (p.command.needsResponse ∧ p.Fits size ∧ p.Carries ∧ p.AroundRequest)
    ⟨fun ⟨h₁, h₂, h₃, h₄⟩ => ⟨h₁, h₂, h₃, h₄⟩, fun ⟨h₁, h₂, h₃, h₄⟩ => ⟨h₁, h₂, h₃, h₄⟩⟩

end Packet

namespace Traffic

/-- What times and the number of calls stay below. -/
def limit : Nat := 2 ^ 63

/-- The start: an empty store, a memory that owes nothing, and a port for every
requestor. -/
def start (period : Nat) (g : Geometry) (gen : Generator) (requestors : List (Nat → Bool))
    (memory : Nat → Bool) (contents : FlatMemory) : Sim Traffic := do
  let clock ← Clock.ofPeriod? period
  let store ← Store.ofGeometry? g gen
  let cache ← Cache.build "cache" g store (requestors.map fun choices => { choices })
    { choices := memory, contents }
  return { cache, queue := .empty clock }

/-- When the access of a request is due that is accepted now. -/
def due (t : Traffic) : Tick :=
  (t.queue.clock.ceilDiv t.queue.now + t.cache.geometry.latency) * t.queue.clock.period

/-- A request that is offered on a port now is accepted. -/
def accepts (t : Traffic) (id : Nat) : Bool :=
  t.cache.cpuPorts[id]?.any (·.canAccept) && !t.cache.blocked

/-- A call that the protocol allows. -/
def Allowed (t : Traffic) : Action → Prop
  | .offer id p =>
    id < t.cache.cpuPorts.length ∧ p.IsAccess t.cache.lineSize ∧ (t.accepts id → t.due < limit)
  | .functional id p => id < t.cache.cpuPorts.length ∧ p.IsAccess t.cache.lineSize
  | .advance tick => t.queue.now ≤ tick ∧ tick < limit ∧ ∀ next ∈ t.queue.next?, tick ≤ next
  | .fire => t.queue.next?.isSome
  | .answer i other =>
    ∃ p ∈ t.cache.memPort.peer.owed[i]?, ∀ data ∈ other, data.length = p.size
  | .retryResponse id => ∃ port ∈ t.cache.cpuPorts[id]?, port.parked.isSome
  | .retryRequest => t.cache.memPort.parked.isSome

instance (t : Traffic) (a : Action) : Decidable (t.Allowed a) := by
  cases a <;> dsimp only [Allowed] <;> infer_instance

/-- The traffic with another state of the memory. -/
def withMemory (t : Traffic) (m : FreeMemory) : Traffic :=
  { t with cache := { t.cache with memPort := { t.cache.memPort with peer := m } } }

/-- Makes a call. -/
def perform (t : Traffic) : Action → Sim Traffic
  | .offer id p => do
    let (handshake, cache, queue) ← t.cache.offer t.queue id p
    let accepted := if handshake = .accepted then t.accepted ++ [(id, p)] else t.accepted
    return { cache, queue, accepted }
  | .functional id p => do
    let (_, cache) ← t.cache.functional id p
    return { t with cache }
  | .advance tick => do
    let queue ← t.queue.advanceTo tick
    return { t with queue }
  | .fire =>
    match t.queue.pop? with
    | none => pure t
    | some (tick, event, queue) => do
      let cache ← t.cache.fire tick event
      return { t with cache, queue }
  | .answer i other =>
    let m := t.cache.memPort.peer
    match m.owed[i]? with
    | none => pure t
    | some p => do
      let p := { p with payload := other.or p.payload }
      let cache ← (t.withMemory { m with owed := m.owed.eraseIdx i }).cache.fill t.queue.now p
      return { t with cache }
  | .retryResponse id => do
    let cache ← t.cache.retryResponse id
    return { t with cache }
  | .retryRequest => do
    let cache ← t.cache.retryRequest
    return { t with cache }

/-- Makes those calls of a list that are allowed when their turn comes. -/
def run : List Action → Traffic → Sim Traffic
  | [], t => pure t
  | a :: rest, t => do
    let t ← if t.Allowed a then t.perform a else pure t
    run rest t

end Traffic

end CacheSim
