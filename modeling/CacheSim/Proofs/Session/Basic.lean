import CacheSim.Proofs.Cache.Recorded
import CacheSim.Proofs.Traffic.Basic

/-!
# Sessions

Traffic through a cache without any bound on times or on the number of calls,
and with records of what happened: which requests were accepted, which accesses
hit, what the memory received and which answers it gave, and in which order the
accesses took effect.

An access that goes past the timing path takes effect at once, but not always
for good.  While a writeback of its block waits for the memory, the store has
the block no more and the memory has it not yet (`Session.Shadowed`).  While
the answer to a fetch of its block is owed, what it does to the memory comes
too late for that answer (`Session.Overtakes`).
-/

namespace CacheSim

/-- The memory after it gave the answer at a place of those that it owes. -/
def Recorded.gave (m : Recorded FreeMemory) (i : Nat) : Recorded FreeMemory :=
  { m with
    memory := { m.memory with owed := m.memory.owed.eraseIdx i }
    unanswered := m.unanswered.eraseIdx i }

/-- A cache, its event queue, and records of what happened. -/
structure Session where
  cache : Cache FreeRequestor (Recorded FreeMemory)
  queue : EventQueue AccessEvent
  /-- The accepted requests with their ports, the first one in front. -/
  accepted : List (Nat × Packet) := []
  /-- Whether the accesses that were performed hit, the first one in front. -/
  hits : List Bool := []
  /-- The answers that the memory gave, the first one in front. -/
  given : List Packet := []
  /-- The accesses in the order in which they took effect: the requests of a
  port when they were answered, and those past the timing path. -/
  history : List (Option Nat × Packet) := []
  /-- The accesses past the timing path that overtook the answer that is owed. -/
  overtaking : List Packet := []

namespace Session

/-- The start: an empty store, a memory that owes nothing, and a port for every
requestor. -/
def start (period : Nat) (g : Geometry) (gen : Generator) (requestors : List (Nat → Bool))
    (memory : Nat → Bool) (contents : FlatMemory) : Sim Session := do
  let clock ← Clock.ofPeriod? period
  let store ← Store.ofGeometry? g gen
  let cache ← Cache.build "cache" g store (requestors.map fun choices => { choices })
    { memory := { choices := memory, contents } }
  return { cache, queue := .empty clock }

/-- The request in service. -/
def current (s : Session) : Option (Nat × Packet) :=
  if s.cache.blocked then s.accepted.getLast? else none

/-- The requests that were answered: all but the one in service. -/
def completed (s : Session) : List (Nat × Packet) :=
  if s.cache.blocked then s.accepted.dropLast else s.accepted

/-- All that was sent to the memory: what it accepted, what the memory side port
holds, and what is kept back behind that. -/
def asked (s : Session) : List Packet :=
  s.cache.memPort.peer.received ++ (s.cache.memPort.parked.toList ++ s.cache.deferred.toList)

/-- A writeback of the block of an access waits for the memory. -/
def Shadowed (s : Session) (p : Packet) : Prop :=
  ∃ w ∈ s.cache.memPort.parked, w.command = .writebackDirty ∧ w.addr = p.block s.cache.lineSize

/-- The answer to a fetch of the block of an access is owed. -/
def Overtakes (s : Session) (p : Packet) : Prop :=
  ∃ f ∈ s.cache.memPort.peer.unanswered, f.addr = p.block s.cache.lineSize

instance (s : Session) (p : Packet) : Decidable (s.Shadowed p) := by
  unfold Shadowed; infer_instance

instance (s : Session) (p : Packet) : Decidable (s.Overtakes p) := by
  unfold Overtakes; infer_instance

/-- A call that the protocol allows. -/
def Allowed (s : Session) : Action → Prop
  | .offer id p | .functional id p => id < s.cache.cpuPorts.length ∧ p.IsAccess s.cache.lineSize
  | .advance tick => s.queue.now ≤ tick ∧ ∀ next ∈ s.queue.next?, tick ≤ next
  | .fire => s.queue.next?.isSome
  | .answer i other =>
    ∃ p ∈ s.cache.memPort.peer.memory.owed[i]?, ∀ data ∈ other, data.length = p.size
  | .retryResponse id => ∃ port ∈ s.cache.cpuPorts[id]?, port.parked.isSome
  | .retryRequest => s.cache.memPort.parked.isSome

instance (s : Session) : (a : Action) → Decidable (s.Allowed a)
  | .offer id p | .functional id p =>
    inferInstanceAs (Decidable (id < s.cache.cpuPorts.length ∧ p.IsAccess s.cache.lineSize))
  | .advance tick => inferInstanceAs (Decidable (s.queue.now ≤ tick ∧ ∀ next ∈ s.queue.next?, tick ≤ next))
  | .fire => inferInstanceAs (Decidable (s.queue.next?.isSome = true))
  | .answer i other =>
    inferInstanceAs (Decidable
      (∃ p ∈ s.cache.memPort.peer.memory.owed[i]?, ∀ data ∈ other, data.length = p.size))
  | .retryResponse id => inferInstanceAs (Decidable (∃ port ∈ s.cache.cpuPorts[id]?, port.parked.isSome = true))
  | .retryRequest => inferInstanceAs (Decidable (s.cache.memPort.parked.isSome = true))

/-- The history once the cache came to another state: the request in service
has taken effect if it was answered. -/
def historyAt (s : Session) (cache : Cache FreeRequestor (Recorded FreeMemory)) :
    List (Option Nat × Packet) :=
  if cache.blocked then s.history else s.history ++ s.current.toList.map fun (id, p) => (some id, p)

/-- The session after an access that was performed. -/
def fired (s : Session) (d : Cache FreeRequestor (Recorded FreeMemory)) (queue : EventQueue AccessEvent) : Session :=
  { s with
    cache := d
    queue
    hits := s.hits ++ [decide (s.cache.stats.hits < d.stats.hits)]
    history := s.historyAt d }

/-- Makes a call. -/
def perform (s : Session) : Action → Sim Session
  | .offer id p => do
    let (handshake, cache, queue) ← s.cache.offer s.queue id p
    let accepted := if handshake = .accepted then s.accepted ++ [(id, p)] else s.accepted
    return { s with cache, queue, accepted }
  | .functional id p => do
    let (_, cache) ← s.cache.functional id p
    if s.Shadowed p then return { s with cache }
    else if s.Overtakes p then return { s with cache, overtaking := s.overtaking ++ [p] }
    else return { s with cache, history := s.history ++ [(none, p)] }
  | .advance tick => do
    let queue ← s.queue.advanceTo tick
    return { s with queue }
  | .fire =>
    match s.queue.pop? with
    | none => pure s
    | some (tick, event, queue) => do
      let cache ← s.cache.fire tick event
      return s.fired cache queue
  | .answer i other =>
    let m := s.cache.memPort.peer
    match m.memory.owed[i]? with
    | none => pure s
    | some a => do
      let a := { a with payload := other.or a.payload }
      let cache := { s.cache with memPort := { s.cache.memPort with peer := m.gave i } }
      let cache ← cache.fill s.queue.now a
      return { s with cache, given := s.given ++ [a], history := s.historyAt cache, overtaking := [] }
  | .retryResponse id => do
    let cache ← s.cache.retryResponse id
    return { s with cache }
  | .retryRequest => do
    let cache ← s.cache.retryRequest
    return { s with cache }

/-- Makes those calls of a list that are allowed when their turn comes. -/
def run : List Action → Session → Sim Session
  | [], s => pure s
  | a :: rest, s => do
    let s ← if s.Allowed a then s.perform a else pure s
    run rest s

theorem accepted_eq (s : Session) : s.accepted = s.completed ++ s.current.toList := by
  unfold completed current
  split
  · cases h : s.accepted.getLast? with
    | none => simp [List.getLast?_eq_none_iff.mp h]
    | some last =>
      obtain ⟨init, hinit⟩ := List.getLast?_eq_some_iff.mp h
      simp [hinit]
  · simp

end Session

end CacheSim
