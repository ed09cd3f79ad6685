import CacheSim.Simulation.Basic

/-!
# A cycle of a system

First the memory makes the due responses available.  Then requestors take the
responses that they refused, the cache takes those of the memory and repeats a
refused request, and the scheduled accesses are performed.  At last every
requestor reads its mail and offers its next request.
-/

namespace CacheSim.Simulation

/-- The requestor of a number asks for the response that it refused. -/
def retryResponse (s : Simulation) (id : Nat) : Sim Simulation := do
  let (wanted, m) := (← s.mailbox id).takeAnswerRefused
  if wanted then
    let cache ← (s.withMailbox id m).cache.retryResponse id
    return { s with cache }
  else return s

/-- All requestors ask for the responses that they refused. -/
def retryResponses (s : Simulation) : Sim Simulation :=
  s.requestors.foldlM (fun s r => s.retryResponse r.id) s

/-- Gives the cache at most `n` available responses of the memory. -/
def deliver : Nat → Simulation → Sim Simulation
  | 0, s => pure s
  | n + 1, s =>
    match s.memory.takeResponse with
    | none => pure s
    | some (p, m) => do
      let s := s.withMemory m
      let cache ← s.cache.fill s.queue.now p
      deliver n { s with cache }

/-- Gives the cache all available responses of the memory; none becomes
available meanwhile. -/
def deliverAll (s : Simulation) : Sim Simulation :=
  deliver s.memory.ready.length s

/-- Tells the cache that the memory has room again, if that is so. -/
def retryRequest (s : Simulation) : Sim Simulation := do
  let (room, m) := s.memory.takeRetry
  if room then
    let cache ← (s.withMemory m).cache.retryRequest
    return { s with cache }
  else return s

/-- Performs at most `n` events that are due. -/
def fire (now : Tick) : Nat → Simulation → Sim Simulation
  | 0, s => pure s
  | n + 1, s =>
    match s.queue.popDue? now with
    | none => pure s
    | some (tick, event, queue) => do
      let cache ← s.cache.fire tick event
      fire now n { s with cache, queue }

/-- Performs all events that are due; an access schedules no other one. -/
def fireDue (s : Simulation) (now : Tick) : Sim Simulation :=
  fire now s.queue.size s

/-- A requestor reads its mail and offers its next request. -/
def play (cycle : Nat) (s : Simulation) (r : ScriptedRequestor) : Sim (ScriptedRequestor × Simulation) := do
  let (r, m) ← r.cycle cycle (← s.mailbox r.id)
  match r.next? m with
  | none => return (r, s.withMailbox r.id m)
  | some (offer, r, m) =>
    let s := s.withMailbox r.id m
    r.issue offer fun p => do
      let (handshake, cache, queue) ← s.cache.offer s.queue r.id p
      return (handshake, { s with cache, queue })

/-- Requestors play one after another. -/
def playAll (cycle : Nat) : List ScriptedRequestor → Simulation →
    Sim (List ScriptedRequestor × Simulation)
  | [], s => pure ([], s)
  | r :: rest, s => do
    let (r, s) ← s.play cycle r
    let (rest, s) ← playAll cycle rest s
    return (r :: rest, s)

/-- Performs one cycle. -/
def cycle (s : Simulation) (cycle : Nat) : Sim Simulation := do
  let now ← s.clock.ticksOf cycle
  let queue ← s.queue.advanceTo now
  Sim.trace fun _ => return s!"=============== cycle {cycle} ({now}) ==============="
  let memory ← s.memory.cycle cycle
  let s := { s with queue }.withMemory memory
  let s ← s.retryResponses
  let s ← s.deliverAll
  let s ← s.retryRequest
  let s ← s.fireDue now
  let (requestors, s) ← playAll cycle s.requestors s
  return { s with requestors }

/-- Performs the next cycle. -/
def step (s : Simulation) : Sim Simulation := do
  let t ← s.cycle s.nextCycle
  return { t with nextCycle := s.nextCycle + 1 }

end CacheSim.Simulation
