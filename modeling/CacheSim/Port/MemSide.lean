import CacheSim.Port.Peer

/-!
# Ports towards memories

A memory side port sends requests to a memory, and holds one that the memory
refused until the memory is ready for it.
-/

namespace CacheSim

/-- A port with the memory behind it. -/
structure MemSidePort (μ : Type) where
  name : String
  /-- The request that the memory refused. -/
  parked : Option Packet := none
  peer : μ

namespace MemSidePort

variable {μ : Type} [RequestReceiver μ]

/-- Sends a request, and holds it if the memory refuses it. -/
def send (m : MemSidePort μ) (p : Packet) : Sim (MemSidePort μ) := do
  Sim.require m.parked.isNone (.portOccupied m.name)
  Sim.debug fun _ => do
    let p ← p.text?
    return s!"{m.name}: sending request {p}"
  let (handshake, peer) ← RequestReceiver.receive m.peer p
  match handshake with
  | .accepted => return { m with peer }
  | .refused p =>
    Sim.debug fun _ => do
      let p ← p.text?
      return s!"{m.name}: request {p} refused, parking"
    return { m with peer, parked := some p }

/-- Sends the request that is held, once the memory is ready for it. -/
def retryRequest (m : MemSidePort μ) : Sim (MemSidePort μ) := do
  match m.parked with
  | none => Sim.fail (.noParkedRequest m.name)
  | some p =>
    Sim.debug fun _ => do
      let p ← p.text?
      return s!"{m.name}: request retry for {p}"
    let m := { m with parked := none }
    m.send p

/-- Performs an access in the memory at once. -/
def functional (m : MemSidePort μ) (p : Packet) : Sim (Packet × MemSidePort μ) := do
  let (p, peer) ← RequestReceiver.functional m.peer p
  return (p, { m with peer })

/-- The addresses served by the memory. -/
def ranges (m : MemSidePort μ) : List AddrRange :=
  RequestReceiver.ranges m.peer

end MemSidePort

end CacheSim
