import CacheSim.Port.Peer

/-!
# Ports towards requestors

A cpu side port sends the answers to one requestor.  It holds an answer that
the requestor refused until the requestor is ready for it, and it remembers
that the requestor waits for a signal to repeat a refused request.
-/

namespace CacheSim

/-- A port with the requestor behind it. -/
structure CpuSidePort (ρ : Type) where
  name : String
  id : Nat
  /-- A request was refused and its requestor waits for a signal. -/
  needsRetry : Bool := false
  /-- The answer that the requestor refused. -/
  parked : Option Packet := none
  peer : ρ

namespace CpuSidePort

variable {ρ : Type}

/-- A request may be handed on: no answer is held and no signal is owed. -/
def canAccept (c : CpuSidePort ρ) : Bool :=
  c.parked.isNone && !c.needsRetry

/-- Refuses a request, which makes the port owe a signal. -/
def refuse (c : CpuSidePort ρ) : Sim (CpuSidePort ρ) := do
  Sim.debug fun _ => return s!"{c.name}: refusing request, retry pending"
  return { c with needsRetry := true }

variable [ResponseReceiver ρ]

/-- Sends an answer, and holds it if the requestor refuses it. -/
def send (c : CpuSidePort ρ) (p : Packet) : Sim (CpuSidePort ρ) := do
  Sim.require c.parked.isNone (.portOccupied c.name)
  Sim.debug fun _ => do
    let p ← p.text?
    return s!"{c.name}: sending response {p}"
  let (handshake, peer) ← ResponseReceiver.receive c.peer p
  match handshake with
  | .accepted => return { c with peer }
  | .refused p =>
    Sim.debug fun _ => do
      let p ← p.text?
      return s!"{c.name}: response {p} refused, parking"
    return { c with peer, parked := some p }

/-- Gives the signal that is owed, unless an answer is held. -/
def trySendRetry (c : CpuSidePort ρ) : Sim (CpuSidePort ρ) := do
  if c.needsRetry && c.parked.isNone then
    Sim.debug fun _ => return s!"{c.name}: sending retry request"
    return { c with needsRetry := false, peer := ResponseReceiver.retry c.peer }
  else return c

/-- Sends the answer that is held, once the requestor is ready for it. -/
def retryResponse (c : CpuSidePort ρ) : Sim (CpuSidePort ρ) := do
  match c.parked with
  | none => Sim.fail (.noParkedResponse c.name)
  | some p =>
    Sim.debug fun _ => do
      let p ← p.text?
      return s!"{c.name}: response retry for {p}"
    let c ← { c with parked := none }.send p
    c.trySendRetry

/-- Passes on that the served addresses changed. -/
def sendRangeChange (c : CpuSidePort ρ) : CpuSidePort ρ :=
  { c with peer := ResponseReceiver.rangesChanged c.peer }

end CpuSidePort

end CacheSim
