import CacheSim.Requestor.Completion
import CacheSim.Requestor.Mailbox

/-!
# Requestors that play a script

The accesses of a script are made one at a time: the next one is offered once
the response to the one before came.  A request that was refused is offered
again after a signal.
-/

namespace CacheSim

/-- An access whose request was offered and not answered yet. -/
structure Outstanding where
  access : Access
  /-- When its request was first offered. -/
  issued : Tick
  /-- When its request was accepted, if it was. -/
  accepted : Option Tick := none
  deriving DecidableEq, Inhabited

/-- A request to send now. -/
structure Offer where
  packet : Packet
  deriving DecidableEq, Inhabited

/-- A requestor that plays a script. -/
structure ScriptedRequestor where
  name : String
  id : Nat
  clock : Clock
  now : Tick := 0
  /-- The accesses that were not offered yet. -/
  remaining : List Access
  outstanding : Option Outstanding := none
  /-- The request that was refused, until it is sent again. -/
  refused : Option Packet := none
  /-- How often a request was refused. -/
  refusals : Nat := 0
  /-- The completed accesses, the last one in front. -/
  log : List Completion := []
  deriving DecidableEq

namespace ScriptedRequestor

/-- A requestor that starts on a script. -/
def ofScript (name : String) (id : Nat) (clock : Clock) (script : Script) : ScriptedRequestor :=
  { name, id, clock, remaining := script.accesses }

/-- The mailbox of a requestor that starts on a script. -/
def mailboxFor (name : String) (script : Script) : Mailbox :=
  { owner := name, refuse := script.refuseResponses.toNat }

/-- The completed accesses in order. -/
def completions (r : ScriptedRequestor) : List Completion :=
  r.log.reverse

/-- All accesses are completed. -/
def isDone (r : ScriptedRequestor) : Bool :=
  r.remaining.isEmpty && r.outstanding.isNone && r.refused.isNone

/-- Takes a response, which completes the access that waits for it. -/
def receive (r : ScriptedRequestor) (p : Packet) : Sim ScriptedRequestor := do
  Sim.require p.command.isResponse (.notResponse r.name p)
  match r.outstanding with
  | some { access, issued, accepted := some accepted } =>
    Sim.require (p.request.context = r.id) (.foreignResponse r.name p r.id)
    Sim.debug fun _ => do
      let data ← p.data?
      return s!"{r.name}: completed {access.text} at {r.now}: {Hex.dump data}"
    let data ← p.data?
    let completion := { access, issued, accepted, responded := r.now, data }
    return { r with outstanding := none, log := completion :: r.log }
  | _ => Sim.fail (.unexpectedResponse r.name p)

/-- Moves time to a clock cycle and takes the responses that came. -/
def cycle (r : ScriptedRequestor) (cycle : Nat) (m : Mailbox) :
    Sim (ScriptedRequestor × Mailbox) := do
  let now ← r.clock.ticksOf cycle
  let (responses, m) := m.empty
  let r ← responses.foldlM receive { r with now }
  return (r, m)

/-- The request to send now, if there is one: the refused one after a signal,
which is used up, or that of the next access.  There is none as long as an
accepted access is not answered. -/
def next? (r : ScriptedRequestor) (m : Mailbox) : Option (Offer × ScriptedRequestor × Mailbox) :=
  if r.outstanding.any (·.accepted.isSome) then none
  else
    match r.refused with
    | some packet =>
      if m.signalled then some (⟨packet⟩, { r with refused := none }, { m with signalled := false })
      else none
    | none =>
      match r.remaining with
      | [] => none
      | access :: remaining =>
        some (⟨access.toPacket r.id⟩,
          { r with remaining, outstanding := some { access, issued := r.now } }, m)

/-- Takes note of the answer to an offer. -/
def conclude (r : ScriptedRequestor) : Handshake → Sim ScriptedRequestor
  | .accepted =>
    return { r with outstanding := r.outstanding.map fun o => { o with accepted := some r.now } }
  | .refused packet => do
    Sim.debug fun _ => do
      let packet ← packet.text?
      return s!"{r.name}: {packet} refused"
    return { r with refused := some packet, refusals := r.refusals + 1 }

/-- Sends the request of an offer. -/
def issue {σ : Type} (r : ScriptedRequestor) (offer : Offer)
    (send : Packet → Sim (Handshake × σ)) : Sim (ScriptedRequestor × σ) := do
  Sim.debug fun _ => do
    let p ← offer.packet.text?
    return s!"{r.name}: issuing {p} at {r.now}"
  let (handshake, s) ← send offer.packet
  let r ← r.conclude handshake
  return (r, s)

end ScriptedRequestor

end CacheSim
