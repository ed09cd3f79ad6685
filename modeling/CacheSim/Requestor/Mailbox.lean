import CacheSim.Fifo
import CacheSim.Port.Peer

/-!
# Mailboxes

What stands between a port and a requestor that looks for its mail once a
cycle.  A mailbox keeps the responses and the signals that came since, and it
refuses responses as it was told.
-/

namespace CacheSim

/-- The mail of one requestor. -/
structure Mailbox where
  /-- The name of the requestor. -/
  owner : String
  /-- The responses that came, the oldest one first. -/
  inbox : Fifo Packet := .empty
  /-- How many of the next responses are refused. -/
  refuse : Nat := 0
  refused : Nat := 0
  /-- A response was refused, and its sender was not told to send it again. -/
  answerRefused : Bool := false
  /-- The refused request can be sent again. -/
  signalled : Bool := false
  /-- The number of signals that a request can be sent again. -/
  retries : Nat := 0
  rangeChanges : Nat := 0
  deriving DecidableEq

namespace Mailbox

/-- Keeps a response, or refuses it as told. -/
def receive (m : Mailbox) (p : Packet) : Sim (Handshake × Mailbox) := do
  if 0 < m.refuse then
    Sim.debug fun _ => do
      let p ← p.text?
      return s!"{m.owner}: refusing response {p}"
    return (.refused p,
      { m with refuse := m.refuse - 1, refused := m.refused + 1, answerRefused := true })
  else return (.accepted, { m with inbox := m.inbox.enqueue p })

/-- Keeps the signal that a request can be sent again. -/
def signal (m : Mailbox) : Mailbox :=
  { m with signalled := true, retries := m.retries + 1 }

/-- Takes all responses. -/
def empty (m : Mailbox) : List Packet × Mailbox :=
  (m.inbox.items, { m with inbox := { m.inbox with items := [] } })

/-- Whether a refused response should be sent again; it is asked for only once. -/
def takeAnswerRefused (m : Mailbox) : Bool × Mailbox :=
  (m.answerRefused, { m with answerRefused := false })

instance : ResponseReceiver Mailbox where
  receive := receive
  retry := signal
  rangesChanged m := { m with rangeChanges := m.rangeChanges + 1 }

end Mailbox

end CacheSim
