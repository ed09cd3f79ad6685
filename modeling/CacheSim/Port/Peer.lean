import CacheSim.Packet.Payload
import CacheSim.Sim

/-!
# Peers

What a port asks of the component behind it.  Timing messages may be refused:
a refused packet is handed back, and whoever refused it signals later that it
can be sent again.
-/

namespace CacheSim

/-- The outcome of offering a packet. -/
inductive Handshake where
  | accepted
  /-- The packet is handed back. -/
  | refused (packet : Packet)
  deriving DecidableEq, Inhabited

/-- A range of addresses, the last of which is excluded. -/
structure AddrRange where
  start : Nat
  stop : Nat
  deriving DecidableEq, Inhabited

/-- A requestor, as the port that answers it sees it. -/
class ResponseReceiver (ρ : Type) where
  /-- Offers a response. -/
  receive : ρ → Packet → Sim (Handshake × ρ)
  /-- Signals that a refused request can be sent again. -/
  retry : ρ → ρ
  /-- Signals that the served addresses changed. -/
  rangesChanged : ρ → ρ

/-- A memory, as the port that asks it sees it. -/
class RequestReceiver (μ : Type) where
  /-- Offers a timing request. -/
  receive : μ → Packet → Sim (Handshake × μ)
  /-- Performs an access at once. -/
  functional : μ → Packet → Sim (Packet × μ)
  /-- The served addresses. -/
  ranges : μ → List AddrRange

end CacheSim
