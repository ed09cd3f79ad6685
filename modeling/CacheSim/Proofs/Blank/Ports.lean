import CacheSim.Proofs.Blank.Basic
import CacheSim.Proofs.Cache.Recorded
import CacheSim.Proofs.Traffic.Peers

/-!
# Blanked ports

Ports between peers that do as they like, with zeros in all packets.  A peer
chooses by the number of packets that it was offered, so the blanked ports take,
hold and hand back the same packets, blanked.
-/

namespace CacheSim

/-- The outcome with zeros in the packet that is handed back. -/
def Handshake.blank : Handshake → Handshake
  | accepted => accepted
  | refused p => refused p.blank

theorem Handshake.blank_eq_accepted_iff (h : Handshake) : h.blank = accepted ↔ h = accepted := by
  cases h <;> simp [blank]

/-! ## Peers -/

namespace FreeRequestor

/-- The requestor with zeros in the responses that it took. -/
def blank (r : FreeRequestor) : FreeRequestor :=
  { r with taken := r.taken.map Packet.blank }

theorem respond_blank (r : FreeRequestor) (p : Packet) :
    r.blank.respond p.blank = Prod.map Handshake.blank blank (r.respond p) := by
  cases h : r.choices r.offered <;> simp [respond, blank, Handshake.blank, h]

end FreeRequestor

namespace FreeMemory

/-- The memory of zeros, with zeros in the answers that it owes. -/
def blank (m : FreeMemory) : FreeMemory :=
  { m with contents := .zeros, owed := m.owed.map Packet.blank }

theorem handle_blank (m : FreeMemory) (p : Packet) :
    m.blank.handle p.blank = Prod.map Handshake.blank blank (m.handle p) := by
  cases h : m.choices m.offered <;> simp [handle, blank, Handshake.blank, FlatMemory.answers_zeros m.contents, h]

end FreeMemory

namespace Recorded

/-- The memory and the record with zeros in all packets. -/
def blank (m : Recorded FreeMemory) : Recorded FreeMemory where
  memory := m.memory.blank
  received := m.received.map Packet.blank
  unanswered := m.unanswered.map Packet.blank

theorem handle_blank (m : Recorded FreeMemory) (p : Packet) :
    LawfulMemory.handle m.blank p.blank = Prod.map Handshake.blank blank (LawfulMemory.handle m p) := by
  show m.blank.offered p.blank (m.memory.blank.handle p.blank) =
    Prod.map Handshake.blank blank (m.offered p (m.memory.handle p))
  rw [FreeMemory.handle_blank]
  rcases m.memory.handle p with ⟨_ | q, memory⟩
  · cases h : p.command.needsResponse <;> simp [offered, blank, Handshake.blank, h]
  · rfl

end Recorded

/-! ## Ports -/

namespace CpuSidePort

/-- The port with zeros in all packets. -/
def blank (c : CpuSidePort FreeRequestor) : CpuSidePort FreeRequestor :=
  { c with parked := c.parked.map Packet.blank, peer := c.peer.blank }

variable (c : CpuSidePort FreeRequestor)

@[simp] theorem parked_blank : c.blank.parked = c.parked.map Packet.blank := rfl

@[simp] theorem canAccept_blank : c.blank.canAccept = c.canAccept := by
  simp only [canAccept, parked_blank, Option.isNone_map]
  rfl

theorem blank_delivered (p : Packet) : (c.delivered p).blank = c.blank.delivered p.blank := by
  have hrespond : LawfulRequestor.respond c.blank.peer p.blank =
      Prod.map Handshake.blank FreeRequestor.blank (LawfulRequestor.respond c.peer p) := c.peer.respond_blank p
  simp only [delivered, hrespond]
  rcases LawfulRequestor.respond c.peer p with ⟨_ | q, peer⟩ <;> rfl

theorem blank_notified : c.notified.blank = c.blank.notified := by
  simp only [notified, blank, Option.isNone_map]
  split <;> rfl

theorem agree_send (p : Packet) : Agree blank (c.send p).result (c.blank.send p.blank).result := by
  cases hp : c.parked with
  | none =>
    have hp' : c.blank.parked = none := by simp [hp]
    rw [result_send hp, result_send hp']
    exact .of_eq (c.blank_delivered p).symm
  | some q =>
    have hp' : c.blank.parked = some q.blank := by simp [hp]
    simp only [send, hp, hp', Sim.result_bind, Sim.result_require]
    exact .error _ _

theorem agree_retryResponse : Agree blank c.retryResponse.result c.blank.retryResponse.result := by
  cases hp : c.parked with
  | none =>
    have hp' : c.blank.parked = none := by simp [hp]
    simp only [retryResponse, hp, hp', Sim.result_fail]
    exact .error _ _
  | some q =>
    have hp' : c.blank.parked = some q.blank := by simp [hp]
    rw [result_retryResponse hp, result_retryResponse hp']
    refine .of_eq ?_
    rw [retried, retried, blank_notified, blank_delivered]
    rfl

end CpuSidePort

namespace MemSidePort

/-- The port with zeros in all packets. -/
def blank (m : MemSidePort (Recorded FreeMemory)) : MemSidePort (Recorded FreeMemory) :=
  { m with parked := m.parked.map Packet.blank, peer := m.peer.blank }

variable (m : MemSidePort (Recorded FreeMemory))

@[simp] theorem parked_blank : m.blank.parked = m.parked.map Packet.blank := rfl

theorem blank_forwarded (p : Packet) : (m.forwarded p).blank = m.blank.forwarded p.blank := by
  have hhandle : LawfulMemory.handle m.blank.peer p.blank =
      Prod.map Handshake.blank Recorded.blank (LawfulMemory.handle m.peer p) := m.peer.handle_blank p
  simp only [forwarded, hhandle]
  rcases LawfulMemory.handle m.peer p with ⟨_ | q, peer⟩ <;> rfl

theorem agree_send (p : Packet) : Agree blank (m.send p).result (m.blank.send p.blank).result := by
  cases hp : m.parked with
  | none =>
    have hp' : m.blank.parked = none := by simp [hp]
    rw [result_send hp trivial, result_send hp' trivial]
    exact .of_eq (m.blank_forwarded p).symm
  | some q =>
    have hp' : m.blank.parked = some q.blank := by simp [hp]
    simp only [send, hp, hp', Sim.result_bind, Sim.result_require]
    exact .error _ _

theorem agree_retryRequest : Agree blank m.retryRequest.result m.blank.retryRequest.result := by
  cases hp : m.parked with
  | none =>
    have hp' : m.blank.parked = none := by simp [hp]
    simp only [retryRequest, hp, hp', Sim.result_fail]
    exact .error _ _
  | some q =>
    have hp' : m.blank.parked = some q.blank := by simp [hp]
    rw [result_retryRequest hp trivial, result_retryRequest hp' trivial]
    exact .of_eq (m.freed.blank_forwarded q).symm

end MemSidePort

end CacheSim
