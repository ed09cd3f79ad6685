import CacheSim.Port.CpuSide
import CacheSim.Port.MemSide
import CacheSim.Proofs.Packet

/-!
# Ports between conforming peers

A `LawfulRequestor` takes responses or hands them back as it likes, and a
`LawfulMemory` performs the requests that it accepts, in order, and owes their
answers.  A port in front of such a peer loses nothing: what it sent is what
the peer took and what it holds (`sent_delivered`, `sent_notified`), and
offering a held packet again changes nothing that the other side can see
(`sent_retried`).
-/

namespace CacheSim

/-- A requestor that takes a response or hands it back. -/
class LawfulRequestor (ρ : Type) extends ResponseReceiver ρ where
  /-- What it does with a response. -/
  respond : ρ → Packet → Handshake × ρ
  /-- The responses that it took and did not put away. -/
  taken : ρ → List Packet
  result_receive (r : ρ) (p : Packet) : (receive r p).result = .ok (respond r p)
  respond_cases (r : ρ) (p : Packet) :
    (respond r p).1 = .accepted ∧ taken (respond r p).2 = taken r ++ [p] ∨
      (respond r p).1 = .refused p ∧ taken (respond r p).2 = taken r
  taken_retry (r : ρ) : taken (retry r) = taken r

/-- A memory that performs the requests that it accepts in their order. -/
class LawfulMemory (μ : Type) extends RequestReceiver μ where
  /-- What it does with a request. -/
  handle : μ → Packet → Handshake × μ
  /-- The requests that it can perform. -/
  Serves : μ → Packet → Prop
  contents : μ → FlatMemory
  /-- The answers to accepted requests that it did not give yet. -/
  owed : μ → List Packet
  result_receive {m : μ} {p : Packet} (h : Serves m p) : (receive m p).result = .ok (handle m p)
  handle_cases {m : μ} {p : Packet} (h : Serves m p) :
    ((handle m p).1 = .accepted ∧ contents (handle m p).2 = (contents m).perform p ∧
      owed (handle m p).2 = owed m ++ (contents m).answers [p]) ∨
    ((handle m p).1 = .refused p ∧ contents (handle m p).2 = contents m ∧
      owed (handle m p).2 = owed m)
  serves_handle {m : μ} {p q : Packet} (h : Serves m p) : Serves m q → Serves (handle m p).2 q

namespace CpuSidePort

/-- A port that holds an answer sends no other. -/
theorem parked_of_send {ρ : Type} [ResponseReceiver ρ] {port sent : CpuSidePort ρ} {p : Packet}
    (h : (port.send p).result = .ok sent) : port.parked = none := by
  simp only [send, Sim.result_bind] at h
  obtain ⟨_, hfree, -⟩ := Sim.bind_eq_ok.mp h
  exact Option.isNone_iff_eq_none.mp (Sim.of_require hfree)

variable {ρ : Type} [LawfulRequestor ρ] {c : CpuSidePort ρ} {p : Packet}

/-- The port after an answer was offered to its requestor. -/
def delivered (c : CpuSidePort ρ) (p : Packet) : CpuSidePort ρ :=
  match LawfulRequestor.respond c.peer p with
  | (.accepted, peer) => { c with peer }
  | (.refused p, peer) => { c with peer, parked := some p }

/-- The port after it gave the signal that it owes, if it may. -/
def notified (c : CpuSidePort ρ) : CpuSidePort ρ :=
  if c.needsRetry && c.parked.isNone then
    { c with needsRetry := false, peer := ResponseReceiver.retry c.peer }
  else c

/-- The port after the answer that it holds was offered again. -/
def retried (c : CpuSidePort ρ) (p : Packet) : CpuSidePort ρ :=
  ({ c with parked := none }.delivered p).notified

/-- The answers that the port was given: those that its requestor took and the
one that it holds. -/
def sent (c : CpuSidePort ρ) : List Packet :=
  LawfulRequestor.taken c.peer ++ c.parked.toList

theorem result_send (h : c.parked = none) (p : Packet) : (c.send p).result = .ok (c.delivered p) := by
  rcases hr : LawfulRequestor.respond c.peer p with ⟨hs, peer⟩
  have hres := LawfulRequestor.result_receive c.peer p
  rw [hr] at hres
  cases hs <;> simp [send, h, hres, delivered, hr]

theorem result_trySendRetry (c : CpuSidePort ρ) : c.trySendRetry.result = .ok c.notified := by
  unfold trySendRetry notified
  split <;> simp

theorem result_retryResponse (h : c.parked = some p) : c.retryResponse.result = .ok (c.retried p) := by
  have hs : (({ c with parked := none } : CpuSidePort ρ).send p).result = _ := result_send rfl p
  simp [retryResponse, h, hs, result_trySendRetry, retried]

theorem sent_delivered (h : c.parked = none) (p : Packet) : (c.delivered p).sent = c.sent ++ [p] := by
  rcases hr : LawfulRequestor.respond c.peer p with ⟨hs, peer⟩
  have hc := LawfulRequestor.respond_cases c.peer p
  rw [hr] at hc
  rcases hc with ⟨rfl, ht⟩ | ⟨rfl, ht⟩ <;> simp_all [delivered, sent]

@[simp] theorem sent_notified (c : CpuSidePort ρ) : c.notified.sent = c.sent := by
  unfold notified
  split
  · simp [sent, LawfulRequestor.taken_retry]
  · rfl

theorem sent_retried (h : c.parked = some p) : (c.retried p).sent = c.sent := by
  rw [retried, sent_notified, sent_delivered rfl]
  simp [sent, h]

end CpuSidePort

namespace MemSidePort

variable {μ : Type} [LawfulMemory μ] {m : MemSidePort μ} {p : Packet}

/-- The port without the request that it holds. -/
def freed (m : MemSidePort μ) : MemSidePort μ :=
  { m with parked := none }

/-- The port after a request was offered to its memory. -/
def forwarded (m : MemSidePort μ) (p : Packet) : MemSidePort μ :=
  match LawfulMemory.handle m.peer p with
  | (.accepted, peer) => { m with peer }
  | (.refused p, peer) => { m with peer, parked := some p }

theorem result_send (h : m.parked = none) (hp : LawfulMemory.Serves m.peer p) :
    (m.send p).result = .ok (m.forwarded p) := by
  rcases hr : LawfulMemory.handle m.peer p with ⟨hs, peer⟩
  have hres := LawfulMemory.result_receive hp
  rw [hr] at hres
  cases hs <;> simp [send, h, hres, forwarded, hr]

/-- A request that was sent without a fault was offered while none was held. -/
theorem forwarded_of_send {n : MemSidePort μ}
    (hreceive : ∀ x, (RequestReceiver.receive m.peer p).result = .ok x → x = LawfulMemory.handle m.peer p)
    (h : (m.send p).result = .ok n) : m.parked = none ∧ n = m.forwarded p := by
  simp only [send, Sim.result_bind, Sim.result_debug, Sim.ok_bind] at h
  obtain ⟨_, hfree, h⟩ := Sim.bind_eq_ok.mp h
  obtain ⟨⟨handshake, peer⟩, hoffer, h⟩ := Sim.bind_eq_ok.mp h
  refine ⟨Option.isNone_iff_eq_none.mp (Sim.of_require hfree), ?_⟩
  simp only [forwarded, ← hreceive _ hoffer]
  cases handshake with
  | accepted => exact (Except.ok.inj h).symm
  | refused q =>
    simp only [Sim.result_bind, Sim.result_debug, Sim.ok_bind] at h
    exact (Except.ok.inj h).symm

/-- A request that was sent again without a fault was held, and is offered anew. -/
theorem forwarded_of_retryRequest {n : MemSidePort μ}
    (hreceive : ∀ p x, (RequestReceiver.receive m.peer p).result = .ok x → x = LawfulMemory.handle m.peer p)
    (h : m.retryRequest.result = .ok n) : ∃ p, m.parked = some p ∧ n = m.freed.forwarded p := by
  unfold retryRequest at h
  cases hp : m.parked with
  | none =>
    rw [hp] at h
    cases h
  | some p =>
    simp only [hp, Sim.result_bind, Sim.result_debug, Sim.ok_bind] at h
    obtain ⟨-, rfl⟩ := forwarded_of_send (m := m.freed) (hreceive p) h
    exact ⟨p, rfl, rfl⟩

theorem result_retryRequest (h : m.parked = some p) (hp : LawfulMemory.Serves m.peer p) :
    m.retryRequest.result = .ok (m.freed.forwarded p) := by
  have hs : (m.freed.send p).result = _ := result_send rfl hp
  simp only [freed] at hs ⊢
  simp [retryRequest, h, hs]

/-- The memory either performs a request and owes the answer, or the port holds
the request. -/
theorem forwarded_cases (h : m.parked = none) (hp : LawfulMemory.Serves m.peer p) :
    ((m.forwarded p).parked = none ∧
      LawfulMemory.contents (m.forwarded p).peer = (LawfulMemory.contents m.peer).perform p ∧
      LawfulMemory.owed (m.forwarded p).peer =
        LawfulMemory.owed m.peer ++ (LawfulMemory.contents m.peer).answers [p]) ∨
    ((m.forwarded p).parked = some p ∧
      LawfulMemory.contents (m.forwarded p).peer = LawfulMemory.contents m.peer ∧
      LawfulMemory.owed (m.forwarded p).peer = LawfulMemory.owed m.peer) := by
  rcases hr : LawfulMemory.handle m.peer p with ⟨hs, peer⟩
  have hc := LawfulMemory.handle_cases hp
  rw [hr] at hc
  rcases hc with ⟨rfl, hc⟩ | ⟨rfl, hc⟩
  · left
    simp only [forwarded, hr]
    exact ⟨h, hc⟩
  · right
    simp only [forwarded, hr]
    exact ⟨trivial, hc⟩

theorem serves_forwarded {q : Packet} (hp : LawfulMemory.Serves m.peer p)
    (h : LawfulMemory.Serves m.peer q) : LawfulMemory.Serves (m.forwarded p).peer q := by
  have hs := LawfulMemory.serves_handle hp h
  unfold forwarded
  split <;> simp_all

end MemSidePort

end CacheSim
