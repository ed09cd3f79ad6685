import CacheSim.Proofs.Port
import CacheSim.Requestor.Mailbox
import Mathlib.Algebra.GroupWithZero.Nat

/-!
# The mailbox as a conforming peer

A mailbox takes the responses that it does not refuse, and a port in front of it
holds a response exactly as long as the mailbox has to ask for it
(`CpuSidePort.Asks`).  Every response that a port holds was refused once more,
which uses up one of the refusals that are left (`burden_delivered_le`,
`burden_asked_le`).
-/

namespace CacheSim

namespace Mailbox

/-- Takes a response or refuses it as told. -/
def respond (m : Mailbox) (p : Packet) : Handshake × Mailbox :=
  if 0 < m.refuse then
    (.refused p, { m with refuse := m.refuse - 1, refused := m.refused + 1, answerRefused := true })
  else (.accepted, { m with inbox := m.inbox.enqueue p })

instance : LawfulRequestor Mailbox where
  respond := respond
  taken m := m.inbox.items
  result_receive m p := by
    show (receive m p).result = _
    unfold receive respond
    split <;> simp
  respond_cases m p := by
    unfold respond
    split
    · exact .inr ⟨rfl, rfl⟩
    · exact .inl ⟨rfl, rfl⟩
  taken_retry _ := rfl

end Mailbox

namespace CpuSidePort

variable {port : CpuSidePort Mailbox} {p : Packet}

/-- A port that has sent nothing has no mail for its requestor and holds no response. -/
theorem sent_eq_nil : port.sent = [] ↔ port.peer.inbox.items = [] ∧ port.parked = none := by
  show port.peer.inbox.items ++ port.parked.toList = [] ↔ _
  simp

theorem delivered_of_refuse (h : 0 < port.peer.refuse) (p : Packet) :
    port.delivered p = { port with
      parked := some p
      peer := { port.peer with
        refuse := port.peer.refuse - 1, refused := port.peer.refused + 1, answerRefused := true } } := by
  have hr : LawfulRequestor.respond port.peer p = Mailbox.respond port.peer p := rfl
  simp only [delivered, hr, Mailbox.respond, if_pos h]

theorem delivered_of_take (h : port.peer.refuse = 0) (p : Packet) :
    port.delivered p = { port with peer := { port.peer with inbox := port.peer.inbox.enqueue p } } := by
  have hr : LawfulRequestor.respond port.peer p = Mailbox.respond port.peer p := rfl
  simp only [delivered, hr, Mailbox.respond, if_neg (Nat.not_lt.mpr (Nat.le_of_eq h))]

@[simp] theorem needsRetry_delivered (port : CpuSidePort Mailbox) (p : Packet) :
    (port.delivered p).needsRetry = port.needsRetry := by
  by_cases h : 0 < port.peer.refuse
  · rw [delivered_of_refuse h]
  · rw [delivered_of_take (by omega)]

@[simp] theorem signalled_delivered (port : CpuSidePort Mailbox) (p : Packet) :
    (port.delivered p).peer.signalled = port.peer.signalled := by
  by_cases h : 0 < port.peer.refuse
  · rw [delivered_of_refuse h]
  · rw [delivered_of_take (by omega)]

theorem notified_of_needsRetry (h : port.needsRetry) (hp : port.parked = none) :
    port.notified = { port with needsRetry := false, peer := port.peer.signal } := by
  rw [notified, if_pos (by simp [h, hp])]
  rfl

theorem notified_of_quiet (h : port.needsRetry = false) : port.notified = port := by
  rw [notified, if_neg (by simp [h])]

theorem needsRetry_of_notified (h : port.notified.needsRetry) : port.needsRetry := by
  unfold notified at h
  split at h
  · cases h
  · exact h

/-! ## Asking for a refused response -/

/-- The port after its requestor asked for the response that it refused, if it
did refuse one. -/
def asked (port : CpuSidePort Mailbox) : CpuSidePort Mailbox :=
  match port.peer.answerRefused, port.parked with
  | true, some p => { port with peer := { port.peer with answerRefused := false } }.retried p
  | _, _ => port

/-- A response is held exactly if the mailbox has to ask for it. -/
def Asks (port : CpuSidePort Mailbox) : Prop :=
  port.peer.answerRefused = port.parked.isSome

theorem asked_of_free (h : port.parked = none) : port.asked = port := by
  unfold asked
  cases port.peer.answerRefused <;> simp [h]

theorem Asks.asked_of_parked (ha : port.Asks) (h : port.parked = some p) :
    port.asked = { port with peer := { port.peer with answerRefused := false } }.retried p := by
  have hr : port.peer.answerRefused = true := by rw [ha, h]; rfl
  simp only [asked, h, hr]

theorem Asks.delivered (ha : port.peer.answerRefused = false) (h : port.parked = none) (p : Packet) :
    (port.delivered p).Asks := by
  by_cases hr : 0 < port.peer.refuse
  · rw [delivered_of_refuse hr]
    rfl
  · rw [delivered_of_take (by omega)]
    simp [Asks, ha, h]

theorem Asks.notified (ha : port.Asks) : port.notified.Asks := by
  unfold CpuSidePort.notified
  split
  · exact ha
  · exact ha

theorem Asks.asked (ha : port.Asks) : port.asked.Asks := by
  cases h : port.parked with
  | none => rwa [asked_of_free h]
  | some p =>
    rw [ha.asked_of_parked h]
    exact (Asks.delivered rfl rfl p).notified

theorem Asks.sent_asked (ha : port.Asks) : port.asked.sent = port.sent := by
  cases h : port.parked with
  | none => rw [asked_of_free h]
  | some p =>
    rw [ha.asked_of_parked h, sent_retried (by exact h)]
    rfl

theorem needsRetry_of_asked (h : port.asked.needsRetry) : port.needsRetry := by
  unfold asked at h
  split at h
  · have hretry := needsRetry_of_notified h
    rwa [needsRetry_delivered] at hretry
  · exact h

/-! ## Refusals -/

/-- The refusals that are left, and one more for a response that is held. -/
def burden (port : CpuSidePort Mailbox) : Nat :=
  port.peer.refuse + port.parked.toList.length

@[simp] theorem burden_notified (port : CpuSidePort Mailbox) : port.notified.burden = port.burden := by
  unfold notified
  split <;> rfl

theorem burden_delivered_le (port : CpuSidePort Mailbox) (p : Packet) :
    (port.delivered p).burden ≤ port.burden := by
  by_cases h : 0 < port.peer.refuse
  · rw [delivered_of_refuse h]
    simp only [burden, Option.toList_some, List.length_singleton]
    omega
  · rw [delivered_of_take (by omega)]
    exact Nat.le_refl _

/-- A response that is held after it was asked for has used up a refusal. -/
theorem Asks.burden_asked_le (ha : port.Asks) : port.asked.burden ≤ port.peer.refuse := by
  cases h : port.parked with
  | none =>
    rw [asked_of_free h]
    simp [burden, h]
  | some p =>
    rw [ha.asked_of_parked h, retried, burden_notified]
    exact burden_delivered_le _ p

/-- The refusals that are left at all ports. -/
def refusals (ports : List (CpuSidePort Mailbox)) : Nat :=
  (ports.map (·.peer.refuse)).sum

/-- The burdens of all ports. -/
def burdens (ports : List (CpuSidePort Mailbox)) : Nat :=
  (ports.map burden).sum

/-- A sum over ports is bounded by one over as many others, port by port. -/
theorem sum_map_le {f g : CpuSidePort Mailbox → Nat} {ports others : List (CpuSidePort Mailbox)}
    (hlen : ports.length = others.length)
    (h : ∀ (i : Nat) port other, ports[i]? = some port → others[i]? = some other → f port ≤ g other) :
    (ports.map f).sum ≤ (others.map g).sum := by
  induction ports generalizing others with
  | nil => exact Nat.zero_le _
  | cons port ports ih =>
    cases others with
    | nil => simp at hlen
    | cons other others =>
      have hrest := ih (by simpa using hlen) fun i port other hp ho => h (i + 1) port other hp ho
      have hhead := h 0 port other rfl rfl
      simp only [List.map_cons, List.sum_cons]
      omega

theorem refusals_le_burdens (ports : List (CpuSidePort Mailbox)) : refusals ports ≤ burdens ports :=
  sum_map_le rfl fun _ port other hp ho => by
    obtain rfl := Option.some.inj (hp.symm.trans ho)
    exact Nat.le_add_right ..

/-- A response that is held is a burden more than the refusals that are left. -/
theorem refusals_lt_burdens {ports : List (CpuSidePort Mailbox)} (h : port ∈ ports)
    (hp : port.parked ≠ none) : refusals ports < burdens ports := by
  induction ports with
  | nil => cases h
  | cons other ports ih =>
    have hrest := refusals_le_burdens ports
    simp only [refusals, burdens, burden, List.map_cons, List.sum_cons] at ih hrest ⊢
    rcases List.mem_cons.mp h with rfl | h
    · obtain ⟨p, hp⟩ := Option.ne_none_iff_exists'.mp hp
      simp only [hp, Option.toList_some, List.length_singleton]
      omega
    · have := ih h
      omega

theorem burdens_asked_le {ports : List (CpuSidePort Mailbox)} (h : ∀ port ∈ ports, port.Asks) :
    burdens (ports.map asked) ≤ refusals ports := by
  refine sum_map_le (by simp) fun i port' port hp' hp => ?_
  rw [List.getElem?_map, hp] at hp'
  obtain rfl := Option.some.inj hp'
  exact (h port (List.mem_of_getElem? hp)).burden_asked_le

end CpuSidePort

end CacheSim
