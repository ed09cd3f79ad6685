import CacheSim.Simulation.Cycle
import CacheSim.Proofs.Simulation.Requestors

/-!
# The phases of a cycle

What each part of a cycle does, when it has something to do and when it has
not: the requestors ask for responses (`result_retryResponses`), the memory gives
a response (`result_deliverAll_of_one`), and the scheduled access is performed
(`result_fireDue_of_due`).
-/

namespace CacheSim.Simulation

variable {s : Simulation} {id : Nat} {port : CpuSidePort Mailbox} {p : Packet}

/-! ## Responses that were refused -/

/-- The system with other ports towards the requestors. -/
def withPorts (s : Simulation) (ports : List (CpuSidePort Mailbox)) : Simulation :=
  { s with cache := { s.cache with cpuPorts := ports } }

theorem mailbox_eq_ok (h : s.cache.cpuPorts[id]? = some port) : s.mailbox id = .ok port.peer := by
  simp only [mailbox, Cache.cpuPort_eq_ok h]
  rfl

theorem withMailbox_eq (h : s.cache.cpuPorts[id]? = some port) (m : Mailbox) :
    s.withMailbox id m = s.withPorts (s.cache.cpuPorts.set id { port with peer := m }) := by
  simp only [withMailbox, h]
  rfl

theorem result_retryResponse (h : s.cache.cpuPorts[id]? = some port) (ha : port.Asks) :
    (s.retryResponse id).result = .ok (s.withPorts (s.cache.cpuPorts.set id port.asked)) := by
  have hlt := (List.getElem?_eq_some_iff.mp h).1
  cases hp : port.parked with
  | none =>
    have hself : s.cache.cpuPorts.set id port = s.cache.cpuPorts := by
      rw [← (List.getElem?_eq_some_iff.mp h).2, List.set_getElem_self]
    have hquiet : port.peer.answerRefused = false := by rw [ha, hp]; rfl
    simp [retryResponse, mailbox_eq_ok h, Mailbox.takeAnswerRefused, hquiet, CpuSidePort.asked_of_free hp, hself]
    rfl
  | some p =>
    have hwant : port.peer.answerRefused = true := by rw [ha, hp]; rfl
    have hport : (s.cache.cpuPorts.set id { port with peer := { port.peer with answerRefused := false } })[id]? =
        some { port with peer := { port.peer with answerRefused := false } } := List.getElem?_set_self hlt
    have hres := Cache.retryResponse_spec
      (c := (s.withPorts (s.cache.cpuPorts.set id
        { port with peer := { port.peer with answerRefused := false } })).cache) hport hp
    simp [retryResponse, mailbox_eq_ok h, Mailbox.takeAnswerRefused, hwant, withMailbox_eq h, hres,
      ha.asked_of_parked hp]
    simp [withPorts, Cache.setCpuPort]

/-- Requestors ask one after another. -/
theorem result_foldlM_retryResponse {rs : List ScriptedRequestor} {before after : List (CpuSidePort Mailbox)}
    (hports : s.cache.cpuPorts = before ++ after)
    (hids : rs.map (·.id) = List.range' before.length after.length) (ha : ∀ port ∈ after, port.Asks) :
    (rs.foldlM (fun (s : Simulation) r => s.retryResponse r.id) s).result =
      .ok (s.withPorts (before ++ after.map CpuSidePort.asked)) := by
  induction after generalizing rs s before with
  | nil =>
    obtain rfl := List.map_eq_nil_iff.mp hids
    simp [withPorts, ← hports]
  | cons port after ih =>
    cases rs with
    | nil => simp at hids
    | cons r rs =>
      rw [List.map_cons, List.length_cons, List.range'_succ] at hids
      obtain ⟨hid, hrest⟩ := List.cons.inj hids
      have hport : s.cache.cpuPorts[r.id]? = some port := by
        rw [hports, hid, List.getElem?_append_right (Nat.le_refl _), Nat.sub_self]
        rfl
      have hset : s.cache.cpuPorts.set r.id port.asked = before ++ [port.asked] ++ after := by
        rw [hports, hid, List.set_append_right _ _ (Nat.le_refl _), Nat.sub_self, List.append_assoc]
        rfl
      have hnext := ih (s := s.withPorts (before ++ [port.asked] ++ after)) rfl
        (by simpa using hrest) fun port hp => ha port (List.mem_cons_of_mem _ hp)
      rw [List.foldlM_cons, Sim.result_bind, result_retryResponse hport (ha port (List.mem_cons_self ..)), hset,
        Sim.ok_bind, hnext, List.append_assoc before [port.asked] (after.map _)]
      rfl

/-- All requestors ask for the responses that they refused. -/
theorem result_retryResponses (hids : s.requestors.map (·.id) = List.range' 0 s.cache.cpuPorts.length)
    (ha : ∀ port ∈ s.cache.cpuPorts, port.Asks) :
    s.retryResponses.result = .ok (s.withPorts (s.cache.cpuPorts.map CpuSidePort.asked)) :=
  result_foldlM_retryResponse (List.nil_append _).symm hids ha

/-! ## Responses, retries and events -/

theorem result_deliverAll_of_none (h : s.memory.ready = []) : s.deliverAll.result = .ok s := by
  simp [deliverAll, h, deliver]

theorem result_deliverAll_of_one {d : Cache Mailbox TimedMemory} (h : s.memory.ready = [p])
    (hres : ((s.withMemory { s.memory with ready := [] }).cache.fill s.queue.now p).result = .ok d) :
    s.deliverAll.result = .ok { s with cache := d } := by
  have hone : s.memory.ready.length = 0 + 1 := by rw [h]; rfl
  have htake : s.memory.takeResponse = some (p, { s.memory with ready := [] }) := by
    simp only [TimedMemory.takeResponse, h]
  have hres' : ((s.withMemory { s.memory with ready := [] }).cache.fill
      (s.withMemory { s.memory with ready := [] }).queue.now p).result = .ok d := hres
  rw [deliverAll, hone]
  simp [deliver, htake, hres']
  exact ⟨rfl, rfl, rfl, rfl⟩

theorem result_retryRequest_of_none (h : s.memory.sendRetry = false) : s.retryRequest.result = .ok s := by
  simp [retryRequest, TimedMemory.takeRetry, h]

theorem result_fireDue_of_quiet {now : Nat} (h : ∀ tick ∈ s.queue.next?, now < tick) :
    (s.fireDue now).result = .ok s := by
  have hnone : s.queue.popDue? now = none := by
    unfold EventQueue.popDue?
    split
    · rename_i tick htick
      exact if_neg (Nat.not_le.mpr (h tick htick))
    · rfl
  unfold fireDue
  cases s.queue.size with
  | zero => rfl
  | succ n => simp [fire, hnone]

theorem result_fireDue_of_due {now tick : Nat} {event : AccessEvent} {d : Cache Mailbox TimedMemory}
    (hpending : s.queue.pending = [(tick, event)]) (hle : tick ≤ now)
    (hres : (s.cache.fire tick event).result = .ok d) :
    (s.fireDue now).result =
      .ok { s with cache := d, queue := { s.queue with now := tick, pending := [] } } := by
  have hone : s.queue.size = 0 + 1 := by rw [EventQueue.size, hpending]; rfl
  have hpop : s.queue.popDue? now =
      some (tick, event, { s.queue with now := tick, pending := [] }) := by
    have hnext : s.queue.next? = some tick := by rw [EventQueue.next?, hpending]; rfl
    simp only [EventQueue.popDue?, hnext, if_pos hle, EventQueue.pop?, hpending]
  rw [fireDue, hone]
  simp [fire, hpop, hres]

end CacheSim.Simulation
