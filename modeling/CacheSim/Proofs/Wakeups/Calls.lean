import CacheSim.Cache.Retry
import CacheSim.Proofs.Cache.Results
import CacheSim.Proofs.Wakeups.Watched

/-!
# What a call does to the ports of a cache

`PeerCall` lists what the peers of a cache may ask of it.  No matter who they
are and when they call, a call that does not fault moves each of the ports by a
`PortStep` (`PeerCall.perform_moves`): requests are refused as `Cache.Refuses`
says, all answers go through `reply`, and the rest does not touch the ports.
-/

namespace CacheSim

variable {ρ μ : Type} [ResponseReceiver ρ]

namespace Cache

variable {c d : Cache (Watched ρ) μ} {id : Nat} {p : Packet}

/-- What a call does to each of the ports. -/
def Moves (c d : Cache (Watched ρ) μ) : Prop :=
  ∀ id : Nat, Option.Rel (PortStep c.blocked d.blocked) c.cpuPorts[id]? d.cpuPorts[id]?

/-- The cache after the requestor of a port was told a refusal. -/
def noteRefusal (c : Cache (Watched ρ) μ) (id : Nat) : Cache (Watched ρ) μ :=
  { c with cpuPorts := c.cpuPorts.modify id fun port => { port with peer := port.peer.noting .refused } }

omit [ResponseReceiver ρ] in
theorem noteRefusal_setCpuPort {port : CpuSidePort (Watched ρ)} (hport : c.cpuPorts[id]? = some port) :
    (c.setCpuPort id { port with needsRetry := true }).noteRefusal id = c.setCpuPort id port.refusing := by
  have hlt := (List.getElem?_eq_some_iff.mp hport).1
  simp only [noteRefusal, setCpuPort, List.modify_eq_set_getElem?, List.getElem?_set_self hlt,
    List.set_set, CpuSidePort.refusing]
  rfl

/-- Nothing passes on the ports. -/
theorem Moves.of_eq (hports : d.cpuPorts = c.cpuPorts) (hb : c.blocked → d.blocked) : c.Moves d := by
  intro id
  rw [hports]
  cases c.cpuPorts[id]? with
  | none => exact .none
  | some port => exact .some (.kept rfl rfl rfl hb)

/-- Something passes on one port. -/
theorem Moves.set {port port' : CpuSidePort (Watched ρ)} (hport : c.cpuPorts[id]? = some port)
    (h : PortStep c.blocked c.blocked port port') : c.Moves (c.setCpuPort id port') := by
  intro j
  show Option.Rel _ _ (c.cpuPorts.set id port')[j]?
  by_cases hj : id = j
  · subst hj
    rw [List.getElem?_set_self (List.getElem?_eq_some_iff.mp hport).1, hport]
    exact .some h
  · rw [List.getElem?_set_ne hj]
    exact Moves.of_eq rfl (fun h => h) j

/-! ## Answers -/

/-- An answer.  What the cache did to its store and its counts before is no
concern of the ports. -/
theorem reply_moves {b : Cache (Watched ρ) μ} (h : (b.reply p).result = .ok d)
    (hports : b.cpuPorts = c.cpuPorts) (hb : b.blocked = c.blocked) : c.Moves d := by
  obtain ⟨-, id, port, sent, cpuPorts, -, hport, hsend, hnotify, rfl⟩ := reply_eq_send h
  rw [Sim.result_mapM fun port _ => port.result_trySendRetry_eq_signal] at hnotify
  obtain rfl := Except.ok.inj hnotify
  intro j
  show Option.Rel _ _ ((b.cpuPorts.set id sent).map CpuSidePort.signal)[j]?
  rw [List.getElem?_map, ← hports, ← hb]
  by_cases hj : id = j
  · subst hj
    have hfree : ({ port with parked := none } : CpuSidePort (Watched ρ)) = port := by
      rw [← CpuSidePort.parked_of_send hsend]
    rw [List.getElem?_set_self (List.getElem?_eq_some_iff.mp hport).1, hport]
    exact .some (.answered (hfree ▸ hsend) rfl)
  · rw [List.getElem?_set_ne hj]
    cases b.cpuPorts[j]? with
    | none => exact .none
    | some port => exact .some (.notified rfl)

theorem retryResponse_moves (h : (c.retryResponse id).result = .ok d) : c.Moves d := by
  obtain ⟨port, port', hport, hretry, rfl⟩ := retryResponse_eq_ok h
  refine .set hport ?_
  unfold CpuSidePort.retryResponse at hretry
  split at hretry
  · cases hretry
  · simp only [Sim.result_bind, Sim.result_debug, Sim.ok_bind] at hretry
    obtain ⟨sent, hsend, hretry⟩ := Sim.bind_eq_ok.mp hretry
    rw [CpuSidePort.result_trySendRetry_eq_signal] at hretry
    exact .answered hsend (Except.ok.inj hretry).symm

theorem rangesChanged_moves : c.Moves c.rangesChanged := by
  intro j
  show Option.Rel _ _ (c.cpuPorts.map CpuSidePort.sendRangeChange)[j]?
  rw [List.getElem?_map]
  cases c.cpuPorts[j]? with
  | none => exact .none
  | some port => exact .some (.kept rfl rfl rfl fun h => h)

variable [RequestReceiver μ]

/-! ## Accesses and fetches -/

/-- An access is answered, or the cache goes on being busy. -/
theorem fire_moves {now : Tick} {e : AccessEvent} (h : (c.fire now e).result = .ok d) : c.Moves d := by
  obtain ⟨-, ⟨b, answer, hreply, hports, hcontrol, -⟩ | ⟨hports, -, original, -, hcontrol⟩⟩ := fire_eq_ok h
  · exact reply_moves hreply hports (by rw [hcontrol])
  · exact .of_eq hports fun hb => by rwa [hcontrol]

theorem fill_moves {now : Tick} (h : (c.fill now p).result = .ok d) : c.Moves d := by
  obtain ⟨-, -, missLatency, -, b, answer, hreply, hports, hcontrol, -⟩ := fill_eq_ok h
  exact reply_moves hreply hports (by rw [hcontrol])

theorem retryRequest_moves (h : c.retryRequest.result = .ok d) : c.Moves d := by
  obtain ⟨hports, hcontrol⟩ := retryRequest_eq_ok h
  exact .of_eq hports fun hb => by rwa [hcontrol]

theorem functional_moves {answer : Packet} (h : (c.functional id p).result = .ok (answer, d)) : c.Moves d := by
  obtain ⟨hports, hcontrol⟩ := functional_eq_ok h
  exact .of_eq hports fun hb => by rwa [hcontrol]

end Cache

/-- What the requestors, the memory and the owner of the events may ask of a
cache, each at any time. -/
inductive PeerCall where
  /-- A requestor offers a request on a port, and the events are those of `queue`. -/
  | offer (queue : EventQueue AccessEvent) (id : Nat) (p : Packet)
  /-- An access is due. -/
  | fire (now : Tick) (e : AccessEvent)
  /-- The memory sends a response. -/
  | fill (now : Tick) (p : Packet)
  /-- A requestor is ready for the answer that it refused. -/
  | retryResponse (id : Nat)
  /-- The memory is ready for the request that it refused. -/
  | retryRequest
  /-- A requestor accesses the memory at once. -/
  | functional (id : Nat) (p : Packet)
  /-- The memory changed its addresses. -/
  | rangesChanged

namespace PeerCall

variable [RequestReceiver μ] {c d : Cache (Watched ρ) μ}

/-- Makes a call, and notes a request that was refused. -/
def perform (c : Cache (Watched ρ) μ) : PeerCall → Sim (Cache (Watched ρ) μ)
  | offer queue id p => do
    match ← c.offer queue id p with
    | (.accepted, c, _) => return c
    | (.refused _, c, _) => return c.noteRefusal id
  | fire now e => c.fire now e
  | fill now p => c.fill now p
  | retryResponse id => c.retryResponse id
  | retryRequest => c.retryRequest
  | functional id p => do
    let (_, c) ← c.functional id p
    return c
  | rangesChanged => return c.rangesChanged

/-- What any call does to the ports. -/
theorem perform_moves {call : PeerCall} (h : (call.perform c).result = .ok d) : c.Moves d := by
  cases call with
  | offer queue id p =>
    simp only [perform, Sim.result_bind] at h
    obtain ⟨⟨handshake, b, queue'⟩, ho, h⟩ := Sim.bind_eq_ok.mp h
    cases hport : c.cpuPorts[id]? with
    | none => simp [Cache.offer, Cache.cpuPort, hport] at ho
    | some port =>
      by_cases hr : c.Refuses port
      · rw [Cache.offer_of_refuses hport hr] at ho
        cases ho
        obtain rfl := Except.ok.inj h
        rw [Cache.noteRefusal_setCpuPort hport]
        exact .set hport (.refused hr rfl Iff.rfl)
      · obtain ⟨tick, rfl, -, rfl, -⟩ := Cache.offer_of_not_refuses hport hr ho
        cases h
        exact .of_eq rfl fun _ => rfl
  | fire now e => exact Cache.fire_moves h
  | fill now p => exact Cache.fill_moves h
  | retryResponse id => exact Cache.retryResponse_moves h
  | retryRequest => exact Cache.retryRequest_moves h
  | functional id p =>
    simp only [perform, Sim.result_bind] at h
    obtain ⟨⟨answer, b⟩, hf, h⟩ := Sim.bind_eq_ok.mp h
    cases h
    exact Cache.functional_moves hf
  | rangesChanged =>
    cases h
    exact Cache.rangesChanged_moves

end PeerCall

end CacheSim
