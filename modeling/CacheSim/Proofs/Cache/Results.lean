import CacheSim.Proofs.Cache.Steps

/-!
# What a call has done

What is known of a cache once a call has answered, whoever its peers are.  A
request was refused or accepted as `Refuses` says; an access was counted as a
hit or as a miss (`fire_eq_ok`), and a block that came with the time that it
took (`fill_eq_ok`); all answers went through `reply`.
-/

namespace CacheSim.Cache

variable {ρ μ : Type} {c d : Cache ρ μ} {id : Nat} {p : Packet} {now : Tick}

theorem getElem?_of_cpuPort {port : CpuSidePort ρ} (h : c.cpuPort id = .ok port) :
    c.cpuPorts[id]? = some port := by
  unfold cpuPort at h
  split at h
  · rename_i hport
    rw [hport, Except.ok.inj h]
  · cases h

/-! ## Requests -/

/-- A request is refused on a port that holds an answer or owes a signal, and
while the cache is busy. -/
def Refuses (c : Cache ρ μ) (port : CpuSidePort ρ) : Prop :=
  port.parked.isSome ∨ port.needsRetry ∨ c.blocked

theorem not_refuses_iff {port : CpuSidePort ρ} : ¬c.Refuses port ↔ port.canAccept ∧ c.blocked = false := by
  simp [Refuses, CpuSidePort.canAccept, and_assoc]

theorem offer_of_refuses {port : CpuSidePort ρ} (hport : c.cpuPorts[id]? = some port)
    (h : c.Refuses port) (queue : EventQueue AccessEvent) (p : Packet) :
    (c.offer queue id p).result = .ok (.refused p, c.setCpuPort id { port with needsRetry := true }, queue) := by
  refine offer_refused hport ?_ p
  by_cases hb : c.blocked
  · exact .inr hb
  · refine .inl (Bool.eq_false_iff.mpr fun hc => ?_)
    exact not_refuses_iff.mpr ⟨hc, Bool.eq_false_iff.mpr hb⟩ h

/-- A request that is not refused was accepted and scheduled, unless it faulted. -/
theorem offer_of_not_refuses {port : CpuSidePort ρ} (hport : c.cpuPorts[id]? = some port)
    (h : ¬c.Refuses port) {queue queue' : EventQueue AccessEvent} {handshake : Handshake}
    (ho : (c.offer queue id p).result = .ok (handshake, d, queue')) :
    ∃ tick, handshake = .accepted ∧ queue.edge c.geometry.latency = .ok tick ∧
      d = { c with blocked := true, waitingPort := some id, phase := .waitAccess } ∧
      queue' = { queue with pending := EventQueue.place tick ⟨p⟩ queue.pending } := by
  obtain ⟨hc, hb⟩ := not_refuses_iff.mp h
  by_cases hp : p.command.needsResponse
  · rw [result_offer hport hc hb hp] at ho
    obtain ⟨tick, hedge, ho⟩ := Sim.bind_eq_ok.mp ho
    obtain ⟨q, hschedule, ho⟩ := Sim.bind_eq_ok.mp ho
    unfold EventQueue.schedule at hschedule
    split at hschedule
    · obtain rfl := Except.ok.inj hschedule
      cases ho
      exact ⟨tick, rfl, hedge, rfl, rfl⟩
    · cases hschedule
  · simp [offer, cpuPort_eq_ok hport, hc, hb, hp] at ho

/-! ## Answers -/

/-- An answer was sent on the port that waited for it, and the cache takes requests again. -/
theorem reply_eq_send [ResponseReceiver ρ] (h : (c.reply p).result = .ok d) :
    c.blocked ∧ ∃ id port sent cpuPorts, c.waitingPort = some id ∧ c.cpuPorts[id]? = some port ∧
      (port.send p).result = .ok sent ∧
      ((c.cpuPorts.set id sent).mapM CpuSidePort.trySendRetry).result = .ok cpuPorts ∧
      d = { c with waitingPort := none, blocked := false, phase := .idle, cpuPorts } := by
  simp only [reply, Sim.result_bind] at h
  obtain ⟨_, hb, h⟩ := Sim.bind_eq_ok.mp h
  split at h
  · cases h
  · rename_i id hw
    simp only [Sim.result_bind, Sim.result_debug, Sim.ok_bind] at h
    split at h
    · cases h
    · rename_i port hport
      simp only [Sim.result_bind] at h
      obtain ⟨sent, hsend, h⟩ := Sim.bind_eq_ok.mp h
      obtain ⟨cpuPorts, hports, h⟩ := Sim.bind_eq_ok.mp h
      exact ⟨Sim.of_require hb, id, port, sent, cpuPorts, hw, hport, hsend, hports, (Except.ok.inj h).symm⟩

theorem retryResponse_eq_ok [ResponseReceiver ρ] (h : (c.retryResponse id).result = .ok d) :
    ∃ port port', c.cpuPorts[id]? = some port ∧ port.retryResponse.result = .ok port' ∧ d = c.setCpuPort id port' := by
  simp only [retryResponse, Sim.result_bind, Sim.result_liftM] at h
  obtain ⟨port, hport, h⟩ := Sim.bind_eq_ok.mp h
  obtain ⟨port', hretry, h⟩ := Sim.bind_eq_ok.mp h
  exact ⟨port, port', getElem?_of_cpuPort hport, hretry, (Except.ok.inj h).symm⟩

/-! ## Accesses and blocks -/

section Memory

variable [RequestReceiver μ]

/-- A fetch is sent or kept back, and nothing else happens. -/
theorem sendFetch_eq_ok (h : (c.sendFetch p).result = .ok d) :
    d.cpuPorts = c.cpuPorts ∧ d.toControl = c.toControl ∧ d.stats = c.stats := by
  unfold sendFetch at h
  split at h
  · cases h
    exact ⟨rfl, rfl, rfl⟩
  · simp only [Sim.result_bind] at h
    obtain ⟨m, -, h⟩ := Sim.bind_eq_ok.mp h
    cases h
    exact ⟨rfl, rfl, rfl⟩

/-- A miss waits for the memory, and keeps the request if it is for a part of a block. -/
theorem miss_eq_ok (h : (c.miss now p).result = .ok d) :
    d.cpuPorts = c.cpuPorts ∧ d.stats = c.stats ∧ ∃ original, (original = c.original ∨ original = some p) ∧
      d.toControl = { c.toControl with missTime := now, phase := .waitMem, original } := by
  simp only [miss] at h
  split at h
  · obtain ⟨hports, hcontrol, hstats⟩ := sendFetch_eq_ok h
    exact ⟨hports, hstats, _, .inl rfl, hcontrol⟩
  · simp only [Sim.result_bind, Sim.result_debug, Sim.ok_bind] at h
    obtain ⟨-, -, h⟩ := Sim.bind_eq_ok.mp h
    obtain ⟨-, -, h⟩ := Sim.bind_eq_ok.mp h
    obtain ⟨f, -, h⟩ := Sim.bind_eq_ok.mp h
    obtain ⟨hports, hcontrol, hstats⟩ := sendFetch_eq_ok h
    exact ⟨hports, hstats, _, .inr rfl, hcontrol⟩

theorem install_eq_ok (h : (c.install p).result = .ok d) :
    d.cpuPorts = c.cpuPorts ∧ d.toControl = c.toControl ∧ d.stats = c.stats := by
  simp only [install, Sim.result_bind, Sim.result_trace, Sim.ok_bind] at h
  obtain ⟨block, -, h⟩ := Sim.bind_eq_ok.mp h
  obtain ⟨-, -, h⟩ := Sim.bind_eq_ok.mp h
  obtain ⟨-, -, h⟩ := Sim.bind_eq_ok.mp h
  obtain ⟨-, -, h⟩ := Sim.bind_eq_ok.mp h
  obtain ⟨-, -, h⟩ := Sim.bind_eq_ok.mp h
  obtain ⟨data, -, h⟩ := Sim.bind_eq_ok.mp h
  obtain ⟨⟨victim, store⟩, -, h⟩ := Sim.bind_eq_ok.mp h
  obtain ⟨port, -, h⟩ := Sim.bind_eq_ok.mp h
  obtain ⟨-, -, h⟩ := Sim.bind_eq_ok.mp h
  cases h
  exact ⟨rfl, rfl, rfl⟩

theorem retryRequest_eq_ok (h : c.retryRequest.result = .ok d) :
    d.cpuPorts = c.cpuPorts ∧ d.toControl = c.toControl := by
  simp only [retryRequest, Sim.result_bind] at h
  obtain ⟨m, -, h⟩ := Sim.bind_eq_ok.mp h
  split at h
  · simp only [Sim.result_bind, Sim.result_debug, Sim.ok_bind] at h
    obtain ⟨m, -, h⟩ := Sim.bind_eq_ok.mp h
    cases h
    exact ⟨rfl, rfl⟩
  · cases h
    exact ⟨rfl, rfl⟩

theorem functional_eq_ok {answer : Packet} (h : (c.functional id p).result = .ok (answer, d)) :
    d.cpuPorts = c.cpuPorts ∧ d.toControl = c.toControl := by
  simp only [functional, Sim.result_bind] at h
  obtain ⟨port, -, h⟩ := Sim.bind_eq_ok.mp h
  obtain ⟨_ | ⟨p, store⟩, -, h⟩ := Sim.bind_eq_ok.mp h
  · simp only [Sim.result_bind] at h
    obtain ⟨⟨p, m⟩, -, h⟩ := Sim.bind_eq_ok.mp h
    cases h
    exact ⟨rfl, rfl⟩
  · simp only [Sim.result_bind] at h
    obtain ⟨answer, -, h⟩ := Sim.bind_eq_ok.mp h
    cases h
    exact ⟨rfl, rfl⟩

variable [ResponseReceiver ρ]

/-- An access was counted as a hit and answered, or counted as a miss. -/
theorem fire_eq_ok {e : AccessEvent} (h : (c.fire now e).result = .ok d) :
    c.phase = .waitAccess ∧
      ((∃ (b : Cache ρ μ) (answer : Packet), (b.reply answer).result = .ok d ∧ b.cpuPorts = c.cpuPorts ∧
          b.toControl = c.toControl ∧ b.stats = { c.stats with hits := c.stats.hits + 1 }) ∨
        d.cpuPorts = c.cpuPorts ∧ d.stats = { c.stats with misses := c.stats.misses + 1 } ∧
          ∃ original, (original = c.original ∨ original = some e.packet) ∧
            d.toControl = { c.toControl with missTime := now, phase := .waitMem, original }) := by
  simp only [fire, Sim.result_bind, Sim.result_liftM] at h
  obtain ⟨_, hphase, h⟩ := Sim.bind_eq_ok.mp h
  obtain ⟨block, -, h⟩ := Sim.bind_eq_ok.mp h
  obtain ⟨_ | ⟨p, store⟩, -, h⟩ := Sim.bind_eq_ok.mp h
  · simp only [Sim.result_bind, Sim.result_debug, Sim.ok_bind] at h
    exact ⟨Sim.of_require hphase, .inr (miss_eq_ok h)⟩
  · simp only [Sim.result_bind, Sim.result_debug, Sim.ok_bind] at h
    obtain ⟨answer, -, h⟩ := Sim.bind_eq_ok.mp h
    exact ⟨Sim.of_require hphase, .inl ⟨_, answer, h, rfl, rfl, rfl⟩⟩

/-- A block came: the time since its miss was counted, and the request answered. -/
theorem fill_eq_ok (h : (c.fill now p).result = .ok d) :
    c.phase = .waitMem ∧ c.missTime ≤ now ∧
      ∃ missLatency, c.stats.missLatency.sample (now - c.missTime) = .ok missLatency ∧
      ∃ (b : Cache ρ μ) (answer : Packet), (b.reply answer).result = .ok d ∧ b.cpuPorts = c.cpuPorts ∧
        b.toControl = { c.toControl with original := none } ∧ b.stats = { c.stats with missLatency } := by
  simp only [fill, Sim.result_bind, Sim.result_liftM, Sim.result_debug, Sim.ok_bind] at h
  obtain ⟨-, -, h⟩ := Sim.bind_eq_ok.mp h
  obtain ⟨-, -, h⟩ := Sim.bind_eq_ok.mp h
  obtain ⟨_, hphase, h⟩ := Sim.bind_eq_ok.mp h
  obtain ⟨b, hb, h⟩ := Sim.bind_eq_ok.mp h
  obtain ⟨hports, hcontrol, hstats⟩ := install_eq_ok hb
  obtain ⟨elapsed, helapsed, h⟩ := Sim.bind_eq_ok.mp h
  rw [hcontrol] at helapsed
  obtain ⟨hle, rfl⟩ := Word.sub_eq_ok.mp helapsed
  obtain ⟨missLatency, hsample, h⟩ := Sim.bind_eq_ok.mp h
  rw [hstats] at hsample
  refine ⟨Sim.of_require hphase, hle, missLatency, hsample, ?_⟩
  cases ho : b.original with
  | none =>
    simp only [ho] at h
    refine ⟨_, p, h, hports, ?_, by rw [hstats]⟩
    rw [← hcontrol, ← ho]
  | some request =>
    simp only [ho, Sim.result_bind, Sim.result_debug, Sim.ok_bind] at h
    obtain ⟨_ | ⟨served, store⟩, -, h⟩ := Sim.bind_eq_ok.mp h
    · cases h
    · simp only [Sim.result_bind] at h
      obtain ⟨answer, -, h⟩ := Sim.bind_eq_ok.mp h
      exact ⟨_, answer, h, hports, by rw [← hcontrol], by rw [hstats]⟩

end Memory

/-! ## Requestors that conform -/

variable [LawfulRequestor ρ]

/-- An answer was sent on the port that waited for it, which held none. -/
theorem reply_eq_ok (h : (c.reply p).result = .ok d) :
    c.blocked ∧ ∃ id port, c.waitingPort = some id ∧ c.cpuPorts[id]? = some port ∧ port.parked = none ∧
      d = { c.answered id p with original := c.original } := by
  obtain ⟨hb, id, port, sent, cpuPorts, hw, hport, hsend, -, -⟩ := reply_eq_send h
  have hfree := CpuSidePort.parked_of_send hsend
  rw [result_reply hb hw hport hfree] at h
  exact ⟨hb, id, port, hw, hport, hfree, (Except.ok.inj h).symm⟩

end CacheSim.Cache
