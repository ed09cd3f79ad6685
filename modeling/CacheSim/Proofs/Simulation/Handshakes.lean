import CacheSim.Proofs.Simulation.Effects

/-!
# Handshakes between requestors and ports

A requestor and its port each keep their half of a handshake.  `Handshake` says
that the halves agree between any two cycles of a system: who waits for a signal
is owed one or was given one, refusals and signals balance, and who waits for a
response is served or refused it.  Most of this is told by the link of the
requestor to its port; that refusals and signals balance (`Balanced`) is kept by
whatever happens at the port, and by what the requestor does (`Turned.balanced`).
The memory takes one request at a time, so it never refuses one (`Unhindered`).
-/

namespace CacheSim

namespace CpuSidePort

variable {port : CpuSidePort Mailbox} {p : Packet}

/-- The signals that were given, and the one that is owed. -/
def signals (port : CpuSidePort Mailbox) : Nat :=
  port.peer.retries + port.needsRetry.toNat

@[simp] theorem signals_delivered (port : CpuSidePort Mailbox) (p : Packet) :
    (port.delivered p).signals = port.signals := by
  by_cases h : 0 < port.peer.refuse
  · rw [delivered_of_refuse h]
    rfl
  · rw [delivered_of_take (by omega)]
    rfl

@[simp] theorem signals_notified (port : CpuSidePort Mailbox) : port.notified.signals = port.signals := by
  unfold notified
  split
  · rename_i h
    have hn : port.needsRetry = true := (Bool.and_eq_true_iff.mp h).1
    simp [signals, hn, ResponseReceiver.retry, Mailbox.signal]
  · rfl

@[simp] theorem signals_asked (port : CpuSidePort Mailbox) : port.asked.signals = port.signals := by
  unfold asked
  split
  · rw [retried, signals_notified, signals_delivered]
    rfl
  · rfl

/-- Ports that were asked and then answered were given the same signals as before. -/
theorem signals_answeredPorts {ports : List (CpuSidePort Mailbox)} {id i : Nat} {port' : CpuSidePort Mailbox}
    (h : (Cache.answeredPorts (ports.map asked) id p)[i]? = some port') :
    ∃ port, ports[i]? = some port ∧ port'.signals = port.signals := by
  rw [Cache.getElem?_answeredPorts, List.getElem?_map, Option.map_map, Option.map_eq_some_iff] at h
  obtain ⟨port, hport, rfl⟩ := h
  refine ⟨port, hport, ?_⟩
  simp only [Function.comp_apply, signals_notified]
  split <;> simp

end CpuSidePort

open ScriptedRequestor (Linked)

/-- Every refusal of a requestor was made good by a signal, or is owed one; and
the requestor has read its mail. -/
structure Balanced (r : ScriptedRequestor) (port : CpuSidePort Mailbox) : Prop where
  refusals : r.refusals = port.signals
  mail : port.peer.inbox.items = []

/-- A requestor that makes an offer is not owed a signal. -/
theorem ScriptedRequestor.Linked.needsRetry_of_next? {script : List Access} {given : List (Acceptance × Bytes)}
    {own : Option Acceptance} {r : ScriptedRequestor} {port : CpuSidePort Mailbox} (h : Linked script given own r port)
    (hnext : r.next? port.peer ≠ none) : port.needsRetry = false := by
  rcases h.next?_cases with ⟨hnone, -⟩ | ⟨access, issued, r', m, -, -, -, -, -, -, hoffers⟩
  · exact absurd hnone hnext
  · exact hoffers.retry

namespace Simulation

variable {cycle : Nat} {r r' : ScriptedRequestor} {port port' : CpuSidePort Mailbox}
  {script : List Access} {given : List (Acceptance × Bytes)} {own : Option Acceptance}

/-- Whatever a requestor does in its turn, refusals and signals balance after it. -/
theorem Turned.balanced (h : Turned cycle r port r' port') (hl : Linked script given own r port) {now : Tick}
    (hclock : r.clock.ticksOf cycle = .ok now) (hnow : r.now ≤ now) (hpast : ∀ g ∈ given, g.1.tick < now)
    (hr : r.refusals = port.signals) : Balanced r' port' := by
  -- an offer is made only if no signal is owed, so its refusal is owed one more
  have hretry : ∀ {r₁ m₁}, (r.cycle cycle port.peer).result = .ok (r₁, m₁) → r₁.next? m₁ ≠ none →
      port.needsRetry = false := by
    intro r₁ m₁ hread hnext
    obtain ⟨r₂, hread', hl₂, -⟩ := hl.cycle hclock hnow hpast
    obtain ⟨rfl, rfl⟩ := Prod.mk.inj (Except.ok.inj (hread.symm.trans hread'))
    exact hl₂.needsRetry_of_next? hnext
  have hread : ∀ {r₁ m₁}, (r.cycle cycle port.peer).result = .ok (r₁, m₁) →
      r₁.refusals = r.refusals ∧ m₁ = port.peer.empty.2 := by
    intro r₁ m₁ hread
    obtain ⟨hm, now, -, hfold⟩ := ScriptedRequestor.cycle_eq_ok hread
    exact ⟨(ScriptedRequestor.foldlM_receive_eq_ok hfold).2, hm⟩
  cases h with
  | rests read next =>
    obtain ⟨hrefusals, rfl⟩ := hread read
    exact ⟨hrefusals.trans hr, rfl⟩
  | accepted read next =>
    obtain ⟨hrefusals, rfl⟩ := hread read
    obtain ⟨hrefusals', hretries, hmail⟩ := ScriptedRequestor.kept_of_next? next
    refine ⟨hrefusals'.trans (hrefusals.trans (hr.trans ?_)), by rw [hmail]; rfl⟩
    simp only [CpuSidePort.signals, hretries]
    rfl
  | refused read next =>
    have hfree := hretry read (by simp [next])
    obtain ⟨hrefusals, rfl⟩ := hread read
    obtain ⟨hrefusals', hretries, hmail⟩ := ScriptedRequestor.kept_of_next? next
    refine ⟨?_, by rw [hmail]; rfl⟩
    simp only [ScriptedRequestor.concluded, CpuSidePort.signals, hretries, hrefusals', hrefusals, hr, hfree]
    rfl

end Simulation

namespace Plan

open Simulation

variable {u : Plan} {k j : Nat} {s t : Simulation} {done : List Acceptance} {current : Option Acceptance} {rest : Nat}

/-- Serving gives no signal that was not owed. -/
theorem Serves.signals {v : Simulation} (h : u.Serves j s done current v) {i : Nat} {port' : CpuSidePort Mailbox}
    (hport : v.cache.cpuPorts[i]? = some port') :
    ∃ port, s.cache.cpuPorts[i]? = some port ∧ port'.signals = port.signals := by
  have hasked : ∀ {ports : List (CpuSidePort Mailbox)}, ports = s.cache.cpuPorts.map CpuSidePort.asked →
      ports[i]? = some port' → ∃ port, s.cache.cpuPorts[i]? = some port ∧ port'.signals = port.signals := by
    rintro ports rfl hp
    rw [List.getElem?_map, Option.map_eq_some_iff] at hp
    obtain ⟨port, hp, rfl⟩ := hp
    exact ⟨port, hp, CpuSidePort.signals_asked port⟩
  cases h with
  | quiet => exact hasked rfl hport
  | miss _ _ hports => exact hasked hports hport
  | hit _ _ hports => exact CpuSidePort.signals_answeredPorts (hports ▸ hport)
  | fill _ _ _ _ hports => exact CpuSidePort.signals_answeredPorts (hports ▸ hport)

/-- All requestors of a system are balanced with their ports. -/
def AllBalanced (s : Simulation) : Prop :=
  ∀ (i : Nat) r port, s.requestors[i]? = some r → s.cache.cpuPorts[i]? = some port → Balanced r port

theorem Between.step_balanced (hu : u.Valid) (h : u.Between k j s done current rest) (hj : u.InTime j)
    (hk : k + 1 < Word.bound) (ht : s.step.result = .ok t) (hb : AllBalanced s) : AllBalanced t := by
  obtain ⟨v, done', current', rest', hserved, hserves, hplays⟩ := h.step_cases hu hj hk ht
  intro i r' port' hr' hport'
  obtain ⟨r, port, hr, hport, hturned⟩ := hplays.turned i r' port' hr' (by rwa [Nat.zero_add])
  rw [Nat.zero_add] at hport
  obtain ⟨-, hclock, hnow, hl⟩ := hserved.during.attached.linked i r port hr hport
  obtain ⟨before, hbefore, hsignals⟩ := hserves.signals hport
  refine hturned.balanced hl (by rw [hclock]; exact hj.ticksOf) hnow
    (fun g hg => hserved.during.past _ (mem_of_mem_given hg)) ?_
  rw [hsignals]
  exact (hb i r before hr hbefore).refusals

end Plan

namespace Simulation

/-- The requestor and the port of a number agree on what is between them. -/
structure HandshakeAt (s : Simulation) (i : Nat) (r : ScriptedRequestor) (port : CpuSidePort Mailbox) : Prop where
  /-- A requestor keeps a refused request as long as a signal is owed to it or waits for it. -/
  refused_iff : r.refused.isSome ↔ port.needsRetry ≠ port.peer.signalled
  /-- No signal is owed while one waits. -/
  not_both : ¬(port.needsRetry ∧ port.peer.signalled)
  /-- Every refusal was followed by a signal, or one is owed. -/
  refusals : r.refusals = port.peer.retries + port.needsRetry.toNat
  /-- A requestor asks for a response if and only if its port holds one. -/
  answerRefused : port.peer.answerRefused = port.parked.isSome
  /-- An accepted access is served, or its response was refused. -/
  accepted_iff : (∃ o, r.outstanding = some o ∧ o.accepted.isSome) ↔
    s.cache.waitingPort = some i ∨ port.parked.isSome
  /-- In the end there were as many refusals as signals. -/
  done : s.isDone → r.refusals = port.peer.retries

/-- The memory has refused nothing, which it would remember until its next cycle
and the port would hold, and has at most one response to give. -/
structure Unhindered (s : Simulation) : Prop where
  retryPending : s.memory.retryPending = false
  sendRetry : s.memory.sendRetry = false
  parked : s.cache.memPort.parked = none
  deferred : s.cache.deferred = none
  buffered : s.memory.inFlight.size + s.memory.ready.length ≤ 1

end Simulation

namespace Plan

open Simulation

variable {u : Plan} {k j : Nat} {s : Simulation} {done : List Acceptance} {current : Option Acceptance} {rest i : Nat}
  {r : ScriptedRequestor} {port : CpuSidePort Mailbox}

theorem Between.unhindered (h : u.Between k j s done current rest) : s.Unhindered := by
  have howed : s.memory.owed.length ≤ 1 := by
    show s.cache.memPort.peer.owed.length ≤ 1
    rw [← h.runs.coming]
    have hstage := h.runs.consistent.stage
    generalize current.map Acceptance.request = served at hstage
    cases hstage with
    | idle _ _ hc => simp [hc]
    | access _ _ _ hc => simp [hc]
    | fetch _ _ _ _ _ hc =>
      obtain ⟨a, hc, -⟩ := hc
      simp [hc]
  refine ⟨h.runs.memory.retryPending, h.runs.memory.sendRetry, h.runs.parked, h.runs.deferred, ?_⟩
  simp only [TimedMemory.owed, List.length_append, List.length_map] at howed
  unfold Fifo.size
  omega

/-- The access in service is that of the requestor whose port the cache serves. -/
theorem Between.waitingPort_iff (h : u.Between k j s done current rest) :
    s.cache.waitingPort = some i ↔ current.filter (·.id == i) ≠ none := by
  rw [h.runs.waitingPort]
  cases current with
  | none => simp
  | some a => by_cases hi : a.id = i <;> simp [Option.filter, hi]

theorem Between.handshakeAt (h : u.Between k j s done current rest) (hr : s.requestors[i]? = some r)
    (hport : s.cache.cpuPorts[i]? = some port) (hb : Balanced r port) : s.HandshakeAt i r port := by
  obtain ⟨-, -, -, hl⟩ := h.attached.linked i r port hr hport
  obtain ⟨unread, hx, -⟩ := hl.exchange
  have hwaiting := h.waitingPort_iff (i := i)
  generalize current.filter (·.id == i) = own at hx hwaiting
  have hdone : s.isDone → r.At .free := fun hdone =>
    (ScriptedRequestor.at_of_isDone (isDone_of_mem hdone (List.mem_of_getElem? hr))).1
  have hbalance : port.needsRetry = false → r.refusals = port.peer.retries := fun hn => by
    have := hb.refusals
    rwa [CpuSidePort.signals, hn] at this
  cases hx with
  | free ht hs hn hg =>
    have hfree := ScriptedRequestor.parked_of_sent hs
    exact ⟨by simp [ht.refused, hn, hg], by simp [hn], hb.refusals, hl.asks,
      by simp [ht.outstanding, hwaiting, hfree], fun _ => hbalance hn⟩
  | refused ht _ hs hg =>
    have hfree := ScriptedRequestor.parked_of_sent hs
    refine ⟨by simp [ht.refused, hg], by simp [hg], hb.refusals, hl.asks,
      by simp [ht.outstanding, hwaiting, hfree], fun hd => ?_⟩
    cases ht.refused.symm.trans (hdone hd).refused
  | served ht _ hs hn hg =>
    exact ⟨by simp [ht.refused, hn, hg], by simp [hn], hb.refusals, hl.asks, by simp [ht.outstanding, hwaiting],
      fun _ => hbalance hn⟩
  | @answered access issued accepted p data ht _ hs _ _ _ hn hg =>
    have hheld : port.parked = some p := by
      have hs' : port.peer.inbox.items ++ port.parked.toList = [p] := hs
      rw [hb.mail, List.nil_append] at hs'
      simpa using hs'
    exact ⟨by simp [ht.refused, hn, hg], by simp [hn], hb.refusals, hl.asks, by simp [ht.outstanding, hheld],
      fun _ => hbalance hn⟩

end Plan

namespace Simulation

variable {config : Config} {trace : Trace}

/-- Before the first cycle, nothing was refused and there is no mail. -/
theorem allBalanced_initial (store : Store) (bytes : Chunks) :
    Plan.AllBalanced (initial config trace store bytes) := by
  intro i r port hr hport
  obtain ⟨-, rfl⟩ := getElem?_range_map _ hr
  obtain ⟨hpeer, -, hretry⟩ := port_initial hport
  refine ⟨?_, by rw [hpeer]; rfl⟩
  rw [CpuSidePort.signals, hpeer, hretry]
  rfl

/-- Whatever the configuration, and whatever bytes the memory holds first, after
any number of cycles every requestor agrees with its port, and the memory has
refused nothing. -/
theorem steps_handshakes (hv : config.validate = .ok ())
    (hports : trace.scripts.length ≤ config.cache.ports.toNat)
    (hfits : trace.FitsIn config.lineSize.toNat config.memory.range.bytes.toNat)
    {bytes : Chunks} (hbytes : bytes.Valid) {n : Nat}
    (htime : (n - 1 + max config.cache.latency.toNat config.memory.latency.toNat) *
      config.clockPeriod.toNat < 2 ^ 63) :
    ∃ s t, (build config trace).result = .ok (.ok s) ∧ (steps n (s.loaded bytes)).result = .ok t ∧
      t.Unhindered ∧ ∀ i < config.cache.ports.toNat, ∃ r port, t.requestors[i]? = some r ∧
        t.cache.cpuPorts[i]? = some port ∧ t.HandshakeAt i r port := by
  have hu : (plan config trace bytes.byte).Valid := valid_plan (Config.checked_of_validate hv) hfits
  obtain ⟨s, t, done, current, rest, hbuild, hsteps, ht, hb⟩ := exists_steps (I := fun _ _ => Plan.AllBalanced)
    hv hports hfits hbytes htime (fun store => allBalanced_initial store bytes)
    fun h hj hk hstep _ hb => h.step_balanced hu hj hk hstep hb
  refine ⟨s, t, hbuild, hsteps, ht.unhindered, fun i hi => ?_⟩
  have hlt : i < t.requestors.length := by
    rw [ht.attached.count]
    exact hi
  have hr := List.getElem?_eq_getElem hlt
  obtain ⟨port, hport⟩ := ht.attached.exists_port hr
  exact ⟨_, port, hr, hport, ht.handshakeAt hr hport (hb i _ port hr hport)⟩

/-- The theorem at two requestors that compete for the cache and refuse responses. -/
theorem steps_handshakes_of_small :
    ∃ s t, (build smallConfig ⟨[smallScript, smallScript]⟩).result = .ok (.ok s) ∧
      (steps 20 (s.loaded .empty)).result = .ok t ∧ t.Unhindered ∧
      ∀ i < smallConfig.cache.ports.toNat, ∃ r port, t.requestors[i]? = some r ∧
        t.cache.cpuPorts[i]? = some port ∧ t.HandshakeAt i r port :=
  steps_handshakes (by decide) (by decide) (by decide) Chunks.valid_empty (by decide)

end Simulation

end CacheSim
