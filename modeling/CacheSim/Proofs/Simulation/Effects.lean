import CacheSim.Proofs.Cache.Results
import CacheSim.Proofs.Simulation.Runs

/-!
# What a step has done

A step of a system that follows its plan does one of four things before the
requestors play (`Plan.Serves`): nothing is due, an access hits or misses, or a
block comes.  Then every requestor reads its mail, and makes no offer or one
that is accepted or refused (`Simulation.Turned`), and at most one offer is
accepted (`Simulation.Admits`).  `Plan.Between.step_cases` says so of a whole step.
-/

namespace CacheSim

namespace Simulation

/-- What a requestor did at its port: it has read its mail, and has made no offer
or one that was accepted or refused. -/
inductive Turned (cycle : Nat) (r : ScriptedRequestor) (port : CpuSidePort Mailbox) :
    ScriptedRequestor → CpuSidePort Mailbox → Prop
  | rests {r₁ : ScriptedRequestor} {m₁ : Mailbox} (read : (r.cycle cycle port.peer).result = .ok (r₁, m₁))
    (next : r₁.next? m₁ = none) : Turned cycle r port r₁ { port with peer := m₁ }
  | accepted {r₁ r₂ : ScriptedRequestor} {m₁ m₂ : Mailbox} {offer : Offer}
    (read : (r.cycle cycle port.peer).result = .ok (r₁, m₁)) (next : r₁.next? m₁ = some (offer, r₂, m₂)) :
    Turned cycle r port (r₂.concluded .accepted) { port with peer := m₂ }
  | refused {r₁ r₂ : ScriptedRequestor} {m₁ m₂ : Mailbox} {offer : Offer}
    (read : (r.cycle cycle port.peer).result = .ok (r₁, m₁)) (next : r₁.next? m₁ = some (offer, r₂, m₂)) :
    Turned cycle r port (r₂.concluded (.refused offer.packet)) { port with needsRetry := true, peer := m₂ }

/-- What the offers of a cycle do: nothing, or a cache that takes requests accepts one of them. -/
structure Admits (s t : Simulation) : Prop where
  cache : t.cache = { s.cache with toControl := t.cache.toControl, cpuPorts := t.cache.cpuPorts }
  queue : t.cache.toControl = s.cache.toControl ∧ t.queue = s.queue ∨
    s.cache.blocked = false ∧
      (∃ id, t.cache.toControl =
        { s.cache.toControl with blocked := true, waitingPort := some id, phase := .waitAccess }) ∧
      ∃ tick event, s.queue.edge s.cache.geometry.latency = .ok tick ∧
        t.queue = { s.queue with pending := EventQueue.place tick event s.queue.pending }

variable {s t v : Simulation} {cycle b : Nat} {r r' : ScriptedRequestor} {port : CpuSidePort Mailbox}
  {rs played : List ScriptedRequestor}

theorem Admits.trans (h : s.Admits t) (h' : t.Admits v) : s.Admits v where
  cache := by rw [h'.cache, h.cache]
  queue := by
    rcases h'.queue with ⟨hs', hq'⟩ | ⟨hfree, ⟨id', hs'⟩, tick, event, hedge, hq'⟩
    · rw [hs', hq']
      exact h.queue
    · rcases h.queue with ⟨hs, hq⟩ | ⟨-, ⟨id, hs⟩, -⟩
      · refine .inr ⟨hs ▸ hfree, ⟨id', hs ▸ hs'⟩, tick, event, ?_, hq ▸ hq'⟩
        rw [h.cache] at hedge
        exact hq ▸ hedge
      · simp [hs] at hfree

/-- A requestor played at its port, and at no other one. -/
theorem play_eq_ok (hport : s.cache.cpuPorts[r.id]? = some port) (h : (s.play cycle r).result = .ok (r', t)) :
    ∃ port', t.cache.cpuPorts = s.cache.cpuPorts.set r.id port' ∧ Turned cycle r port r' port' ∧ s.Admits t := by
  have hlt := (List.getElem?_eq_some_iff.mp hport).1
  simp only [play, mailbox_eq_ok hport, Sim.result_bind, Sim.result_liftM, Sim.ok_bind] at h
  obtain ⟨⟨r₁, m₁⟩, hread, h⟩ := Sim.bind_eq_ok.mp h
  obtain ⟨-, now, -, hfold⟩ := ScriptedRequestor.cycle_eq_ok hread
  have hid₁ : r₁.id = r.id := (ScriptedRequestor.foldlM_receive_eq_ok hfold).1
  cases hnext : r₁.next? m₁ with
  | none =>
    simp only [hnext, hid₁, withMailbox_eq hport] at h
    obtain ⟨rfl, rfl⟩ := Prod.mk.inj (Except.ok.inj h)
    exact ⟨_, rfl, .rests hread hnext, rfl, .inl ⟨rfl, rfl⟩⟩
  | some o =>
    obtain ⟨offer, r₂, m₂⟩ := o
    have hid₂ : r₂.id = r.id := by
      rcases ScriptedRequestor.next?_eq_some hnext with ⟨rfl, -⟩ | ⟨⟨_, _, rfl⟩, -⟩ <;> exact hid₁
    simp only [hnext, hid₂, withMailbox_eq hport, ScriptedRequestor.issue, Sim.result_bind, Sim.result_debug,
      Sim.ok_bind] at h
    obtain ⟨⟨handshake, w⟩, hsend, h⟩ := Sim.bind_eq_ok.mp h
    obtain ⟨⟨handshake', cache, queue⟩, hoffer, hsend⟩ := Sim.bind_eq_ok.mp hsend
    obtain ⟨rfl, rfl⟩ := Prod.mk.inj (Except.ok.inj hsend)
    obtain ⟨r₃, hconclude, h⟩ := Sim.bind_eq_ok.mp h
    obtain ⟨rfl, rfl⟩ := Prod.mk.inj (Except.ok.inj h)
    obtain rfl := Except.ok.inj ((r₂.result_conclude _).symm.trans hconclude)
    have hset : (s.withPorts (s.cache.cpuPorts.set r.id { port with peer := m₂ })).cache.cpuPorts[r.id]? =
        some { port with peer := m₂ } := List.getElem?_set_self hlt
    by_cases hr : (s.withPorts (s.cache.cpuPorts.set r.id { port with peer := m₂ })).cache.Refuses
        { port with peer := m₂ }
    · rw [Cache.offer_of_refuses hset hr] at hoffer
      simp only [Except.ok.injEq, Prod.mk.injEq] at hoffer
      obtain ⟨rfl, rfl, rfl⟩ := hoffer
      refine ⟨{ port with needsRetry := true, peer := m₂ }, ?_, .refused hread hnext, rfl, .inl ⟨rfl, rfl⟩⟩
      show (s.cache.cpuPorts.set r.id _).set r.id _ = _
      rw [List.set_set]
    · obtain ⟨tick, rfl, hedge, rfl, rfl⟩ := Cache.offer_of_not_refuses hset hr hoffer
      have hfree := (Cache.not_refuses_iff.mp hr).2
      exact ⟨_, rfl, .accepted hread hnext, rfl, .inr ⟨hfree, ⟨_, rfl⟩, tick, _, hedge, rfl⟩⟩

/-- What the requestors `rs` did at the ports from number `b` on. -/
structure Plays (cycle b : Nat) (rs : List ScriptedRequestor) (s : Simulation) (played : List ScriptedRequestor)
    (t : Simulation) : Prop where
  admits : s.Admits t
  others : ∀ i < b, t.cache.cpuPorts[i]? = s.cache.cpuPorts[i]?
  turned : ∀ i r' port', played[i]? = some r' → t.cache.cpuPorts[b + i]? = some port' → ∃ r port,
    rs[i]? = some r ∧ s.cache.cpuPorts[b + i]? = some port ∧ Turned cycle r port r' port'

/-- Requestors played one after another, each at its own port. -/
theorem playAll_eq_ok (hids : rs.map (·.id) = List.range' b rs.length)
    (hports : b + rs.length ≤ s.cache.cpuPorts.length) (h : (playAll cycle rs s).result = .ok (played, t)) :
    Plays cycle b rs s played t := by
  induction rs generalizing b s played with
  | nil =>
    obtain ⟨rfl, rfl⟩ := Prod.mk.inj (Except.ok.inj h)
    exact ⟨⟨rfl, .inl ⟨rfl, rfl⟩⟩, fun _ _ => rfl, fun i r' port' hr' => by simp at hr'⟩
  | cons r rs ih =>
    rw [List.map_cons, List.length_cons, List.range'_succ] at hids
    rw [List.length_cons] at hports
    obtain ⟨hid, hrest⟩ := List.cons.inj hids
    simp only [playAll, Sim.result_bind] at h
    obtain ⟨⟨r', w⟩, hplay, h⟩ := Sim.bind_eq_ok.mp h
    obtain ⟨⟨others, v⟩, hplayAll, h⟩ := Sim.bind_eq_ok.mp h
    obtain ⟨rfl, rfl⟩ := Prod.mk.inj (Except.ok.inj h)
    have hlt : r.id < s.cache.cpuPorts.length := by omega
    obtain ⟨port', hset, hturned, hadmits⟩ := play_eq_ok (List.getElem?_eq_getElem hlt) hplay
    have hafter := ih hrest (by rw [hset, List.length_set]; omega) hplayAll
    have hstays : ∀ i, i ≠ r.id → w.cache.cpuPorts[i]? = s.cache.cpuPorts[i]? := fun i hi => by
      rw [hset, List.getElem?_set_ne (Ne.symm hi)]
    refine ⟨hadmits.trans hafter.admits, fun i hi => ?_, fun i x' port'' hx' hp'' => ?_⟩
    · rw [hafter.others i (by omega), hstays i (by omega)]
    · cases i with
      | zero =>
        obtain rfl : r' = x' := Option.some.inj hx'
        obtain rfl : port' = port'' := by
          rw [Nat.add_zero, hafter.others _ (by omega), hset, ← hid, List.getElem?_set_self hlt] at hp''
          exact Option.some.inj hp''
        refine ⟨r, _, rfl, ?_, hturned⟩
        rw [Nat.add_zero, ← hid, List.getElem?_eq_getElem hlt]
      | succ i =>
        rw [← Nat.add_assoc, Nat.add_right_comm] at hp''
        obtain ⟨x, port, hx, hp, ht⟩ := hafter.turned i x' port'' hx' hp''
        rw [hstays _ (by omega), Nat.add_right_comm, Nat.add_assoc] at hp
        exact ⟨x, port, hx, hp, ht⟩

/-- A cycle in which no response is available performs the event that is due. -/
theorem result_serve_of_due {now tick : Nat} {event : AccessEvent} (hready : s.memory.ready = [])
    (hretry : s.memory.sendRetry = false) (hpending : s.queue.pending = [(tick, event)]) (hle : tick ≤ now)
    {d : Cache Mailbox TimedMemory} (hfire : (s.cache.fire tick event).result = .ok d) :
    (s.serve now).result =
      .ok { s with cache := d, queue := { s.queue with now := tick, pending := [] } } := by
  simp [serve, result_deliverAll_of_none hready, result_retryRequest_of_none hretry,
    result_fireDue_of_due hpending hle hfire]

/-- A cycle in which a response is available gives it to the cache. -/
theorem result_serve_of_ready {now : Nat} {p : Packet} (hready : s.memory.ready = [p])
    (hpending : s.queue.pending = []) {d : Cache Mailbox TimedMemory}
    (hfill : ((s.withMemory { s.memory with ready := [] }).cache.fill s.queue.now p).result = .ok d)
    (hretry : d.memPort.peer.sendRetry = false) : (s.serve now).result = .ok { s with cache := d } := by
  have hretry' := result_retryRequest_of_none (s := { s with cache := d }) hretry
  have hquiet : (fireDue { s with cache := d } now).result = .ok { s with cache := d } :=
    result_fireDue_of_quiet (by simp [EventQueue.next?, hpending])
  simp [serve, result_deliverAll_of_one hready hfill, hretry', hquiet]

end Simulation

/-! ## What is served -/

namespace Plan

open Simulation

/-- What the cache and the memory did in the cycle `j`, which begins with `s`. -/
inductive Serves (u : Plan) (j : Nat) (s : Simulation) (done : List Acceptance) :
    Option Acceptance → Simulation → Prop
  /-- No response was available and no access was due. -/
  | quiet {current : Option Acceptance} (ready : (s.begun (u.tick j)).memory.ready = [])
    (later : ∀ tick ∈ s.queue.next?, u.tick j < tick) : Serves u j s done current (s.begun (u.tick j))
  /-- The access was due, and its block was resident. -/
  | hit {a : Acceptance} {event : AccessEvent} {d : Cache Mailbox TimedMemory}
    (service : s.cache.service = .access a.id) (pending : s.queue.pending = [(u.tick j, event)])
    (ports : d.cpuPorts = Cache.answeredPorts (s.begun (u.tick j)).cache.cpuPorts a.id (u.answer done a))
    (idle : d.service = .idle) (stats : d.stats = { s.cache.stats with hits := s.cache.stats.hits + 1 }) :
    Serves u j s done (some a) { s.begun (u.tick j) with
      cache := d, queue := { s.queue with now := u.tick j, pending := [] } }
  /-- The access was due, and its block is fetched. -/
  | miss {a : Acceptance} {event : AccessEvent} {d : Cache Mailbox TimedMemory} {kept : Option Packet} {p : Packet}
    (service : s.cache.service = .access a.id) (pending : s.queue.pending = [(u.tick j, event)])
    (ports : d.cpuPorts = (s.begun (u.tick j)).cache.cpuPorts) (fetch : d.service = .fetch a.id (u.tick j) kept)
    (stats : d.stats = { s.cache.stats with misses := s.cache.stats.misses + 1 })
    (ready : d.memPort.peer.ready = []) (inFlight : d.memPort.peer.inFlight.items = [⟨u.tick (j + u.latency), p⟩]) :
    Serves u j s done (some a) { s.begun (u.tick j) with
      cache := d, queue := { s.queue with now := u.tick j, pending := [] } }
  /-- The block came. -/
  | fill {a : Acceptance} {d : Cache Mailbox TimedMemory} {since : Tick} {kept : Option Packet} {p : Packet}
    {missLatency : Histogram} (service : s.cache.service = .fetch a.id since kept)
    (ready : (s.begun (u.tick j)).memory.ready = [p]) (since_le : since ≤ u.tick j)
    (sample : s.cache.stats.missLatency.sample (u.tick j - since) = .ok missLatency)
    (ports : d.cpuPorts = Cache.answeredPorts (s.begun (u.tick j)).cache.cpuPorts a.id (u.answer done a))
    (idle : d.service = .idle) (stats : d.stats = { s.cache.stats with missLatency }) :
    Serves u j s done (some a) { s.begun (u.tick j) with cache := d }

variable {u : Plan} {k j : Nat} {s t : Simulation} {done : List Acceptance} {current : Option Acceptance}
  {rest : Nat} {a : Acceptance}

/-- The cache serves the port of the access in service. -/
theorem Runs.waitingPort {c : Cache Mailbox TimedMemory} {q : EventQueue AccessEvent}
    (h : u.Runs k c q done current) : c.waitingPort = current.map (·.id) := by
  have hstage := h.consistent.stage
  have hagrees := h.consistent.sane.agrees
  cases current with
  | none => exact hagrees.waitingPort_eq h.idle
  | some a => cases hstage with
    | access hs => exact hagrees.waitingPort_eq hs
    | fetch hs => exact hagrees.waitingPort_eq hs

/-- The access of the request in service is due. -/
theorem Between.serves_due (hu : u.Valid) (h : u.Between k j s done (some a) rest) (hj : u.InTime j)
    (hready : (s.begun (u.tick j)).memory.ready = []) {id : Nat} {event : AccessEvent}
    (hs : s.cache.service = .access id) (hpending : s.queue.pending = [(u.tick j, event)])
    (ht : ((s.begun (u.tick j)).serve (u.tick j)).result = .ok t) : u.Serves j s done (some a) t := by
  have hruns := h.runs_begun hj
  have hpending' : (s.begun (u.tick j)).queue.pending = [(u.tick j, event)] := hpending
  have hpop : (s.begun (u.tick j)).queue.pop? =
      some (u.tick j, event, { (s.begun (u.tick j)).queue with now := u.tick j, pending := [] }) := by
    simp only [EventQueue.pop?, hpending']
  obtain rfl : id = a.id := by
    have hport := h.runs.waitingPort
    rw [h.runs.consistent.sane.agrees.waitingPort_eq hs] at hport
    exact Option.some.inj hport
  obtain ⟨d, hfire, hd⟩ := hruns.fire hu hpop
  have hserve := result_serve_of_due hready hruns.memory.sendRetry hpending' (Nat.le_refl _) hfire
  obtain rfl := Except.ok.inj (hserve.symm.trans ht)
  obtain ⟨-, hcounted⟩ := Cache.fire_eq_ok hfire
  rcases hd with ⟨hd, hports⟩ | ⟨hd, hports, ⟨since, kept, hservice⟩, hready', p, hflight⟩
  · rcases hcounted with ⟨b, answer, hreply, -, -, hstats⟩ | ⟨-, -, original, -, hcontrol⟩
    · obtain ⟨-, _, _, -, -, -, rfl⟩ := Cache.reply_eq_ok hreply
      exact .hit hs hpending hports rfl hstats
    · have hphase := hd.consistent.sane.agrees.phase_eq hd.idle
      simp [hcontrol] at hphase
  · rcases hcounted with ⟨b, answer, hreply, -⟩ | ⟨-, hstats, original, -, hcontrol⟩
    · obtain ⟨-, _, _, -, -, -, rfl⟩ := Cache.reply_eq_ok hreply
      cases hservice
    · obtain rfl : u.tick j = since := by
        have hsince := hd.consistent.sane.agrees.missTime_eq hservice
        rwa [hcontrol] at hsince
      have hflight' : d.memPort.peer.inFlight.items = [⟨u.tick (j + u.latency), p⟩] := by
        rw [hflight, tick_add]
        rfl
      exact .miss hs hpending hports hservice hstats hready' hflight'

/-- The block for the request in service is available. -/
theorem Between.serves_ready (h : u.Between k j s done (some a) rest) (hj : u.InTime j) (hk : k + 1 < Word.bound)
    {id : Nat} {since : Tick} {kept : Option Packet} (hs : s.cache.service = .fetch id since kept) {p : Packet}
    (hready : (s.begun (u.tick j)).memory.ready = [p])
    (hflight : (s.begun (u.tick j)).memory.inFlight.items = []) (hpending : s.queue.pending = [])
    (ht : ((s.begun (u.tick j)).serve (u.tick j)).result = .ok t) : u.Serves j s done (some a) t := by
  have hruns := h.runs_begun hj
  obtain ⟨d, hfill, hd, hports⟩ := hruns.fill hready hflight (hj.tick_lt (Nat.le_add_right ..)) hk
  have hserve : ((s.begun (u.tick j)).serve (u.tick j)).result = .ok { s.begun (u.tick j) with cache := d } :=
    result_serve_of_ready hready hpending hfill hd.memory.sendRetry
  obtain rfl := Except.ok.inj (hserve.symm.trans ht)
  obtain ⟨-, hle, missLatency, hsample, b, answer, hreply, -, -, hstats⟩ := Cache.fill_eq_ok hfill
  obtain ⟨-, _, _, -, -, -, rfl⟩ := Cache.reply_eq_ok hreply
  have hagrees := h.runs.consistent.sane.agrees
  obtain rfl : id = a.id := by
    have hport := h.runs.waitingPort
    rw [hagrees.waitingPort_eq hs] at hport
    exact Option.some.inj hport
  obtain rfl : s.cache.missTime = since := hagrees.missTime_eq hs
  exact .fill hs hready hle hsample hports rfl hstats

/-- What a cycle served before the requestors played. -/
theorem Between.serves (hu : u.Valid) (h : u.Between k j s done current rest) (hj : u.InTime j)
    (hk : k + 1 < Word.bound) (ht : ((s.begun (u.tick j)).serve (u.tick j)).result = .ok t) :
    u.Serves j s done current t := by
  have hretry := (h.runs_begun hj).memory.sendRetry
  have hquiet : (s.begun (u.tick j)).memory.ready = [] → (∀ tick ∈ s.queue.next?, u.tick j < tick) →
      u.Serves j s done current t := fun hready hlater => by
    obtain rfl := Except.ok.inj ((result_serve_of_quiet hready hretry hlater).symm.trans ht)
    exact .quiet hready hlater
  have hnone : s.cache.lane.coming = [] → (s.begun (u.tick j)).memory.ready = [] := fun hc =>
    (ready_of_owed ((TimedMemory.owed_advanced _ _).trans (h.runs.coming.symm.trans hc))).1
  cases h.wait with
  | idle hs =>
    have hstage := h.runs.consistent.stage
    obtain rfl := h.runs.current_of_idle hs
    cases hstage with
    | idle _ hq hc => exact hquiet (hnone hc) (by simp [EventQueue.next?, hq])
  | @access id cycle event hs hq hle =>
    cases current with
    | none => cases h.runs.idle.symm.trans hs
    | some a =>
      have hready : (s.begun (u.tick j)).memory.ready = [] := by
        have howed : s.memory.owed = [] := by
          obtain ⟨hr, hf⟩ := h.runs.quiet (by simp [hq])
          simp [TimedMemory.owed, Simulation.memory, hr, hf]
        exact (ready_of_owed ((TimedMemory.owed_advanced _ _).trans howed)).1
      by_cases hlt : j < cycle
      · exact hquiet hready (by simpa [EventQueue.next?, hq] using hu.tick_lt_tick.mpr hlt)
      · obtain rfl : cycle = j := by omega
        exact h.serves_due hu hj hready hs hq ht
  | @fetch id cycle since kept p hs hready hflight =>
    cases current with
    | none => cases h.runs.idle.symm.trans hs
    | some a =>
      have hq : s.queue.pending = [] := h.runs.pending (by simp [hs])
      by_cases hlt : j < cycle
      · have hnone := (TimedMemory.advanced_of_lt hready hflight (hu.tick_lt_tick.mpr hlt)).1
        exact hquiet hnone (by simp [EventQueue.next?, hq])
      · obtain ⟨hone, hnone⟩ := TimedMemory.advanced_of_le hready hflight (hu.tick_le_tick.mpr (Nat.not_lt.mp hlt))
        exact h.serves_ready hj hk hs hone hnone hq ht

/-! ## A whole step -/

/-- A step served, and then the requestors played. -/
theorem Between.step_cases (hu : u.Valid) (h : u.Between k j s done current rest) (hj : u.InTime j)
    (hk : k + 1 < Word.bound) (ht : s.step.result = .ok t) :
    ∃ v done' current' rest', u.Served k j s v done current rest done' current' rest' ∧
      u.Serves j s done current v ∧ Plays j 0 s.requestors v t.requestors t := by
  obtain ⟨v, done', current', rest', hserve, hserved⟩ := h.serve hu hj hk
  simp only [Simulation.step, h.nextCycle, Sim.result_bind, h.cycle_eq hu hj, hserve, Sim.ok_bind,
    hserved.requestors] at ht
  obtain ⟨t₁, ht₁, ht⟩ := Sim.bind_eq_ok.mp ht
  obtain ⟨⟨played, t₂⟩, hplay, ht₁⟩ := Sim.bind_eq_ok.mp ht₁
  obtain rfl := Except.ok.inj ht₁
  obtain rfl := Except.ok.inj ht
  refine ⟨v, done', current', rest', hserved, h.serves hu hj hk hserve, ?_⟩
  have hattached := hserved.during.attached
  have hplays := playAll_eq_ok (by rw [hattached.ids, hattached.length]) (by rw [hattached.length, Nat.zero_add]) hplay
  exact ⟨⟨hplays.admits.cache, hplays.admits.queue⟩, hplays.others, hplays.turned⟩

/-- What every step keeps, as long as the plan is followed, a run keeps. -/
theorem Between.steps_induction {I : Nat → Simulation → Prop} (hu : u.Valid) (h : u.Between k j s done current rest)
    (hstart : I j s)
    (hkeep : ∀ {k j s t done current rest} {done' : List Acceptance} {current' : Option Acceptance} {rest' : Nat},
      u.Between k j s done current rest → u.InTime j → k + 1 < Word.bound → s.step.result = .ok t →
      u.Between (k + 1) (j + 1) t done' current' rest' → I j s → I (j + 1) t)
    {n : Nat} (hj : ∀ i < n, u.InTime (j + i)) (hk : k + n < Word.bound) :
    ∃ t done' current' rest', (Simulation.steps n s).result = .ok t ∧
      u.Between (k + n) (j + n) t done' current' rest' ∧ I (j + n) t := by
  induction n generalizing k j s done current rest with
  | zero => exact ⟨s, done, current, rest, rfl, h, hstart⟩
  | succ n ih =>
    obtain ⟨v, done', current', rest', hstep, hv, -⟩ := h.step hu (hj 0 (Nat.succ_pos n)) (by omega)
    have hI := hkeep h (hj 0 (Nat.succ_pos n)) (by omega) hstep hv hstart
    have hj' : ∀ i < n, u.InTime (j + 1 + i) := fun i hi => by
      rw [Nat.add_right_comm]
      exact hj (i + 1) (Nat.succ_lt_succ hi)
    obtain ⟨t, done₂, current₂, rest₂, hsteps, ht, hI'⟩ := ih hv hI hj' (by omega)
    refine ⟨t, done₂, current₂, rest₂, ?_, ?_, ?_⟩
    · rw [Simulation.steps, Sim.result_iterate_succ, if_pos rfl, hstep]
      exact hsteps
    · rwa [Nat.add_right_comm k, Nat.add_right_comm j] at ht
    · rwa [Nat.add_right_comm j] at hI'

end Plan

namespace Simulation

variable {config : Config} {trace : Trace}

/-- The system of a checked configuration and a trace can make any number of
steps, and has what it started with and every step keeps. -/
theorem exists_steps {I : Simulation → Nat → Simulation → Prop} (hv : config.validate = .ok ())
    (hports : trace.scripts.length ≤ config.cache.ports.toNat)
    (hfits : trace.FitsIn config.lineSize.toNat config.memory.range.bytes.toNat)
    {bytes : Chunks} (hbytes : bytes.Valid) {n : Nat}
    (htime : (n - 1 + max config.cache.latency.toNat config.memory.latency.toNat) *
      config.clockPeriod.toNat < 2 ^ 63)
    (hstart : ∀ store, I (initial config trace store bytes) 0 (initial config trace store bytes))
    (hkeep : ∀ {start k j s t done current rest} {done' : List Acceptance} {current' : Option Acceptance}
      {rest' : Nat}, (plan config trace bytes.byte).Between k j s done current rest →
      (plan config trace bytes.byte).InTime j → k + 1 < Word.bound → s.step.result = .ok t →
      (plan config trace bytes.byte).Between (k + 1) (j + 1) t done' current' rest' → I start j s →
      I start (j + 1) t) :
    ∃ s t done current rest, (build config trace).result = .ok (.ok s) ∧
      (steps n (s.loaded bytes)).result = .ok t ∧
      (plan config trace bytes.byte).Between n n t done current rest ∧ I (s.loaded bytes) n t := by
  have hc := Config.checked_of_validate hv
  have hu : (plan config trace bytes.byte).Valid := valid_plan hc hfits
  have hlast : (plan config trace bytes.byte).InTime (n - 1) := htime
  obtain ⟨store, hbuild, hbetween⟩ := build_follows hv hports hbytes (hlast.mono (Nat.zero_le _))
  have hbound : n < Word.bound := by
    have hn := hlast.lt hu
    have hword : Word.bound = 2 ^ 64 := rfl
    omega
  obtain ⟨t, done, current, rest, hsteps, ht, hI⟩ := hbetween.steps_induction hu (hstart store)
    (fun h hj hk hstep ht hI => hkeep h hj hk hstep ht hI) (n := n) (fun i hi => hlast.mono (by omega))
    (by rwa [Nat.zero_add])
  rw [Nat.zero_add] at ht hI
  exact ⟨_, t, done, current, rest, hbuild, hsteps, ht, hI⟩

end Simulation

end CacheSim
