import CacheSim.Proofs.Simulation.Effects
import CacheSim.Proofs.Stats.Histogram

/-!
# When accesses are answered

An access is looked up when the latency of the cache has passed since it was
accepted.  A hit is answered at once, and a miss when the latency of the memory
has passed as well, or one cycle later if there is none.  Every response that is
refused comes again in the next cycle, and only the first one can be refused.

`OnSchedule` says when the access in service was accepted and when it is due;
`Paced` says the same of a response that its requestor has not read yet.  Both
refer to the step in which the access was looked up (`LookedUp`), which stays
what it was.  The latencies of the misses are kept as a number of equal samples
(`Tally`).
-/

namespace CacheSim

namespace Simulation

/-- The last of some steps. -/
theorem result_steps_succ (n : Nat) (s : Simulation) :
    (steps (n + 1) s).result = (steps n s).result >>= fun t => t.step.result := by
  have hfirst : ∀ m (s : Simulation), (steps (m + 1) s).result = s.step.result >>= fun t => (steps m t).result :=
    fun m s => by rw [steps, Sim.result_iterate_succ, if_pos rfl]; rfl
  induction n generalizing s with
  | zero =>
    rw [hfirst, show (steps 0 s).result = .ok s from rfl, Sim.ok_bind]
    cases s.step.result <;> rfl
  | succ n ih =>
    rw [hfirst, hfirst n]
    cases s.step.result with
    | error e => rfl
    | ok t => exact ih t

/-- The access `a` was looked up `latency` cycles after it was accepted: the step
of a run from `start` in which it was due counted a miss or a hit. -/
def LookedUp (latency period : Nat) (start : Simulation) (a : Acceptance) (missed : Bool) : Prop :=
  ∃ cycle before after, a.tick = cycle * period ∧ (steps (cycle + latency) start).result = .ok before ∧
    before.step.result = .ok after ∧
    before.queue.pending = [((cycle + latency) * period, ⟨a.access.toPacket a.id⟩)] ∧
    after.cache.stats.hits = before.cache.stats.hits + (!missed).toNat ∧
    after.cache.stats.misses = before.cache.stats.misses + missed.toNat

/-- An access was looked up once, so it hit or missed. -/
theorem LookedUp.unique {latency period : Nat} {start : Simulation} {a : Acceptance} {missed missed' : Bool}
    (hperiod : 0 < period) (h : LookedUp latency period start a missed)
    (h' : LookedUp latency period start a missed') : missed = missed' := by
  obtain ⟨cycle, before, after, htick, hbefore, hafter, -, -, hmisses⟩ := h
  obtain ⟨cycle', before', after', htick', hbefore', hafter', -, -, hmisses'⟩ := h'
  obtain rfl : cycle = cycle' := Nat.eq_of_mul_eq_mul_right hperiod (htick.symm.trans htick')
  obtain rfl := Except.ok.inj (hbefore.symm.trans hbefore')
  obtain rfl := Except.ok.inj (hafter.symm.trans hafter')
  have heq : missed.toNat = missed'.toNat := by omega
  cases missed <;> cases missed' <;> simp_all

end Simulation

namespace Plan

open Simulation
open ScriptedRequestor (Linked)

/-- The cycles from the lookup of an access to its answer. -/
def penalty (u : Plan) (missed : Bool) : Nat :=
  if missed then max u.latency 1 else 0

/-! ## A requestor and its port -/

/-- Where the response to the current access is, before the cycle `next`: it did
not come yet, or it was refused and comes again, or it was delivered.  Of all
responses, the first `refusals` ones are refused. -/
inductive Paced (u : Plan) (start : Simulation) (refusals next : Nat) (r : ScriptedRequestor)
    (port : CpuSidePort Mailbox) : Prop
  | rests (sent : port.sent = []) (refuse : port.peer.refuse = if r.log = [] then refusals else 0)
  | held {access : Access} {issued : Tick} {cycle : Nat} {missed : Bool} {p : Packet}
    (outstanding : r.outstanding = some ⟨access, issued, some (u.tick cycle)⟩)
    (lookedUp : LookedUp u.geometry.latency u.clock.period start ⟨u.tick cycle, r.id, access⟩ missed)
    (mail : port.peer.inbox.items = []) (parked : port.parked = some p) (first : r.log = [])
    (due : next + port.peer.refuse = cycle + u.geometry.latency + u.penalty missed + refusals)
  | delivered {access : Access} {issued : Tick} {cycle : Nat} {missed : Bool} {p : Packet}
    (outstanding : r.outstanding = some ⟨access, issued, some (u.tick cycle)⟩)
    (lookedUp : LookedUp u.geometry.latency u.clock.period start ⟨u.tick cycle, r.id, access⟩ missed)
    (mail : port.peer.inbox.items = [p]) (parked : port.parked = none) (refuse : port.peer.refuse = 0)
    (due : next = cycle + u.geometry.latency + u.penalty missed + (if r.log = [] then refusals else 0) + 1)

/-- Every completed access was answered as late as its lookup and the refusals make it. -/
def Punctual (u : Plan) (start : Simulation) (refusals : Nat) (r : ScriptedRequestor) : Prop :=
  ∀ (x : Nat) c, r.completions[x]? = some c → ∃ missed,
    LookedUp u.geometry.latency u.clock.period start ⟨c.accepted, r.id, c.access⟩ missed ∧
      c.responded = c.accepted +
        u.tick (u.geometry.latency + u.penalty missed + if x = 0 then refusals else 0)

/-- The accesses of a requestor were answered in time, and the current one will be. -/
structure OnTime (u : Plan) (start : Simulation) (refusals next : Nat) (r : ScriptedRequestor)
    (port : CpuSidePort Mailbox) : Prop where
  paced : u.Paced start refusals next r port
  punctual : u.Punctual start refusals r

variable {u : Plan} {start : Simulation} {refusals next : Nat} {r r₁ r₂ : ScriptedRequestor}
  {port port' : CpuSidePort Mailbox} {p : Packet} {j : Nat}

/-- Nothing but the mail and the refusals of a port matters. -/
theorem Paced.of_port (h : u.Paced start refusals next r port) (hmail : port'.peer.inbox.items = port.peer.inbox.items)
    (hparked : port'.parked = port.parked) (hrefuse : port'.peer.refuse = port.peer.refuse) :
    u.Paced start refusals next r port' := by
  cases h with
  | rests hsent hr =>
    refine .rests ?_ (hrefuse.trans hr)
    rw [CpuSidePort.sent_eq_nil, hmail, hparked]
    exact CpuSidePort.sent_eq_nil.mp hsent
  | held ht hl hm hp hf hd => exact .held ht hl (hmail.trans hm) (hparked.trans hp) hf (hrefuse.symm ▸ hd)
  | delivered ht hl hm hp hr hd => exact .delivered ht hl (hmail.trans hm) (hparked.trans hp) (hrefuse.trans hr) hd

theorem Paced.notified (h : u.Paced start refusals next r port) : u.Paced start refusals next r port.notified := by
  unfold CpuSidePort.notified
  split
  · exact h.of_port rfl rfl rfl
  · exact h

/-- A port without a response refuses as many as are left. -/
theorem Paced.refuse_eq (h : u.Paced start refusals next r port) (hsent : port.sent = []) :
    port.peer.refuse = if r.log = [] then refusals else 0 := by
  have hnone := CpuSidePort.sent_eq_nil.mp hsent
  cases h with
  | rests _ hr => exact hr
  | held _ _ _ hp => simp [hnone.2] at hp
  | delivered _ _ hm => simp [hnone.1] at hm

/-- A response comes in the cycle `next`, and is taken after as many cycles as
there are refusals left. -/
theorem Paced.of_delivered {access : Access} {issued : Tick} {cycle : Nat} {missed : Bool}
    (hout : r.outstanding = some ⟨access, issued, some (u.tick cycle)⟩)
    (hlooked : LookedUp u.geometry.latency u.clock.period start ⟨u.tick cycle, r.id, access⟩ missed)
    (hsent : port.sent = []) (hlog : r.log ≠ [] → port.peer.refuse = 0)
    (hdue : next + port.peer.refuse =
      cycle + u.geometry.latency + u.penalty missed + (if r.log = [] then refusals else 0)) :
    u.Paced start refusals (next + 1) r (port.delivered p) := by
  have hnone := CpuSidePort.sent_eq_nil.mp hsent
  by_cases hr : 0 < port.peer.refuse
  · have hfirst : r.log = [] := Classical.byContradiction fun hne => by
      have := hlog hne
      omega
    rw [if_pos hfirst] at hdue
    rw [CpuSidePort.delivered_of_refuse hr]
    refine .held hout hlooked hnone.1 rfl hfirst ?_
    show next + 1 + (port.peer.refuse - 1) = _
    omega
  · rw [CpuSidePort.delivered_of_take (by omega)]
    refine .delivered (p := p) hout hlooked ?_ hnone.2 (by show port.peer.refuse = 0; omega) (by omega)
    show port.peer.inbox.items ++ [p] = [p]
    rw [hnone.1]
    rfl

/-- A requestor that has read its mail asks again for a response that it refused. -/
theorem Paced.asked (h : u.Paced start refusals next r port) (hmail : port.peer.inbox.items = []) (ha : port.Asks) :
    u.Paced start refusals (next + 1) r port.asked := by
  cases h with
  | rests hsent hr =>
    rw [CpuSidePort.asked_of_free (ScriptedRequestor.parked_of_sent hsent)]
    exact .rests hsent hr
  | @held _ _ _ _ p ht hl _ hp hf hd =>
    rw [ha.asked_of_parked hp, CpuSidePort.retried]
    refine (Paced.of_delivered ht hl ?_ (fun hne => absurd hf hne) ?_).notified
    · exact CpuSidePort.sent_eq_nil.mpr ⟨hmail, rfl⟩
    · rw [if_pos hf]
      exact hd
  | delivered _ _ hm => simp [hmail] at hm

/-- The requestor reads its mail, and completes the access whose response came. -/
theorem OnTime.read (h : u.OnTime start refusals (j + 1) r port) (hj : u.InTime j) (hclock : r.clock = u.clock)
    {m : Mailbox} (hread : (r.cycle j port.peer).result = .ok (r₁, m)) :
    u.OnTime start refusals (j + 1) r₁ { port with peer := m } ∧ m.inbox.items = [] := by
  obtain ⟨rfl, now, hnow, hfold⟩ := ScriptedRequestor.cycle_eq_ok hread
  obtain rfl : u.tick j = now := Except.ok.inj ((hclock ▸ hj.ticksOf).symm.trans hnow)
  have hempty : port.peer.inbox.items = [] → r₁ = { r with now := u.tick j } := fun hm => by
    rw [hm] at hfold
    exact (Except.ok.inj hfold).symm
  refine ⟨?_, rfl⟩
  cases h.paced with
  | rests hsent hr =>
    obtain ⟨hm, hp⟩ := CpuSidePort.sent_eq_nil.mp hsent
    obtain rfl := hempty hm
    exact ⟨.rests (CpuSidePort.sent_eq_nil.mpr ⟨rfl, hp⟩) hr, h.punctual⟩
  | held ht hl hm hp hf hd =>
    obtain rfl := hempty hm
    exact ⟨.held ht hl rfl hp hf hd, h.punctual⟩
  | @delivered access issued cycle missed p ht hl hm hp hr hd =>
    rw [hm, List.foldlM_cons, Sim.result_bind] at hfold
    obtain ⟨r', hreceive, hfold⟩ := Sim.bind_eq_ok.mp hfold
    obtain rfl := Except.ok.inj hfold
    obtain ⟨access', issued', accepted, data, ht', rfl⟩ := ScriptedRequestor.receive_eq_ok hreceive
    cases ht.symm.trans ht'
    refine ⟨.rests (CpuSidePort.sent_eq_nil.mpr ⟨rfl, hp⟩) hr, fun x c hx => ?_⟩
    have hx' : (r.completions ++ [⟨access, issued, u.tick cycle, u.tick j, data⟩])[x]? = some c := by
      simpa [ScriptedRequestor.completions] using hx
    by_cases hlt : x < r.completions.length
    · rw [List.getElem?_append_left hlt] at hx'
      exact h.punctual x c hx'
    · rw [List.getElem?_append_right (by omega)] at hx'
      obtain ⟨hzero, rfl⟩ := by simpa [List.getElem?_singleton] using hx'
      have hsame : x = 0 ↔ r.log = [] := by
        rw [← List.length_eq_zero_iff]
        simp only [ScriptedRequestor.completions, List.length_reverse] at hlt hzero
        omega
      refine ⟨missed, hl, ?_⟩
      show u.tick j = u.tick cycle + _
      rw [← tick_add]
      simp only [hsame]
      congr 1
      omega

/-- A requestor that makes an offer waits for nothing. -/
theorem OnTime.next? (h : u.OnTime start refusals next r port) {offer : Offer} {m : Mailbox}
    (hnext : r.next? port.peer = some (offer, r₂, m)) (answer : Handshake) (b : Bool) :
    u.OnTime start refusals next (r₂.concluded answer) { port with needsRetry := b, peer := m } := by
  have hout : ∀ access issued accepted, r.outstanding ≠ some ⟨access, issued, some accepted⟩ := by
    intro access issued accepted ht
    simp [ScriptedRequestor.next?, ht] at hnext
  have hrests : port.sent = [] ∧ port.peer.refuse = if r.log = [] then refusals else 0 := by
    cases h.paced with
    | rests hs hr => exact ⟨hs, hr⟩
    | held ht => exact absurd ht (hout _ _ _)
    | delivered ht => exact absurd ht (hout _ _ _)
  obtain ⟨hsent, hrefuse⟩ := hrests
  rcases ScriptedRequestor.next?_eq_some hnext with ⟨rfl, rfl⟩ | ⟨⟨_, _, rfl⟩, rfl⟩ <;> cases answer <;>
    exact ⟨.rests hsent hrefuse, h.punctual⟩

end Plan

namespace Simulation

variable {u : Plan} {start : Simulation} {refusals cycle : Nat} {r r' : ScriptedRequestor}
  {port port' : CpuSidePort Mailbox}

/-- Whatever a requestor does in its turn, it is on time after it, and has no mail. -/
theorem Turned.onTime (h : Turned cycle r port r' port') (hj : u.InTime cycle) (hclock : r.clock = u.clock)
    (hr : u.OnTime start refusals (cycle + 1) r port) :
    u.OnTime start refusals (cycle + 1) r' port' ∧ port'.peer.inbox.items = [] := by
  cases h with
  | rests read next => exact hr.read hj hclock read
  | accepted read next =>
    obtain ⟨hread, hempty⟩ := hr.read hj hclock read
    exact ⟨hread.next? next _ _, by rw [← hempty, ← (ScriptedRequestor.kept_of_next? next).2.2]⟩
  | refused read next =>
    obtain ⟨hread, hempty⟩ := hr.read hj hclock read
    exact ⟨hread.next? next _ _, by rw [← hempty, ← (ScriptedRequestor.kept_of_next? next).2.2]⟩

end Simulation

namespace Plan

open Simulation
open ScriptedRequestor (Linked)

/-! ## The access in service -/

/-- The misses that were answered took the same time each and `cycles` together
at most, and `fetching` more were counted. -/
def Tally (u : Plan) (stats : CacheStats) (fetching cycles : Nat) : Prop :=
  ∃ count, (Histogram.empty 16).sampleAll (List.replicate count (u.tick (u.penalty true))) = .ok stats.missLatency ∧
    stats.misses = count + fetching ∧ count * u.penalty true ≤ cycles

/-- The requestor `i` awaits the response to an access, which its port does not have yet. -/
def Awaits (s : Simulation) (i : Nat) (access : Access) (accepted : Tick) : Prop :=
  ∃ r port issued, s.requestors[i]? = some r ∧ s.cache.cpuPorts[i]? = some port ∧
    r.outstanding = some ⟨access, issued, some accepted⟩ ∧ port.sent = []

/-- When the access in service was accepted, and when it is due, before the cycle `next`. -/
inductive OnSchedule (u : Plan) (start : Simulation) (next : Nat) (s : Simulation) : Prop
  | idle (service : s.cache.service = .idle) (tally : u.Tally s.cache.stats 0 next)
  | access {id cycle : Nat} {access : Access} (service : s.cache.service = .access id)
    (awaits : Awaits s id access (u.tick cycle))
    (pending : s.queue.pending = [(u.tick (cycle + u.geometry.latency), ⟨access.toPacket id⟩)])
    (le : next ≤ cycle + u.geometry.latency) (tally : u.Tally s.cache.stats 0 next)
  | fetch {id cycle : Nat} {access : Access} {kept : Option Packet} {p : Packet}
    (service : s.cache.service = .fetch id (u.tick (cycle + u.geometry.latency)) kept)
    (awaits : Awaits s id access (u.tick cycle))
    (lookedUp : LookedUp u.geometry.latency u.clock.period start ⟨u.tick cycle, id, access⟩ true)
    (ready : s.memory.ready = [])
    (inFlight : s.memory.inFlight.items = [⟨u.tick (cycle + u.geometry.latency + u.latency), p⟩])
    (lt : cycle + u.geometry.latency < next) (le : next ≤ cycle + u.geometry.latency + u.penalty true)
    (tally : u.Tally s.cache.stats 1 (cycle + u.geometry.latency))

/-- Everything is on time in a system that a run from `start` has reached before
the cycle `next`. -/
structure Timed (u : Plan) (start : Simulation) (refusals : Nat → Nat) (next : Nat) (s : Simulation) : Prop where
  reached : (steps next start).result = .ok s
  schedule : u.OnSchedule start next s
  onTime : ∀ i r port, s.requestors[i]? = some r → s.cache.cpuPorts[i]? = some port →
    u.OnTime start (refusals i) next r port ∧ port.peer.inbox.items = []

variable {u : Plan} {start s t v : Simulation} {refusals : Nat → Nat} {k j next : Nat} {done : List Acceptance}
  {current : Option Acceptance} {rest : Nat} {stats : CacheStats}

theorem Tally.mono {fetching cycles later : Nat} (h : u.Tally stats fetching cycles) (hle : cycles ≤ later) :
    u.Tally stats fetching later :=
  have ⟨count, hsamples, hmisses, hcycles⟩ := h
  ⟨count, hsamples, hmisses, Nat.le_trans hcycles hle⟩

theorem Tally.miss {cycles : Nat} (h : u.Tally stats 0 cycles) :
    u.Tally { stats with misses := stats.misses + 1 } 1 cycles :=
  have ⟨count, hsamples, hmisses, hcycles⟩ := h
  ⟨count, hsamples, congrArg (· + 1) hmisses, hcycles⟩

theorem Tally.fill {cycles : Nat} (h : u.Tally stats 1 cycles) {missLatency : Histogram}
    (hsample : stats.missLatency.sample (u.tick (u.penalty true)) = .ok missLatency) :
    u.Tally { stats with missLatency } 0 (cycles + u.penalty true) := by
  obtain ⟨count, hsamples, hmisses, hcycles⟩ := h
  refine ⟨count + 1, ?_, hmisses, ?_⟩
  · rw [List.replicate_succ', Histogram.sampleAll_concat, hsamples]
    exact hsample
  · rw [Nat.succ_mul]
    exact Nat.add_le_add_right hcycles _

theorem OnSchedule.tally (h : u.OnSchedule start next s) (ha : s.cache.toControl.Agrees) :
    ∃ cycles ≤ next, u.Tally s.cache.stats (s.cache.phase == .waitMem).toNat cycles := by
  cases h with
  | idle hs htally =>
    rw [ha.phase_eq hs]
    exact ⟨next, Nat.le_refl _, htally⟩
  | access hs _ _ _ htally =>
    rw [ha.phase_eq hs]
    exact ⟨next, Nat.le_refl _, htally⟩
  | fetch hs _ _ _ _ hlt _ htally =>
    rw [ha.phase_eq hs]
    exact ⟨_, Nat.le_of_lt hlt, htally⟩

/-! ## What a step serves -/

/-- Requestors that ask again are on time. -/
theorem Timed.asked (h : u.Timed start refusals j s) (hasks : ∀ port ∈ s.cache.cpuPorts, port.Asks) {i : Nat}
    {r : ScriptedRequestor} {port' : CpuSidePort Mailbox} (hr : s.requestors[i]? = some r)
    (hport : (s.cache.cpuPorts.map CpuSidePort.asked)[i]? = some port') :
    u.OnTime start (refusals i) (j + 1) r port' := by
  rw [List.getElem?_map, Option.map_eq_some_iff] at hport
  obtain ⟨port, hport, rfl⟩ := hport
  obtain ⟨htime, hmail⟩ := h.onTime i r port hr hport
  exact ⟨htime.paced.asked hmail (hasks port (List.mem_of_getElem? hport)), htime.punctual⟩

/-- A requestor whose access is answered in the cycle `j` is on time, and so are the others. -/
theorem Timed.answered (h : u.Timed start refusals j s) (hasks : ∀ port ∈ s.cache.cpuPorts, port.Asks)
    (hids : ∀ (i : Nat) r, s.requestors[i]? = some r → r.id = i) {id cycle : Nat} {access : Access} {missed : Bool}
    (hawaits : Awaits s id access (u.tick cycle))
    (hlooked : LookedUp u.geometry.latency u.clock.period start ⟨u.tick cycle, id, access⟩ missed)
    (hj : j = cycle + u.geometry.latency + u.penalty missed) {p : Packet} {i : Nat} {r : ScriptedRequestor}
    {port' : CpuSidePort Mailbox} (hr : s.requestors[i]? = some r)
    (hport : (Cache.answeredPorts (s.cache.cpuPorts.map CpuSidePort.asked) id p)[i]? = some port') :
    u.OnTime start (refusals i) (j + 1) r port' := by
  rw [Cache.getElem?_answeredPorts, Option.map_eq_some_iff] at hport
  obtain ⟨asked, hasked, rfl⟩ := hport
  have htime := h.asked hasks hr hasked
  refine ⟨Paced.notified ?_, htime.punctual⟩
  by_cases hi : id = i
  · subst hi
    rw [if_pos rfl]
    obtain ⟨r', port, issued, hr', hport, hout, hsent⟩ := hawaits
    obtain rfl := Option.some.inj (hr.symm.trans hr')
    obtain rfl : port = asked := by
      rw [List.getElem?_map, hport, Option.map_some,
        CpuSidePort.asked_of_free (ScriptedRequestor.parked_of_sent hsent)] at hasked
      exact Option.some.inj hasked
    have hrefuse := (h.onTime id r port hr hport).1.paced.refuse_eq hsent
    refine .of_delivered hout (hids id r hr ▸ hlooked) hsent (fun hne => ?_) ?_
    · rw [hrefuse, if_neg hne]
    · rw [hrefuse, hj]
  · rw [if_neg hi]
    exact htime.paced

/-- An access whose response is awaited is awaited by the same requestor, if no response comes. -/
theorem Awaits.asked {id : Nat} {access : Access} {accepted : Tick} (h : Awaits s id access accepted)
    (hrequestors : v.requestors = s.requestors) (hports : v.cache.cpuPorts = s.cache.cpuPorts.map CpuSidePort.asked) :
    Awaits v id access accepted := by
  obtain ⟨r, port, issued, hr, hport, hout, hsent⟩ := h
  refine ⟨r, port, issued, hrequestors ▸ hr, ?_, hout, hsent⟩
  rw [hports, List.getElem?_map, hport, Option.map_some,
    CpuSidePort.asked_of_free (ScriptedRequestor.parked_of_sent hsent)]

/-- An access that is due in the cycle `j` was accepted when the latency of the cache says. -/
theorem OnSchedule.exists_due (hu : u.Valid) (h : u.OnSchedule start j s) {id : Nat} {event : AccessEvent}
    (hservice : s.cache.service = .access id) (hpending : s.queue.pending = [(u.tick j, event)]) :
    ∃ cycle access, j = cycle + u.geometry.latency ∧ Awaits s id access (u.tick cycle) ∧
      s.queue.pending = [(u.tick j, ⟨access.toPacket id⟩)] ∧ u.Tally s.cache.stats 0 j := by
  cases h with
  | idle hservice' => cases hservice.symm.trans hservice'
  | fetch hservice' => cases hservice.symm.trans hservice'
  | @access id' cycle access hservice' hawaits hpending' hle htally =>
    obtain rfl : id = id' := Service.access.inj (hservice.symm.trans hservice')
    have htick : u.tick j = u.tick (cycle + u.geometry.latency) := by
      simpa using congrArg (·.map Prod.fst) (hpending.symm.trans hpending')
    have hle := hu.tick_le_tick.mp (Nat.le_of_eq htick)
    have hge := hu.tick_le_tick.mp (Nat.le_of_eq htick.symm)
    obtain rfl : j = cycle + u.geometry.latency := Nat.le_antisymm hle hge
    exact ⟨cycle, access, rfl, hawaits, hpending', htally⟩

/-- A block that comes in the cycle `j` was fetched when the latency of the memory says. -/
theorem OnSchedule.exists_fetched (hu : u.Valid) (h : u.OnSchedule start j s) {id : Nat} {since : Tick}
    {kept : Option Packet} (hservice : s.cache.service = .fetch id since kept)
    (hready : (s.begun (u.tick j)).memory.ready ≠ []) :
    ∃ cycle access, j = cycle + u.geometry.latency + u.penalty true ∧ since = u.tick (cycle + u.geometry.latency) ∧
      Awaits s id access (u.tick cycle) ∧
      LookedUp u.geometry.latency u.clock.period start ⟨u.tick cycle, id, access⟩ true ∧
      u.Tally s.cache.stats 1 (cycle + u.geometry.latency) := by
  cases h with
  | idle hservice' => cases hservice.symm.trans hservice'
  | access hservice' => cases hservice.symm.trans hservice'
  | @fetch id' cycle access _ _ hservice' hawaits hlooked hnone hflight hlt hlate htally =>
    obtain ⟨rfl, rfl, -⟩ := Service.fetch.inj (hservice.symm.trans hservice')
    have hdue : cycle + u.geometry.latency + u.latency ≤ j := by
      refine Nat.not_lt.mp fun hearly => hready ?_
      exact (TimedMemory.advanced_of_lt hnone hflight (hu.tick_lt_tick.mpr hearly)).1
    have hmax : u.penalty true = max u.latency 1 := rfl
    obtain rfl : j = cycle + u.geometry.latency + u.penalty true := by omega
    exact ⟨cycle, access, rfl, rfl, hawaits, hlooked, htally⟩

/-- A cycle in which nothing is due brings the access in service closer to the one in which it is. -/
theorem OnSchedule.quiet (hu : u.Valid) (h : u.OnSchedule start j s)
    (hready : (s.begun (u.tick j)).memory.ready = []) (hlater : ∀ tick ∈ s.queue.next?, u.tick j < tick) :
    u.OnSchedule start (j + 1) (s.begun (u.tick j)) := by
  have hlatency : u.latency ≤ u.penalty true := Nat.le_max_left _ _
  cases h with
  | idle hservice htally => exact .idle hservice (htally.mono (Nat.le_succ j))
  | access hservice hawaits hpending hle htally =>
    have hlt : j < _ := hu.tick_lt_tick.mp (hlater _ (by simp [EventQueue.next?, hpending]; rfl))
    exact .access hservice (hawaits.asked rfl rfl) hpending hlt (htally.mono (Nat.le_succ j))
  | @fetch _ cycle _ _ _ hservice hawaits hlooked hnone hflight hlt hle htally =>
    have hlater : j < cycle + u.geometry.latency + u.latency := by
      refine hu.tick_lt_tick.mp (Nat.not_le.mp fun hdue => ?_)
      have hcame := (TimedMemory.advanced_of_le hnone hflight hdue).1
      exact List.cons_ne_nil _ _ (hcame.symm.trans hready)
    obtain ⟨hnone', hflight'⟩ := TimedMemory.advanced_of_lt hnone hflight (hu.tick_lt_tick.mpr hlater)
    exact .fetch hservice (hawaits.asked rfl rfl) hlooked hnone' hflight' (by omega) (by omega) htally

/-- The step that counts a due access looks it up. -/
theorem Timed.lookedUp {cycle id : Nat} {access : Access} (missed : Bool)
    (h : u.Timed start refusals (cycle + u.geometry.latency) s)
    (hpending : s.queue.pending = [(u.tick (cycle + u.geometry.latency), ⟨access.toPacket id⟩)])
    (hstep : s.step.result = .ok t) (hstats : t.cache.stats = { s.cache.stats with
      hits := s.cache.stats.hits + (!missed).toNat, misses := s.cache.stats.misses + missed.toNat }) :
    LookedUp u.geometry.latency u.clock.period start ⟨u.tick cycle, id, access⟩ missed :=
  ⟨cycle, s, t, rfl, h.reached, hstep, hpending, congrArg CacheStats.hits hstats, congrArg CacheStats.misses hstats⟩

/-- What is served in a cycle is served in time. -/
theorem Serves.timed (hu : u.Valid) (h : u.Serves j s done current v) (hs : u.Timed start refusals j s)
    (hasks : ∀ port ∈ s.cache.cpuPorts, port.Asks) (hids : ∀ (i : Nat) r, s.requestors[i]? = some r → r.id = i)
    (hstep : s.step.result = .ok t) (hstats : t.cache.stats = v.cache.stats) :
    u.OnSchedule start (j + 1) v ∧ ∀ i r port, s.requestors[i]? = some r → v.cache.cpuPorts[i]? = some port →
      u.OnTime start (refusals i) (j + 1) r port := by
  cases h with
  | quiet hready hlater =>
    exact ⟨hs.schedule.quiet hu hready hlater, fun i r port hr hport => hs.asked hasks hr hport⟩
  | @hit a event d hservice hpending hports hidle hcount =>
    obtain ⟨cycle, access, rfl, hawaits, hpending', htally⟩ := hs.schedule.exists_due hu hservice hpending
    have hlooked := hs.lookedUp false hpending' hstep (hstats.trans hcount)
    refine ⟨.idle hidle ?_, fun i r port hr hport =>
      hs.answered hasks hids hawaits hlooked rfl hr (hports ▸ hport)⟩
    show u.Tally d.stats 0 _
    rw [hcount]
    exact htally.mono (Nat.le_succ _)
  | @miss a event d kept p hservice hpending hports hfetch hcount hready hflight =>
    obtain ⟨cycle, access, rfl, hawaits, hpending', htally⟩ := hs.schedule.exists_due hu hservice hpending
    have hlooked := hs.lookedUp true hpending' hstep (hstats.trans hcount)
    have hpositive : 1 ≤ u.penalty true := Nat.le_max_right _ _
    refine ⟨.fetch hfetch (hawaits.asked rfl hports) hlooked hready hflight (by omega) (by omega) ?_,
      fun i r port hr hport => hs.asked hasks hr ((congrArg (·[i]?) hports.symm).trans hport)⟩
    show u.Tally d.stats 1 _
    rw [hcount]
    exact htally.miss
  | @fill a d since kept p missLatency hservice hready hle hsample hports hidle hcount =>
    obtain ⟨cycle, access, rfl, rfl, hawaits, hlooked, htally⟩ := hs.schedule.exists_fetched hu hservice
      (hready.symm ▸ List.cons_ne_nil _ _)
    refine ⟨.idle hidle ?_, fun i r port hr hport =>
      hs.answered hasks hids hawaits hlooked rfl hr (hports ▸ hport)⟩
    show u.Tally d.stats 0 _
    rw [tick_add, Nat.add_sub_cancel_left] at hsample
    rw [hcount]
    exact (htally.fill hsample).mono (Nat.le_succ _)

/-! ## What the requestors do -/

/-- Who awaits a response in vain still does after its turn. -/
theorem Awaits.played (hplays : Plays j 0 v.requestors v t.requestors t)
    (hlength : v.requestors.length = t.requestors.length) (hports : t.requestors.length = t.cache.cpuPorts.length)
    {id : Nat} {access : Access} {accepted : Tick} (h : Awaits v id access accepted) :
    Awaits t id access accepted := by
  obtain ⟨r, port, issued, hr, hport, hout, hsent⟩ := h
  obtain ⟨hmail, hparked⟩ := CpuSidePort.sent_eq_nil.mp hsent
  have hlt : id < t.requestors.length := hlength ▸ (List.getElem?_eq_some_iff.mp hr).1
  have hr' := List.getElem?_eq_getElem hlt
  have hport' := List.getElem?_eq_getElem (hports ▸ hlt)
  obtain ⟨r₀, port₀, hr₀, hport₀, hturned⟩ := hplays.turned id _ _ hr' (by rwa [Nat.zero_add])
  rw [Nat.zero_add] at hport₀
  obtain rfl := Option.some.inj (hr.symm.trans hr₀)
  obtain rfl := Option.some.inj (hport.symm.trans hport₀)
  have hread : ∀ {r₁ m}, (r.cycle j port.peer).result = .ok (r₁, m) →
      r₁.outstanding = some ⟨access, issued, some accepted⟩ ∧ m = port.peer.empty.2 := by
    intro r₁ m hread
    obtain ⟨rfl, now, -, hfold⟩ := ScriptedRequestor.cycle_eq_ok hread
    rw [hmail] at hfold
    obtain rfl := Except.ok.inj hfold
    exact ⟨hout, rfl⟩
  generalize t.requestors[id] = r' at hr' hturned
  generalize t.cache.cpuPorts[id] = port' at hport' hturned
  cases hturned with
  | rests read next =>
    obtain ⟨hout', rfl⟩ := hread read
    exact ⟨_, _, issued, hr', hport', hout', CpuSidePort.sent_eq_nil.mpr ⟨rfl, hparked⟩⟩
  | accepted read next => simp [ScriptedRequestor.next?, (hread read).1] at next
  | refused read next => simp [ScriptedRequestor.next?, (hread read).1] at next

/-- A requestor whose access is served, but was not before its turn, has offered it in its turn. -/
theorem tick_of_turned {r r' : ScriptedRequestor} {port port' : CpuSidePort Mailbox}
    (h : Turned j r port r' port') {script : List Access} {given : List (Acceptance × Bytes)}
    (hl : Linked script given none r port) {now : Tick} (hclock : r.clock.ticksOf j = .ok now) (hnow : r.now ≤ now)
    (hpast : ∀ g ∈ given, g.1.tick < now) {access : Access} {issued accepted : Tick}
    (hout : r'.outstanding = some ⟨access, issued, some accepted⟩) (hsent : port'.sent = []) : accepted = now := by
  obtain ⟨r₀, hread, hl₀, -, -, hnow₀⟩ := hl.cycle hclock hnow hpast
  obtain ⟨turn, hat⟩ := hl₀.exists_at
  cases h with
  | rests read next =>
    obtain ⟨rfl, rfl⟩ := Prod.mk.inj (Except.ok.inj (hread.symm.trans read))
    obtain ⟨unread, hx, -⟩ := hl₀.exchange
    cases hx with
    | free ht => cases ht.outstanding.symm.trans hout
    | refused ht => cases ht.outstanding.symm.trans hout
    | answered _ _ hs => exact absurd (hs.symm.trans hsent) (List.cons_ne_nil _ _)
  | refused read next =>
    obtain ⟨rfl, rfl⟩ := Prod.mk.inj (Except.ok.inj (hread.symm.trans read))
    obtain ⟨_, _, -, hsending, -⟩ := hat.exists_sends next
    cases (hsending.concluded _).outstanding.symm.trans hout
  | accepted read next =>
    obtain ⟨rfl, rfl⟩ := Prod.mk.inj (Except.ok.inj (hread.symm.trans read))
    obtain ⟨_, _, -, hsending, hsame⟩ := hat.exists_sends next
    cases (hsending.concluded .accepted).outstanding.symm.trans hout
    exact hsame.trans hnow₀

/-- The access that an idle cache accepts in the cycle `j` is awaited from then on. -/
theorem awaits_of_accepted {n : Nat} (hduring : u.During k j v.requestors v done current rest) (hj : u.InTime j)
    (hplays : Plays j 0 v.requestors v t.requestors t) {done' : List Acceptance} {current' : Option Acceptance}
    {rest' : Nat} (ht : u.Between n (j + 1) t done' current' rest') (hidle : v.cache.service = .idle) {id : Nat}
    (hservice : t.cache.service = .access id) :
    ∃ access tick, t.queue.pending = [(tick, ⟨access.toPacket id⟩)] ∧ Awaits t id access (u.tick j) := by
  have hwaiting := ht.runs.waitingPort
  rw [ht.runs.consistent.sane.agrees.waitingPort_eq hservice] at hwaiting
  obtain ⟨a, rfl, rfl⟩ : ∃ a, current' = some a ∧ a.id = id := by
    obtain ⟨a, ha, hid⟩ := Option.map_eq_some_iff.mp hwaiting.symm
    exact ⟨a, ha, hid⟩
  obtain ⟨tick, hpending⟩ : ∃ tick, t.queue.pending = [(tick, ⟨a.access.toPacket a.id⟩)] := by
    have hstage : Cache.Stage u.Domain t.cache t.queue (some (a.id, a.access.toPacket a.id)) := ht.runs.consistent.stage
    cases hstage with
    | access _ _ hpending => exact ⟨_, hpending⟩
    | fetch hs => cases hservice.symm.trans hs
  have hlt : a.id < t.requestors.length := by
    rw [ht.attached.count]
    exact ht.attached.known a (by simp)
  obtain ⟨port', hport'⟩ := ht.attached.exists_port (List.getElem?_eq_getElem hlt)
  have hr' := List.getElem?_eq_getElem hlt
  generalize t.requestors[a.id] = r' at hr'
  obtain ⟨r, port, hr, hport, hturned⟩ := hplays.turned a.id r' port' hr' (by rwa [Nat.zero_add])
  rw [Nat.zero_add] at hport
  obtain rfl := hduring.runs.current_of_idle hidle
  obtain ⟨-, hclock, hnow, hl⟩ := hduring.attached.linked a.id r port hr hport
  obtain ⟨-, -, -, hl'⟩ := ht.attached.linked a.id r' port' hr' hport'
  obtain ⟨unread, hx, -⟩ := hl'.exchange
  rw [Option.filter_some_pos (by simp)] at hx
  cases hx with
  | served hat _ hsent =>
    obtain rfl := tick_of_turned hturned hl (by rw [hclock]; exact hj.ticksOf) hnow
      (fun g hg => hduring.past _ (mem_of_mem_given hg)) hat.outstanding hsent
    exact ⟨_, tick, hpending, _, _, _, hr', hport', hat.outstanding, hsent⟩

/-- After the requestors have played, the access in service is on schedule, whether
it was accepted in this cycle or before. -/
theorem OnSchedule.played {n : Nat} (hu : u.Valid) (h : u.OnSchedule start (j + 1) v)
    (hduring : u.During k j v.requestors v done current rest) (hj : u.InTime j)
    (hplays : Plays j 0 v.requestors v t.requestors t) {done' : List Acceptance} {current' : Option Acceptance}
    {rest' : Nat} (ht : u.Between n (j + 1) t done' current' rest') : u.OnSchedule start (j + 1) t := by
  have hlength : v.requestors.length = t.requestors.length := hduring.attached.count.trans ht.attached.count.symm
  have hstats : t.cache.stats = v.cache.stats := by rw [hplays.admits.cache]
  have hmemory : t.memory = v.memory := by rw [Simulation.memory, hplays.admits.cache]; rfl
  have hawaits : ∀ {id access accepted}, Awaits v id access accepted → Awaits t id access accepted :=
    Awaits.played hplays hlength ht.attached.length
  rcases hplays.admits.queue with ⟨hcontrol, hqueue⟩ | ⟨hfree, ⟨id, hcontrol⟩, tick, event, hedge, hqueue⟩
  · have hsame := congrArg Control.service hcontrol
    cases h with
    | idle hs htally => exact .idle (hsame.trans hs) (hstats ▸ htally)
    | access hs hw hp hle htally => exact .access (hsame.trans hs) (hawaits hw) (hqueue ▸ hp) hle (hstats ▸ htally)
    | fetch hs hw hl hr hf hlt hle htally =>
      exact .fetch (hsame.trans hs) (hawaits hw) hl (hmemory ▸ hr) (hmemory ▸ hf) hlt hle (hstats ▸ htally)
  · have hidle := hduring.runs.consistent.sane.agrees.service_eq_idle_iff.mpr hfree
    have hservice : t.cache.service = .access id := congrArg Control.service hcontrol
    have htally : u.Tally v.cache.stats 0 (j + 1) := by
      cases h with
      | idle _ htally => exact htally
      | access hs => cases hidle.symm.trans hs
      | fetch hs => cases hidle.symm.trans hs
    -- the access was accepted just now, for the next edge that the latency of the cache allows
    have htick : u.tick (j + u.geometry.latency) = tick := by
      rw [hduring.runs.geometry, hj.edge hu hduring.runs.clock hduring.now] at hedge
      exact Except.ok.inj hedge
    have hpending : t.queue.pending = [(u.tick (j + u.geometry.latency), event)] := by
      rw [hqueue, htick, hduring.runs.pending (by simp [hidle])]
      rfl
    obtain ⟨access, tick', hpending', haccepted⟩ := awaits_of_accepted hduring hj hplays ht hidle hservice
    obtain rfl : event = ⟨access.toPacket id⟩ := by
      simpa using congrArg (·.map Prod.snd) (hpending.symm.trans hpending')
    have hlatency := hu.cacheLatency
    exact .access hservice haccepted hpending (by omega) (hstats ▸ htally)

/-- A step keeps everything on time. -/
theorem Between.step_timed (hu : u.Valid) (h : u.Between k j s done current rest) (hj : u.InTime j)
    (hk : k + 1 < Word.bound) (hstep : s.step.result = .ok t) {n : Nat} {done' : List Acceptance}
    {current' : Option Acceptance} {rest' : Nat} (ht : u.Between n (j + 1) t done' current' rest')
    (hs : u.Timed start refusals j s) : u.Timed start refusals (j + 1) t := by
  obtain ⟨v, done₁, current₁, rest₁, hserved, hserves, hplays⟩ := h.step_cases hu hj hk hstep
  have hduring := hserved.during
  have hstats : t.cache.stats = v.cache.stats := by rw [hplays.admits.cache]
  obtain ⟨hschedule, htime⟩ := hserves.timed hu hs h.attached.asks (fun i r hr => h.attached.id_eq hr) hstep hstats
  refine ⟨?_, ?_, fun i r' port' hr' hport' => ?_⟩
  · rw [result_steps_succ, hs.reached]
    exact hstep
  · rw [← hserved.requestors] at hplays hduring
    exact hschedule.played hu hduring hj hplays ht
  · obtain ⟨r, port, hr, hport, hturned⟩ := hplays.turned i r' port' hr' (by rwa [Nat.zero_add])
    rw [Nat.zero_add] at hport
    obtain ⟨-, hclock, -⟩ := hduring.attached.linked i r port hr hport
    exact hturned.onTime hj hclock (htime i r port hr hport)

end Plan

namespace Simulation

variable {config : Config} {trace : Trace}

/-- Before the first cycle, nothing was accepted and no response was refused. -/
theorem timed_initial (store : Store) (bytes : Chunks) :
    (plan config trace bytes.byte).Timed (initial config trace store bytes)
      (fun i => (trace.script i).refuseResponses.toNat) 0 (initial config trace store bytes) where
  reached := rfl
  schedule := .idle rfl ⟨0, rfl, rfl, Nat.le_of_eq (Nat.zero_mul _)⟩
  onTime i r port hr hport := by
    obtain ⟨-, rfl⟩ := getElem?_range_map _ hr
    obtain ⟨hpeer, hparked, -⟩ := port_initial hport
    have hmail : port.peer.inbox.items = [] := by
      rw [hpeer]
      rfl
    refine ⟨⟨.rests (CpuSidePort.sent_eq_nil.mpr ⟨hmail, hparked⟩) ?_, fun x c hc => ?_⟩, hmail⟩
    · rw [hpeer]
      rfl
    · cases hc

/-- Whatever the configuration, and whatever bytes the memory holds first, every
access is answered as late as the latencies make it: that of the cache, that of
the memory or one cycle if it missed, and as many cycles as responses are refused
if it is the first one of its requestor.  All misses take the same time. -/
theorem steps_timing (hv : config.validate = .ok ())
    (hports : trace.scripts.length ≤ config.cache.ports.toNat)
    (hfits : trace.FitsIn config.lineSize.toNat config.memory.range.bytes.toNat)
    {bytes : Chunks} (hbytes : bytes.Valid) {n : Nat}
    (htime : (n - 1 + max config.cache.latency.toNat config.memory.latency.toNat) *
      config.clockPeriod.toNat < 2 ^ 63) :
    ∃ s t, (build config trace).result = .ok (.ok s) ∧ (steps n (s.loaded bytes)).result = .ok t ∧
      (∀ i < config.cache.ports.toNat, ∃ r, t.requestors[i]? = some r ∧
        ∀ (x : Nat) c, r.completions[x]? = some c → ∃ missed,
          LookedUp config.cache.latency.toNat config.clockPeriod.toNat (s.loaded bytes) ⟨c.accepted, i, c.access⟩
            missed ∧
          c.responded = c.accepted + (config.cache.latency.toNat +
            (if missed then max config.memory.latency.toNat 1 else 0) +
            (if x = 0 then (trace.script i).refuseResponses.toNat else 0)) * config.clockPeriod.toNat) ∧
      ∃ answered, t.cache.stats.misses = answered + (t.cache.phase == .waitMem).toNat ∧
        (Histogram.empty 16).sampleAll
          (List.replicate answered (max config.memory.latency.toNat 1 * config.clockPeriod.toNat)) =
            .ok t.cache.stats.missLatency ∧
        t.cache.stats.missLatency.samples = answered ∧
        t.cache.stats.missLatency.sum =
          answered * (max config.memory.latency.toNat 1 * config.clockPeriod.toNat) ∧
        t.cache.stats.missLatency.min = t.cache.stats.missLatency.max ∧
        (t.isDone → t.cache.stats.misses = answered) := by
  have hc := Config.checked_of_validate hv
  have hu : (plan config trace bytes.byte).Valid := valid_plan hc hfits
  obtain ⟨s, t, done, current, rest, hbuild, hsteps, ht, htimed⟩ := exists_steps
    (I := fun start j t => (plan config trace bytes.byte).Timed start
      (fun i => (trace.script i).refuseResponses.toNat) j t)
    hv hports hfits hbytes htime (fun store => timed_initial store bytes)
    fun h hj hk hstep ht hs => h.step_timed hu hj hk hstep ht hs
  refine ⟨s, t, hbuild, hsteps, fun i hi => ?_, ?_⟩
  · have hlt : i < t.requestors.length := by
      rw [ht.attached.count]
      exact hi
    have hr := List.getElem?_eq_getElem hlt
    obtain ⟨port, hport⟩ := ht.attached.exists_port hr
    have hid := ht.attached.id_eq hr
    refine ⟨_, hr, fun x c hx => ?_⟩
    obtain ⟨missed, hlooked, hresponded⟩ := (htimed.onTime i _ port hr hport).1.punctual x c hx
    rw [hid] at hlooked
    exact ⟨missed, hlooked, hresponded⟩
  · have hagrees := ht.runs.consistent.sane.agrees
    obtain ⟨cycles, hle, answered, hsamples, hmisses, hcycles⟩ := htimed.schedule.tally hagrees
    have hbound : answered * (plan config trace bytes.byte).tick ((plan config trace bytes.byte).penalty true) <
        Word.bound := by
      have hlast : n ≤ n - 1 + max config.cache.latency.toNat config.memory.latency.toNat := by
        have := hu.cacheLatency
        have hlatency : 0 < config.cache.latency.toNat := this
        omega
      rw [Plan.tick, ← Nat.mul_assoc]
      have hmul := Nat.mul_le_mul_right config.clockPeriod.toNat (Nat.le_trans hcycles (Nat.le_trans hle hlast))
      exact Nat.lt_trans (Nat.lt_of_le_of_lt hmul htime) (by decide)
    obtain ⟨hcount, hsum, hmin, hmax⟩ := Histogram.sampleAll_replicate hsamples hbound
    refine ⟨answered, hmisses, hsamples, hcount, hsum, hmin.trans hmax.symm, fun hdone => ?_⟩
    rw [hmisses, hagrees.phase_eq (hagrees.service_eq_idle_iff.mpr (free_of_isDone hdone))]
    rfl

/-- The theorem at two requestors that compete for the cache and refuse responses, and complete
three accesses each. -/
theorem steps_timing_of_small :
    ∃ s t, (build smallConfig ⟨[smallScript, smallScript]⟩).result = .ok (.ok s) ∧
      (steps 60 (s.loaded .empty)).result = .ok t ∧ (t.requestors.flatMap (·.completions)).length = 6 ∧
      (∀ i < smallConfig.cache.ports.toNat, ∃ r, t.requestors[i]? = some r ∧
        ∀ (x : Nat) c, r.completions[x]? = some c → ∃ missed,
          LookedUp smallConfig.cache.latency.toNat smallConfig.clockPeriod.toNat (s.loaded .empty)
            ⟨c.accepted, i, c.access⟩ missed ∧
          c.responded = c.accepted + (smallConfig.cache.latency.toNat +
            (if missed then max smallConfig.memory.latency.toNat 1 else 0) +
            (if x = 0 then (Trace.script ⟨[smallScript, smallScript]⟩ i).refuseResponses.toNat else 0)) *
              smallConfig.clockPeriod.toNat) ∧
      ∃ answered, t.cache.stats.misses = answered + (t.cache.phase == .waitMem).toNat ∧
        (Histogram.empty 16).sampleAll
          (List.replicate answered (max smallConfig.memory.latency.toNat 1 * smallConfig.clockPeriod.toNat)) =
            .ok t.cache.stats.missLatency ∧
        t.cache.stats.missLatency.samples = answered ∧
        t.cache.stats.missLatency.sum =
          answered * (max smallConfig.memory.latency.toNat 1 * smallConfig.clockPeriod.toNat) ∧
        t.cache.stats.missLatency.min = t.cache.stats.missLatency.max ∧
        (t.isDone → t.cache.stats.misses = answered) := by
  obtain ⟨s, t, hbuild, hsteps, h⟩ := @steps_timing smallConfig ⟨[smallScript, smallScript]⟩ (by decide) (by decide)
    (by decide) _ Chunks.valid_empty 60 (by decide)
  have hrun : ((build smallConfig ⟨[smallScript, smallScript]⟩).result.toOption.bind fun built =>
      built.toOption.bind fun s => (steps 60 (s.loaded .empty)).result.toOption.map fun t =>
        (t.requestors.flatMap (·.completions)).length) = some 6 := by rfl
  rw [hbuild] at hrun
  simp only [Except.toOption, Option.bind_some, hsteps, Option.map_some, Option.some.injEq] at hrun
  exact ⟨s, t, hbuild, hsteps, hrun, h⟩

end Simulation

end CacheSim
