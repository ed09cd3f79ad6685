import CacheSim.Proofs.Simulation.Cycle

/-!
# The requestors play

A requestor that plays reads its mail and makes an offer, if it has one
(`During.play`).  Its offer is refused while an access is in service and accepted
otherwise, so at most one is accepted in a cycle (`During.playAll`).  If none is,
every requestor is done or has refused a response.
-/

namespace CacheSim

namespace Simulation

variable {s : Simulation} {cycle : Nat} {r r₁ r₂ r₃ : ScriptedRequestor} {port : CpuSidePort Mailbox}
  {m₁ m₂ : Mailbox} {offer : Offer}

theorem result_play_of_none (hport : s.cache.cpuPorts[r.id]? = some port)
    (hcycle : (r.cycle cycle port.peer).result = .ok (r₁, m₁)) (hid : r₁.id = r.id)
    (hnext : r₁.next? m₁ = none) :
    (s.play cycle r).result =
      .ok (r₁, s.withPorts (s.cache.cpuPorts.set r.id { port with peer := m₁ })) := by
  simp [play, mailbox_eq_ok hport, hcycle, hnext, hid, withMailbox_eq hport]

theorem result_play_of_some (hport : s.cache.cpuPorts[r.id]? = some port)
    (hcycle : (r.cycle cycle port.peer).result = .ok (r₁, m₁)) (hnext : r₁.next? m₁ = some (offer, r₂, m₂))
    (hid : r₂.id = r.id) {handshake : Handshake} {cache : Cache Mailbox TimedMemory}
    {queue : EventQueue AccessEvent}
    (hoffer : ((s.withPorts (s.cache.cpuPorts.set r.id { port with peer := m₂ })).cache.offer s.queue r.id
      offer.packet).result = .ok (handshake, cache, queue))
    (hconclude : (r₂.conclude handshake).result = .ok r₃) :
    (s.play cycle r).result = .ok (r₃, { s with cache, queue }) := by
  have hoffer' : ((s.withPorts (s.cache.cpuPorts.set r.id { port with peer := m₂ })).cache.offer
      (s.withPorts (s.cache.cpuPorts.set r.id { port with peer := m₂ })).queue r.id offer.packet).result =
        .ok (handshake, cache, queue) := hoffer
  simp [play, mailbox_eq_ok hport, hcycle, hnext, hid, withMailbox_eq hport, ScriptedRequestor.issue, hoffer',
    hconclude]
  exact ⟨rfl, rfl, rfl⟩

end Simulation

namespace Plan

open Simulation
open ScriptedRequestor (Linked Offers)

variable {u : Plan} {k j : Nat} {s t : Simulation} {done : List Acceptance}
  {current current' : Option Acceptance} {rest rest' : Nat} {before after : List ScriptedRequestor}
  {r r' : ScriptedRequestor} {port : CpuSidePort Mailbox} {i : Nat}

/-- What playing does not change of a port: the refusals that are left, and the
response that is held. -/
def stays (port : CpuSidePort Mailbox) : Nat × Option Packet :=
  (port.peer.refuse, port.parked)

/-- The requestor at a port is done, or has refused a response. -/
def Settled (ports : List (CpuSidePort Mailbox)) (i : Nat) (r : ScriptedRequestor) : Prop :=
  r.isDone ∨ ∃ port, ports[i]? = some port ∧ port.parked ≠ none

/-- The requestors `played` played, between those that did before and those that
will: an offer was accepted, or nothing is in service that was not before. -/
structure Played (u : Plan) (k j : Nat) (before played after : List ScriptedRequestor) (s t : Simulation)
    (done : List Acceptance) (current : Option Acceptance) (rest : Nat) (current' : Option Acceptance)
    (rest' : Nat) : Prop where
  during : u.During k j (before ++ (played ++ after)) t done current' rest'
  stays : t.cache.cpuPorts.map Plan.stays = s.cache.cpuPorts.map Plan.stays
  progress : current' = current ∧ rest' = rest ∨
    current = none ∧ (∃ a, current' = some a) ∧ rest' + 1 = u.geometry.latency + max u.latency 1
  settled : current' = none → ∀ i r, played[i]? = some r → Settled t.cache.cpuPorts (before.length + i) r

theorem Settled.of_stays {ports others : List (CpuSidePort Mailbox)} {i : Nat} (h : Settled others i r)
    (hs : ports.map stays = others.map stays) : Settled ports i r := by
  refine h.imp_right fun ⟨other, hother, hparked⟩ => ?_
  have hget := congrArg (·[i]?) hs
  simp only [List.getElem?_map, hother, Option.map_some, Option.map_eq_some_iff] at hget
  obtain ⟨port, hport, heq⟩ := hget
  have hsame : port.parked = other.parked := congrArg Prod.snd heq
  exact ⟨port, hport, hsame ▸ hparked⟩

theorem Wait.of_eq {c d : Cache Mailbox TimedMemory} {q : EventQueue AccessEvent} {next : Nat}
    (h : u.Wait c q next rest) (hs : d.service = c.service) (hm : d.memPort = c.memPort) :
    u.Wait d q next rest := by
  cases h with
  | idle hi => exact .idle (hs.trans hi)
  | access hi hq hle => exact .access (hs.trans hi) hq hle
  | fetch hi hr hf => exact .fetch (hs.trans hi) (hm ▸ hr) (hm ▸ hf)

theorem map_stays_set {ports : List (CpuSidePort Mailbox)} {i : Nat} (h : ports[i]? = some port)
    {port' : CpuSidePort Mailbox} (hs : stays port' = stays port) :
    (ports.set i port').map stays = ports.map stays := by
  obtain ⟨hi, rfl⟩ := List.getElem?_eq_some_iff.mp h
  rw [List.map_set, hs, ← List.getElem_map stays (h := by simpa using hi), List.set_getElem_self]

/-- The requestor and its port change, and nothing new is in service. -/
theorem During.played (h : u.During k j (before ++ r :: after) s done current rest)
    (hport : s.cache.cpuPorts[before.length]? = some port) (r' : ScriptedRequestor)
    (port' : CpuSidePort Mailbox) (hid : r'.id = before.length) (hclock : r'.clock = u.clock)
    (hnow : r'.now = u.tick j) (hl : Linked (u.script before.length) (u.given done before.length)
      (current.filter (·.id == before.length)) r' port')
    (hstays : stays port' = stays port) (hneeds : port'.needsRetry → current ≠ none)
    (hsettled : current = none → r'.isDone ∨ port'.parked ≠ none) :
    u.Played k j before [r'] after s (s.withPorts (s.cache.cpuPorts.set before.length port')) done current rest
      current rest := by
  have hlt := (List.getElem?_eq_some_iff.mp hport).1
  have hset : (before ++ r :: after).set before.length r' = before ++ ([r'] ++ after) := by
    rw [List.set_append_right _ _ (Nat.le_refl _), Nat.sub_self]
    rfl
  have hparked : port'.parked = port.parked := congrArg Prod.snd hstays
  refine ⟨⟨h.clock, h.nextCycle, h.now, ?_, ?_, h.wait.of_eq rfl rfl, h.sorted, h.past, h.recent⟩,
    map_stays_set hport hstays, .inl ⟨rfl, rfl⟩, fun hnone i w hw => ?_⟩
  · exact h.runs.setCpuPort hport port' hparked
  · rw [← hset]
    exact h.attached.set (by simp) hid hclock (Nat.le_of_eq hnow) hl (fun _ _ => rfl) hneeds (fun hn => hn)
      fun a ha => h.attached.known a (List.mem_append_right _ (by simpa using ha))
  · obtain ⟨rfl, rfl⟩ : i = 0 ∧ w = r' := by
      rw [List.getElem?_singleton] at hw
      split at hw
      · exact ⟨‹_›, (Option.some.inj hw).symm⟩
      · cases hw
    exact (hsettled hnone).imp_right fun hp => ⟨port', List.getElem?_set_self hlt, hp⟩

/-- The requestor has no offer: it is done or waits. -/
theorem During.played_of_none (h : u.During k j (before ++ r :: after) s done current rest)
    (hport : s.cache.cpuPorts[before.length]? = some port)
    (hid : r'.id = before.length) (hclock : r'.clock = u.clock) (hnow : r'.now = u.tick j)
    (hl : Linked (u.script before.length) (u.given done before.length)
      (current.filter (·.id == before.length)) r' { port with peer := port.peer.empty.2 })
    (hwhy : current.filter (·.id == before.length) ≠ none ∨ port.needsRetry ∨ r'.isDone ∨
      CpuSidePort.sent { port with peer := port.peer.empty.2 } ≠ []) :
    u.Played k j before [r'] after s
      (s.withPorts (s.cache.cpuPorts.set before.length { port with peer := port.peer.empty.2 })) done current
      rest current rest := by
  have hneeds : port.needsRetry → current ≠ none := h.attached.waits port (List.mem_of_getElem? hport)
  refine h.played hport r' _ hid hclock hnow hl rfl hneeds fun hnone => ?_
  rcases hwhy with hown | hretry | hdone | hsent
  · simp [hnone] at hown
  · exact absurd hnone (hneeds hretry)
  · exact .inl hdone
  · exact .inr fun hp => hsent (by
      show [] ++ port.parked.toList = []
      rw [hp]
      rfl)

/-- The requestor at the port `i` has read its mail and makes an offer, for which it
takes the signal from its mailbox. -/
structure Makes (u : Plan) (j : Nat) (s : Simulation) (done : List Acceptance) (i : Nat)
    (port : CpuSidePort Mailbox) (r r' : ScriptedRequestor) (m : Mailbox) (access : Access) (issued : Tick) :
    Prop where
  play : ∀ {handshake : Handshake} {cache : Cache Mailbox TimedMemory} {queue : EventQueue AccessEvent}
    {r₃ : ScriptedRequestor},
    ((s.withPorts (s.cache.cpuPorts.set i { port with peer := m })).cache.offer s.queue i
      (access.toPacket i)).result = .ok (handshake, cache, queue) →
    (r'.conclude handshake).result = .ok r₃ → (s.play j r).result = .ok (r₃, { s with cache, queue })
  id : r'.id = i
  clock : r'.clock = u.clock
  now : r'.now = u.tick j
  refuse : m.refuse = port.peer.refuse
  offers : Offers (u.script i) (u.given done i) r' { port with peer := m } access issued

/-- A requestor that reads its mail has no offer, or makes one. -/
theorem During.play_cases (h : u.During k j (before ++ r :: after) s done current rest) (hj : u.InTime j)
    (hport : s.cache.cpuPorts[before.length]? = some port) :
    (∃ r' t, (s.play j r).result = .ok (r', t) ∧
      u.Played k j before [r'] after s t done current rest current rest) ∨
    ∃ r' m access issued, current.filter (·.id == before.length) = none ∧
      u.Makes j s done before.length port r r' m access issued := by
  have hr : (before ++ r :: after)[before.length]? = some r := by simp
  obtain ⟨hid, hclock, hnow, hl⟩ := h.attached.linked _ r port hr hport
  obtain ⟨r₁, hcycle, hl₁, hid₁, hclock₁, hnow₁⟩ :=
    hl.cycle (by rw [hclock]; exact hj.ticksOf) hnow fun g hg => h.past _ (mem_of_mem_given hg)
  have hport' : s.cache.cpuPorts[r.id]? = some port := hid ▸ hport
  rcases hl₁.next?_cases with ⟨hnext, hwhy⟩ |
    ⟨access, issued, r₂, m, hnext, hown, hid₂, hclock₂, hnow₂, hrefuse, ho⟩
  · refine .inl ⟨r₁, _, result_play_of_none hport' hcycle hid₁ hnext, ?_⟩
    rw [hid]
    exact h.played_of_none hport (hid₁.trans hid) (hclock₁.trans hclock) hnow₁ hl₁ hwhy
  · refine .inr ⟨r₂, m, access, issued, hown, fun hoffer hconclude => ?_, hid₂.trans (hid₁.trans hid),
      hclock₂.trans (hclock₁.trans hclock), hnow₂.trans hnow₁, hrefuse, ho⟩
    rw [← hid] at hoffer
    rw [hid₁] at hnext
    exact result_play_of_some hport' hcycle hnext (hid₂.trans hid₁) hoffer hconclude

variable {m : Mailbox} {access : Access} {issued : Tick}

theorem Makes.mem_script (h : u.Makes j s done i port r r' m access issued) : access ∈ u.script i := by
  rw [← h.offers.accesses]
  simp [ScriptedRequestor.accesses, h.offers.sending.outstanding]

/-- An idle cache accepts the offer: its access is in service, and is answered
`latency` cycles of the cache and of the memory later at the latest. -/
theorem During.played_of_accepted (hu : u.Valid) (h : u.During k j (before ++ r :: after) s done none rest)
    (hport : s.cache.cpuPorts[before.length]? = some port)
    (ho : u.Makes j s done before.length port r r' m access issued) :
    ∃ rest', u.Played k j before [r'.concluded .accepted] after s
      { s with
        cache := (s.cache.setCpuPort before.length { port with peer := m }).serving (.access before.length)
        queue := { s.queue with
          pending := EventQueue.place (u.tick (j + u.geometry.latency)) ⟨access.toPacket before.length⟩
            s.queue.pending } }
      done none rest (some ⟨u.tick j, before.length, access⟩) rest' := by
  have hlt := (List.getElem?_eq_some_iff.mp hport).1
  have hfree := ScriptedRequestor.parked_of_sent ho.offers.sent
  have hset : (before ++ r :: after).set before.length (r'.concluded .accepted) =
      before ++ ([r'.concluded .accepted] ++ after) := by
    rw [List.set_append_right _ _ (Nat.le_refl _), Nat.sub_self]
    rfl
  have hplace : EventQueue.place (u.tick (j + u.geometry.latency)) ⟨access.toPacket before.length⟩ s.queue.pending =
      [(u.tick (j + u.geometry.latency), ⟨access.toPacket before.length⟩)] := by
    rw [h.runs.pending (by simp [h.runs.idle])]
    rfl
  have hruns := (h.runs.setCpuPort hport { port with peer := m } rfl).offered hu
    (a := ⟨u.tick j, before.length, access⟩) ho.mem_script (List.getElem?_set_self hlt) hfree
    (u.tick (j + u.geometry.latency))
  have hlatency := hu.cacheLatency
  refine ⟨j + u.geometry.latency - (j + 1) + max u.latency 1, ⟨h.clock, h.nextCycle, h.now, hruns, ?_, ?_, ?_,
    h.past, ?_⟩, map_stays_set hport ?_, .inr ⟨rfl, ⟨_, rfl⟩, by omega⟩, fun hn => by cases hn⟩
  · rw [← hset]
    exact h.attached.accepted (by simp) ho.id ho.clock ho.now ho.offers
  · exact .access (Cache.service_serving _ _) hplace (by omega)
  · have hsorted : done.Pairwise (·.tick < ·.tick) := by simpa using h.sorted
    refine List.pairwise_append.mpr ⟨hsorted, by simp, fun a ha b hb => ?_⟩
    obtain rfl : b = ⟨u.tick j, before.length, access⟩ := by simpa using hb
    exact h.past a ha
  · intro a ha
    obtain rfl := Option.some.inj ha
    exact Nat.le_refl _
  · simp [Plan.stays, ho.refuse]

/-- A requestor plays, whose offer is accepted. -/
theorem During.play_of_idle (hu : u.Valid) (h : u.During k j (before ++ r :: after) s done none rest)
    (hj : u.InTime j) (hport : s.cache.cpuPorts[before.length]? = some port)
    (ho : u.Makes j s done before.length port r r' m access issued) :
    ∃ r₃ t current' rest', (s.play j r).result = .ok (r₃, t) ∧
      u.Played k j before [r₃] after s t done none rest current' rest' := by
  have hset : (s.cache.cpuPorts.set before.length { port with peer := m })[before.length]? =
      some { port with peer := m } := List.getElem?_set_self (List.getElem?_eq_some_iff.mp hport).1
  have hneeds : (access.toPacket before.length).command.needsResponse :=
    ((hu.fits _ _ ho.mem_script).isAccess _).needsResponse
  have hcan : CpuSidePort.canAccept { port with peer := m } := by
    have hfree := ScriptedRequestor.parked_of_sent ho.offers.sent
    have hretry := ho.offers.retry
    simp_all [CpuSidePort.canAccept]
  have hedge := hj.edge hu h.runs.clock h.now
  rw [← h.runs.geometry] at hedge
  have hle : s.queue.now ≤ u.tick (j + s.cache.geometry.latency) := by
    rw [h.now]
    exact hu.tick_le_tick.mpr (Nat.le_add_right ..)
  have hoffer := Cache.offer_accepted
    (c := (s.withPorts (s.cache.cpuPorts.set before.length { port with peer := m })).cache) (q := s.queue)
    h.runs.consistent.sane.agrees hset hcan h.runs.idle hneeds hedge hle
  obtain ⟨rest', hplayed⟩ := h.played_of_accepted hu hport ho
  refine ⟨_, _, some ⟨u.tick j, before.length, access⟩, rest', ho.play hoffer ho.offers.accepted.1, ?_⟩
  rw [h.runs.geometry]
  exact hplayed

/-- A requestor plays, whose offer is refused. -/
theorem During.play_of_busy (h : u.During k j (before ++ r :: after) s done current rest)
    (hport : s.cache.cpuPorts[before.length]? = some port)
    (ho : u.Makes j s done before.length port r r' m access issued) (hs : s.cache.service ≠ .idle)
    (hown : current.filter (·.id == before.length) = none) :
    ∃ r₃ t current' rest', (s.play j r).result = .ok (r₃, t) ∧
      u.Played k j before [r₃] after s t done current rest current' rest' := by
  have hset : (s.cache.cpuPorts.set before.length { port with peer := m })[before.length]? =
      some { port with peer := m } := List.getElem?_set_self (List.getElem?_eq_some_iff.mp hport).1
  have hblocked : (s.withPorts (s.cache.cpuPorts.set before.length { port with peer := m })).cache.blocked := by
    simpa [withPorts] using h.runs.consistent.sane.agrees.blocked_of_ne hs
  have hsome : current ≠ none := fun hn => hs (hn ▸ h.runs).idle
  have hoffer := Cache.offer_refused (q := s.queue) hset (.inr hblocked) (access.toPacket before.length)
  obtain ⟨hconclude, hl⟩ := ho.offers.refused
  rw [ho.id] at hconclude hl
  have hstays : Plan.stays { port with needsRetry := true, peer := m } = Plan.stays port := by
    simp only [Plan.stays, ho.refuse]
  have hplayed := h.played hport (r'.concluded (.refused (access.toPacket before.length))) _
    ho.id ho.clock ho.now (hown ▸ hl) hstays (fun _ => hsome) fun hn => absurd hn hsome
  refine ⟨_, _, current, rest, ho.play hoffer hconclude, ?_⟩
  have hsame : { s with
      cache := (s.withPorts (s.cache.cpuPorts.set before.length { port with peer := m })).cache.setCpuPort
        before.length { port with needsRetry := true, peer := m } } =
      s.withPorts (s.cache.cpuPorts.set before.length { port with needsRetry := true, peer := m }) := by
    simp [withPorts, Cache.setCpuPort]
  rw [← hsame] at hplayed
  exact hplayed

/-- A requestor reads its mail and makes its offer. -/
theorem During.play (hu : u.Valid) (h : u.During k j (before ++ r :: after) s done current rest)
    (hj : u.InTime j) :
    ∃ r' t current' rest', (s.play j r).result = .ok (r', t) ∧
      u.Played k j before [r'] after s t done current rest current' rest' := by
  have hr : (before ++ r :: after)[before.length]? = some r := by simp
  obtain ⟨port, hport⟩ := h.attached.exists_port hr
  rcases h.play_cases hj hport with ⟨r', t, hplay, hplayed⟩ | ⟨r', m, access, issued, hown, ho⟩
  · exact ⟨r', t, current, rest, hplay, hplayed⟩
  · by_cases hs : s.cache.service = .idle
    · obtain rfl := h.runs.current_of_idle hs
      exact h.play_of_idle hu hj hport ho
    · exact h.play_of_busy hport ho hs hown

/-- One requestor played, and then others. -/
theorem Played.trans {v : Simulation} {current₁ current₂ : Option Acceptance} {rest₁ rest₂ : Nat}
    {played : List ScriptedRequestor} (h₁ : u.Played k j before [r'] after s t done current rest current₁ rest₁)
    (h₂ : u.Played k j (before ++ [r']) played [] t v done current₁ rest₁ current₂ rest₂) :
    u.Played k j before (r' :: played) [] s v done current rest current₂ rest₂ where
  during := by simpa using h₂.during
  stays := h₂.stays.trans h₁.stays
  progress := by
    rcases h₂.progress with ⟨rfl, rfl⟩ | ⟨hnone, hsome, hrest⟩
    · exact h₁.progress
    · rcases h₁.progress with ⟨rfl, -⟩ | ⟨-, ⟨a, ha⟩, -⟩
      · exact .inr ⟨hnone, hsome, hrest⟩
      · simp [hnone] at ha
  settled hn i r hr := by
    have hfirst : current₁ = none := by
      rcases h₂.progress with ⟨rfl, -⟩ | ⟨-, ⟨a, ha⟩, -⟩
      · exact hn
      · simp [hn] at ha
    cases i with
    | zero =>
      obtain rfl := Option.some.inj hr
      exact (h₁.settled hfirst 0 r' rfl).of_stays h₂.stays
    | succ i =>
      have hrest := h₂.settled hn i r hr
      rwa [List.length_append, List.length_singleton, Nat.add_assoc, Nat.add_comm 1] at hrest

/-- All requestors play, and at most one offer is accepted. -/
theorem During.playAll (hu : u.Valid) (hj : u.InTime j)
    (h : u.During k j (before ++ after) s done current rest) :
    ∃ played t current' rest', (playAll j after s).result = .ok (played, t) ∧
      u.Played k j before played [] s t done current rest current' rest' := by
  induction after generalizing before s current rest with
  | nil =>
    exact ⟨[], s, current, rest, rfl, h, rfl, .inl ⟨rfl, rfl⟩, fun _ i r hr => by simp at hr⟩
  | cons r after ih =>
    obtain ⟨r', t, current₁, rest₁, hplay, h₁⟩ := h.play hu hj
    have hduring : u.During k j ((before ++ [r']) ++ after) t done current₁ rest₁ := by
      rw [List.append_assoc]
      exact h₁.during
    obtain ⟨played, v, current₂, rest₂, hrest, h₂⟩ := ih hduring
    exact ⟨r' :: played, v, current₂, rest₂, by simp [Simulation.playAll, hplay, hrest], h₁.trans h₂⟩

end Plan

end CacheSim
