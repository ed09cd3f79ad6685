import CacheSim.Proofs.Traffic.Basic

/-!
# What holds of the traffic through a cache

`Traffic.Good` holds of every state that conforming peers can bring about.  It
says which requests were answered and which one is in service, and, if all calls
were timed (`timed`), that the answers and the bytes shown are those of a flat
memory.  Every call that is allowed answers and keeps it (`Good.perform`), and
so does a run (`Good.run`).
-/

namespace CacheSim.Traffic

open Cache

/-- After at most `n` calls, the requests `done` were answered and `current` is
in service. -/
structure Good (timed : Prop) (m : FlatMemory) (n : Nat) (t : Traffic) (done : List (Nat × Packet))
    (current : Option (Nat × Packet)) : Prop where
  consistent : t.cache.Consistent (fun _ => True) t.queue current
  accepted : t.accepted = done ++ current.toList
  within : t.cache.Within n
  now : t.queue.now < limit
  due : ∀ e ∈ t.queue.pending, t.queue.now ≤ e.1 ∧ e.1 < limit
  period : 0 < t.queue.clock.period
  shows : timed → t.cache.Shows current (m.after (done.map (·.2)))
  sent : timed → ∀ id, t.cache.sentOn id = m.answersOn id done

variable {timed : Prop} {m : FlatMemory} {n : Nat} {t : Traffic} {done : List (Nat × Packet)}
  {current : Option (Nat × Packet)} {id : Nat} {p : Packet}

/-- A call answers, and keeps what holds of the traffic. -/
def Keeps (timed : Prop) (m : FlatMemory) (n : Nat) (t : Traffic) (a : Action) : Prop :=
  ∃ u done current, (t.perform a).result = .ok u ∧ Good timed m (n + 1) u done current

/-- A call that changes ports and lane only, without effect on what the cache
shows, what is to come, or what the ports were sent. -/
theorem Good.of_quiet (h : t.Good timed m n done current) {cache : Cache FreeRequestor FreeMemory}
    (hc : cache.Consistent (fun _ => True) t.queue current) (hstore : cache.store = t.cache.store)
    (hstats : cache.stats = t.cache.stats) (hs : cache.service = t.cache.service)
    (hi : cache.image = t.cache.image) (hcoming : cache.lane.coming = t.cache.lane.coming)
    (hg : cache.geometry = t.cache.geometry) (hsent : ∀ id, cache.sentOn id = t.cache.sentOn id) :
    Good timed m (n + 1) { t with cache } done current where
  consistent := hc
  accepted := h.accepted
  within := by
    have hw := h.within.mono (Nat.le_succ n)
    exact ⟨hstats ▸ hw.hits, hstats ▸ hw.misses, hstats ▸ hw.samples, hstore ▸ hw.time⟩
  now := h.now
  due := h.due
  period := h.period
  shows ht := (h.shows ht).of_eq hs hi hcoming hg
  sent ht j := (hsent j).trans (h.sent ht j)

/-! ## Calls of the requestors -/

theorem Good.perform_offer (h : t.Good timed m n done current) (ha : t.Allowed (.offer id p)) :
    Keeps timed m n t (.offer id p) := by
  obtain ⟨hid, hp, hdue⟩ := ha
  have hport : t.cache.cpuPorts[id]? = some t.cache.cpuPorts[id] := List.getElem?_eq_getElem hid
  cases hacc : t.accepts id with
  | false =>
    have href : t.cache.cpuPorts[id].canAccept = false ∨ t.cache.blocked := by
      simpa [accepts, hport, Classical.or_iff_not_imp_left] using hacc
    have hres := offer_refused (q := t.queue) hport href p
    have hc := h.consistent.setCpuPort hport { t.cache.cpuPorts[id] with needsRetry := true } fun hp => hp
    refine ⟨_, done, current, by simp [perform, hres]; rfl, ?_⟩
    exact h.of_quiet hc rfl rfl rfl rfl rfl rfl (sentOn_setCpuPort hport rfl)
  | true =>
    obtain ⟨hcan, hfree⟩ : t.cache.cpuPorts[id].canAccept ∧ t.cache.blocked = false := by
      simpa [accepts, hport] using hacc
    have hidle : t.cache.service = .idle := h.consistent.sane.agrees.service_eq_idle_iff.mpr hfree
    obtain rfl : current = none := by
      cases h.consistent.stage with
      | idle => rfl
      | access hs => simp [hs] at hidle
      | fetch hs => simp [hs] at hidle
    have hedge : t.queue.edge t.cache.geometry.latency = .ok t.due :=
      Clock.edge_eq_ok (Nat.lt_of_lt_of_le (hdue hacc) (by decide))
    have hnow : t.queue.now ≤ t.due := by
      refine Nat.le_trans (Clock.le_ceilDiv_mul h.period _) ?_
      exact Nat.mul_le_mul_right _ (Nat.le_add_right ..)
    have hres := offer_accepted h.consistent.sane.agrees hport hcan hidle hp.needsResponse hedge hnow
    have hpark : t.cache.cpuPorts[id].parked = none := by
      simp only [CpuSidePort.canAccept, Bool.and_eq_true, Option.isNone_iff_eq_none] at hcan
      exact hcan.1
    have hpend : t.queue.pending = [] := by
      cases h.consistent.stage with
      | idle _ hq => exact hq
    refine ⟨_, done, some (id, p), by simp [perform, hres]; rfl, ?_⟩
    refine ⟨h.consistent.offered hp trivial hport hpark _, ?_, ?_, h.now, ?_, h.period, fun ht => ?_, h.sent⟩
    · rw [h.accepted]
      simp
    · have hw := h.within.mono (Nat.le_succ n)
      exact ⟨hw.hits, hw.misses, hw.samples, hw.time⟩
    · rw [hpend]
      intro e he
      obtain rfl := List.mem_singleton.mp he
      exact ⟨hnow, hdue hacc⟩
    · exact (shows_of_access rfl).mpr ((shows_of_idle hidle).mp (h.shows ht))

theorem Good.perform_retryResponse (h : t.Good timed m n done current)
    (ha : t.Allowed (.retryResponse id)) : Keeps timed m n t (.retryResponse id) := by
  obtain ⟨port, hport, hpark⟩ := ha
  obtain ⟨a, ha⟩ := Option.isSome_iff_exists.mp hpark
  have hres := retryResponse_spec hport ha
  have hc := h.consistent.setCpuPort hport (port.retried a) (by simp [ha])
  refine ⟨_, done, current, by simp [perform, hres]; rfl, ?_⟩
  exact h.of_quiet hc rfl rfl rfl rfl rfl rfl (sentOn_setCpuPort hport (CpuSidePort.sent_retried ha))

/-! ## Time -/

theorem Good.perform_advance (h : t.Good timed m n done current) {tick : Tick}
    (ha : t.Allowed (.advance tick)) : Keeps timed m n t (.advance tick) := by
  obtain ⟨hle, hlt, hnext⟩ := ha
  have hres := EventQueue.advanceTo_eq_ok hle hnext
  refine ⟨_, done, current, by simp [perform, hres]; rfl, ?_⟩
  refine ⟨h.consistent.advance rfl hle, h.accepted, h.within.mono (Nat.le_succ n), hlt, fun e he => ?_,
    h.period, h.shows, h.sent⟩
  refine ⟨?_, (h.due e he).2⟩
  cases h.consistent.stage with
  | idle _ hq => exact absurd (hq ▸ he) (by simp)
  | fetch _ _ hq => exact absurd (hq ▸ he) (by simp)
  | access _ _ hq =>
    obtain rfl := List.mem_singleton.mp (hq ▸ he)
    exact hnext _ (by simp [EventQueue.next?, hq])

/-! ## Calls of the memory -/

theorem Good.perform_retryRequest (h : t.Good timed m n done current)
    (ha : t.Allowed .retryRequest) : Keeps timed m n t .retryRequest := by
  obtain ⟨w, hw⟩ := Option.isSome_iff_exists.mp ha
  have hres := h.consistent.sane.retryRequest_spec hw
  obtain ⟨hc, hcoming, himage⟩ := h.consistent.retried hw
  refine ⟨_, done, current, by simp [perform, hres]; rfl, ?_⟩
  exact h.of_quiet hc rfl rfl rfl himage hcoming rfl fun _ => rfl

theorem Good.perform_functional (h : t.Good timed m n done current) (ht : ¬timed)
    (ha : t.Allowed (.functional id p)) : Keeps timed m n t (.functional id p) := by
  obtain ⟨hid, hp⟩ := ha
  have hport : t.cache.cpuPorts[id]? = some t.cache.cpuPorts[id] := List.getElem?_eq_getElem hid
  have hcpu := cpuPort_eq_ok hport
  have hsize := h.consistent.sane.lineSize
  have hpos : 0 < t.cache.store.lineSize := hsize ▸ h.consistent.sane.pos
  cases hl : t.cache.store.lookup (p.block t.cache.lineSize) with
  | none =>
    have hacc := Store.access_of_not_resident (p := p) hpos (by rw [hsize]; exact hl)
    obtain ⟨hsound, hnone, hsome⟩ := h.consistent.sane.lane.change_spec
      { t.cache.memPort.peer with contents := t.cache.memPort.peer.contents.perform p } rfl fun _ _ => trivial
    have hc := h.consistent.withLane hsound hnone hsome
    refine ⟨_, done, current, by simp [perform, functional, hcpu, hacc, MemSidePort.functional]; rfl, ?_⟩
    have hw := h.within.mono (Nat.le_succ n)
    exact ⟨hc, h.accepted, ⟨hw.hits, hw.misses, hw.samples, hw.time⟩, h.now, h.due, h.period,
      fun h => absurd h ht, fun h => absurd h ht⟩
  | some l =>
    obtain ⟨q, store, hacc, hf, hres, hm⟩ := h.consistent.sane.valid.access_of_resident hpos
      (hsize ▸ hp) (hsize ▸ hl)
    have hans := (hm (fun _ => 0)).1
    refine ⟨_, done, current, by simp [perform, functional, hcpu, hacc, hans]; rfl, ?_⟩
    have hw := h.within.mono (Nat.le_succ n)
    exact ⟨h.consistent.withStore hf hres, h.accepted, ⟨hw.hits, hw.misses, hw.samples, hf.time ▸ hw.time⟩,
      h.now, h.due, h.period, fun h => absurd h ht, fun h => absurd h ht⟩

/-! ## The request in service -/

/-- An answered request has joined those that were answered. -/
theorem Good.of_answered (h : t.Good timed m n done (some (id, p))) {c : Cache FreeRequestor FreeMemory}
    {cache : Cache FreeRequestor FreeMemory} {queue : EventQueue AccessEvent} {a : Packet}
    {image : FlatMemory} (hd : Answered (fun _ => True) c cache queue id a image)
    (hcache : c.cpuPorts = t.cache.cpuPorts) (hwithin : c.Within n) (hq : queue.pending = [])
    (hnow : queue.now < limit) (hclock : queue.clock = t.queue.clock)
    (hflat : timed → a = (m.after (done.map (·.2))).answer p ∧ image = (m.after (done.map (·.2))).perform p) :
    Good timed m (n + 1) { t with cache, queue } (done ++ [(id, p)]) none where
  consistent := hd.consistent
  accepted := by
    rw [List.append_assoc]
    exact h.accepted
  within := hd.within n hwithin
  now := hnow
  due e he := absurd (hq ▸ he) (by simp)
  period := hclock ▸ h.period
  shows ht := by
    have hidle : cache.service = .idle := by
      cases hd.consistent.stage with
      | idle hs => exact hs
    rw [shows_of_idle hidle, hd.image, (hflat ht).2, List.map_append, FlatMemory.after_append]
    rfl
  sent ht j := by
    obtain ⟨port, hport, hfree⟩ : ∃ port, t.cache.cpuPorts[id]? = some port ∧ port.parked = none := by
      cases h.consistent.stage with
      | access _ hw => exact hw.port
      | fetch _ hw => exact hw.port
    rw [sentOn_answeredPorts hport hfree (hcache ▸ hd.cpuPorts), h.sent ht, FlatMemory.answersOn_concat,
      (hflat ht).1]

theorem Good.perform_fire (h : t.Good timed m n done current) (ha : t.Allowed .fire) :
    Keeps timed m n t .fire := by
  have hshows := h.shows
  cases h.consistent.stage with
  | idle _ hq => simp [Allowed, EventQueue.next?, hq] at ha
  | fetch _ _ hq => simp [Allowed, EventQueue.next?, hq] at ha
  | @access id p tick hs hw hq =>
    have hpop : t.queue.pop? = some (tick, ⟨p⟩, { t.queue with now := tick, pending := [] }) := by
      simp only [EventQueue.pop?, hq]
    obtain ⟨-, d, hres, hd⟩ := h.consistent.fire hpop
    have hflat : timed → t.cache.image = m.after (done.map (·.2)) := fun ht =>
      (hshows ht).image_of_pending h.consistent (by simp [hq])
    have hnow : tick < limit := (h.due (tick, ⟨p⟩) (by simp [hq])).2
    have hrun : (t.perform .fire).result =
        .ok { t with cache := d, queue := { t.queue with now := tick, pending := [] } } := by
      simp [perform, hpop, hres]
    rcases hd with hd | hd
    · refine ⟨_, _, _, hrun, h.of_answered hd rfl h.within rfl hnow rfl fun ht => ?_⟩
      rw [hflat ht]
      exact ⟨rfl, rfl⟩
    · refine ⟨_, done, some (id, p), hrun, hd.consistent, h.accepted, hd.within n h.within, hnow,
        fun e he => absurd he (by simp), h.period, fun ht => hd.shows (hflat ht), fun ht j => ?_⟩
      show d.sentOn j = _
      rw [sentOn, hd.cpuPorts]
      exact h.sent ht j

theorem Good.perform_answer (h : t.Good timed m n done current) (hn : n < limit) {i : Nat}
    {other : Option Bytes} (ht : timed → other = none) (ha : t.Allowed (.answer i other)) :
    Keeps timed m n t (.answer i other) := by
  obtain ⟨a, hget, hother⟩ := ha
  have howed : a ∈ t.cache.lane.owed := List.mem_of_getElem? hget
  obtain ⟨id, p, rfl⟩ := h.consistent.exists_of_owed howed
  obtain ⟨hone, hfill, hq⟩ := h.consistent.owed_eq howed
  have hone : t.cache.memPort.peer.owed = [a] := hone
  obtain rfl : i = 0 := by
    have hi := (List.getElem?_eq_some_iff.mp hget).1
    rw [hone, List.length_singleton] at hi
    omega
  obtain ⟨data, hdata, hfill'⟩ : ∃ data, other.or a.payload = some data ∧
      Packet.IsFill { a with payload := other.or a.payload } (p.block t.cache.lineSize) t.cache.lineSize := by
    obtain ⟨data, hd, hl⟩ := hfill.payload
    cases other with
    | none => exact ⟨data, hd, hfill.addr_eq, hfill.size_eq, hfill.isResponse, data, hd, hl⟩
    | some bytes =>
      exact ⟨bytes, rfl, hfill.addr_eq, hfill.size_eq, hfill.isResponse, bytes, rfl,
        (hother bytes rfl).trans hfill.size_eq⟩
  have hsamples : t.cache.stats.missLatency.samples + 1 < Word.bound := by
    have hle := h.within.samples
    have hlimit : limit + 1 < Word.bound := by decide
    omega
  have hnow : 2 * t.queue.now < Word.bound := by
    have hlt := h.now
    have hlimit : 2 * limit ≤ Word.bound := by decide
    unfold Tick at *
    omega
  have hgives : t.cache.Gives { t.cache.memPort.peer with owed := [] } :=
    ⟨List.ne_nil_of_mem howed, rfl, rfl, fun _ h => h⟩
  obtain ⟨d, hres, hd⟩ := h.consistent.fill hgives hfill' hdata hnow hsamples
  have hrun : (t.perform (.answer 0 other)).result = .ok { t with cache := d } := by
    have hmem : (t.withMemory { t.cache.memPort.peer with owed := [] }).cache =
        t.cache.withLane (t.cache.lane.withPeer { t.cache.memPort.peer with owed := [] }) := rfl
    simp [perform, hone, hmem, hres]
  refine ⟨_, _, _, hrun, h.of_answered hd rfl ?_ hq h.now rfl fun htimed => ?_⟩
  · exact ⟨h.within.hits, h.within.misses, h.within.samples, h.within.time⟩
  · obtain rfl := ht htimed
    exact (h.shows htimed).completion_eq h.consistent howed hdata

/-! ## Runs -/

/-- A call that is allowed answers. -/
theorem Good.perform (h : t.Good timed m n done current) (hn : n < limit) {a : Action}
    (ha : t.Allowed a) (ht : timed → a.IsTimed) : Keeps timed m n t a := by
  cases a with
  | offer id p => exact h.perform_offer ha
  | functional id p => exact h.perform_functional (fun h => ht h) ha
  | advance tick => exact h.perform_advance ha
  | fire => exact h.perform_fire ha
  | answer i other => exact h.perform_answer hn ht ha
  | retryResponse id => exact h.perform_retryResponse ha
  | retryRequest => exact h.perform_retryRequest ha

/-- Calls that are allowed answer, one after another. -/
theorem Good.run {actions : List Action} (h : t.Good timed m n done current)
    (hn : n + actions.length < limit) (ht : timed → ∀ a ∈ actions, a.IsTimed) :
    ∃ u done current, (run actions t).result = .ok u ∧ Good timed m (n + actions.length) u done current := by
  induction actions generalizing t n done current with
  | nil => exact ⟨t, done, current, rfl, h⟩
  | cons a actions ih =>
    rw [List.length_cons] at hn
    have hrest : timed → ∀ b ∈ actions, b.IsTimed := fun h b hb => ht h b (List.mem_cons_of_mem a hb)
    have hlen : n + (a :: actions).length = n + 1 + actions.length := by rw [List.length_cons]; omega
    rw [hlen]
    by_cases ha : t.Allowed a
    · obtain ⟨u, done', current', hres, hu⟩ := h.perform (by omega) ha fun h => ht h a (List.mem_cons_self ..)
      obtain ⟨v, done'', current'', hrun, hv⟩ := ih hu (by omega) hrest
      exact ⟨v, done'', current'', by simp [Traffic.run, ha, hres, hrun], hv⟩
    · have hquiet : t.Good timed m (n + 1) done current :=
        ⟨h.consistent, h.accepted, h.within.mono (Nat.le_succ n), h.now, h.due, h.period, h.shows, h.sent⟩
      obtain ⟨v, done'', current'', hrun, hv⟩ := ih hquiet (by omega) hrest
      exact ⟨v, done'', current'', by simp [Traffic.run, ha, hrun], hv⟩

end CacheSim.Traffic
