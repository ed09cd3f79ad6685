import CacheSim.Proofs.Cache.Steps

/-!
# The service of a request

Every call that conforming peers make keeps a cache consistent.  A request that
is accepted is in service (`Consistent.offered`); its access answers it or
fetches its block (`Consistent.fire`), and the block that comes answers it
(`Consistent.fill`).  Refusals and signals (`Consistent.withPorts`,
`Consistent.retried`) change nothing of this, nor the bytes that the cache shows.
-/

namespace CacheSim.Cache

variable {ρ μ : Type} [LawfulMemory μ] {D : Nat → Prop} {c d : Cache ρ μ}
  {q r : EventQueue AccessEvent} {id : Nat} {p : Packet} {current : Option (Nat × Packet)}

/-! ## Offers and signals -/

/-- The ports may change as long as none holds an answer that held none before. -/
theorem Consistent.withPorts (h : c.Consistent D q current) {ports : List (CpuSidePort ρ)}
    (hports : ∀ (i : Nat) (port : CpuSidePort ρ), c.cpuPorts[i]? = some port → port.parked = none →
      ∃ port' : CpuSidePort ρ, ports[i]? = some port' ∧ port'.parked = none) :
    Consistent D { c with cpuPorts := ports } q current := by
  have hwaits : ∀ {j r}, c.Waits D j r → Waits D { c with cpuPorts := ports } j r :=
    fun ⟨ha, hD, w, hw, hfree⟩ => ⟨ha, hD, hports _ w hw hfree⟩
  refine ⟨⟨h.sane.valid, h.sane.lineSize, h.sane.pos, h.sane.resident, h.sane.counts, h.sane.lane, h.sane.agrees⟩, ?_⟩
  cases h.stage with
  | idle hs hq hc => exact .idle hs hq hc
  | access hs hw hq hc => exact .access hs (hwaits hw) hq hc
  | fetch hs hw hq hle hn hc => exact .fetch hs (hwaits hw) hq hle hn hc

/-- A port may change as long as no answer is held that was not held before. -/
theorem Consistent.setCpuPort (h : c.Consistent D q current) {old : CpuSidePort ρ}
    (hold : c.cpuPorts[id]? = some old) (port : CpuSidePort ρ) (hp : old.parked = none → port.parked = none) :
    (c.setCpuPort id port).Consistent D q current := by
  refine h.withPorts fun j w hw hfree => ?_
  by_cases hj : id = j
  · subst hj
    obtain rfl : old = w := Option.some.inj (hold.symm.trans hw)
    exact ⟨port, by simp [(List.getElem?_eq_some_iff.mp hold).1], hp hfree⟩
  · exact ⟨w, by rw [List.getElem?_set_ne hj, hw], hfree⟩

/-- A request that is accepted. -/
theorem Consistent.offered (h : c.Consistent D q none) (hp : p.IsAccess c.lineSize)
    (hD : D (p.block c.lineSize)) {port : CpuSidePort ρ} (hport : c.cpuPorts[id]? = some port)
    (hfree : port.parked = none) (tick : Tick) :
    (c.serving (.access id)).Consistent D
      { q with pending := EventQueue.place tick ⟨p⟩ q.pending } (some (id, p)) := by
  refine ⟨h.sane.serving _, ?_⟩
  cases h.stage with
  | idle _ hq hc => exact .access rfl ⟨hp, hD, port, hport, hfree⟩ (by rw [hq]; rfl) hc

/-- Time moves on. -/
theorem Consistent.advance (h : c.Consistent D q current) (hp : r.pending = q.pending)
    (hn : q.now ≤ r.now) : c.Consistent D r current := by
  refine ⟨h.sane, ?_⟩
  cases h.stage with
  | idle hs hq hc => exact .idle hs (hp.trans hq) hc
  | access hs hw hq hc => exact .access hs hw (hp.trans hq) hc
  | fetch hs hw hq hle hn' hc => exact .fetch hs hw (hp.trans hq) (Nat.le_trans hle hn) hn' hc

/-- Another state of the store, in which the same blocks are resident. -/
theorem Consistent.withStore (h : c.Consistent D q current) {s : Store} {n : Nat}
    (hf : c.store.Follows s n) (hs : ∀ b, (s.lookup b).isSome ↔ (c.store.lookup b).isSome) :
    Consistent D { c with store := s } q current := by
  refine ⟨h.sane.withStore hf fun b hb => h.sane.resident b ((hs b).mp hb), ?_⟩
  cases h.stage with
  | idle hi hq hc => exact .idle hi hq hc
  | access hi hw hq hc => exact .access hi ⟨hw.access, hw.domain, hw.port⟩ hq hc
  | @fetch _ p _ hi hw hq hle hn hc =>
    have hiff := hs (p.block c.lineSize)
    have hn' : s.lookup (p.block c.lineSize) = none := by simpa [hn] using hiff
    exact .fetch hi ⟨hw.access, hw.domain, hw.port⟩ hq hle hn' hc

/-- Another state of the lane, to which the same answers come. -/
theorem Consistent.withLane (h : c.Consistent D q current) {l : Lane μ} (hl : l.Sound D c.lineSize)
    (hnone : c.lane.coming = [] → l.coming = [])
    (hsome : ∀ addr, (∃ a, c.lane.coming = [a] ∧ a.IsFill addr c.lineSize) →
      ∃ a, l.coming = [a] ∧ a.IsFill addr c.lineSize) :
    (c.withLane l).Consistent D q current := by
  refine ⟨h.sane.withLane hl, ?_⟩
  cases h.stage with
  | idle hs hq hc => exact .idle hs hq (hnone hc)
  | access hs hw hq hc => exact .access hs (hw.withLane l) hq (hnone hc)
  | fetch hs hw hq hle hn hc => exact .fetch hs (hw.withLane l) hq hle hn (hsome _ hc)

/-- The packets that wait are offered to the memory again. -/
theorem Consistent.retried (h : c.Consistent D q current) (hp : c.memPort.parked = some p) :
    (c.withLane c.lane.retried).Consistent D q current ∧
      (c.withLane c.lane.retried).lane.coming = c.lane.coming ∧
      (c.withLane c.lane.retried).image = c.image := by
  obtain ⟨hs, hc, hb⟩ := h.sane.lane.retried_spec hp
  exact ⟨h.withLane hs (fun hn => hc.trans hn) fun addr ⟨a, ha, hf⟩ => ⟨a, hc.trans ha, hf⟩, hc,
    congrArg c.store.overlay hb⟩

/-! ## Accesses and fills -/

variable [LawfulRequestor ρ]

/-- The counters have not passed a number. -/
structure Within (c : Cache ρ μ) (n : Nat) : Prop where
  hits : c.stats.hits ≤ n
  misses : c.stats.misses ≤ n
  samples : c.stats.missLatency.samples ≤ n
  time : c.store.time ≤ n

omit [LawfulRequestor ρ] [LawfulMemory μ] in
theorem Within.mono {n k : Nat} (h : c.Within n) (hk : n ≤ k) : c.Within k :=
  ⟨Nat.le_trans h.hits hk, Nat.le_trans h.misses hk, Nat.le_trans h.samples hk, Nat.le_trans h.time hk⟩

/-- The request of port `id` was answered with `a`, after which the cache is
idle and shows the bytes `m`. -/
structure Answered (D : Nat → Prop) (c d : Cache ρ μ) (q : EventQueue AccessEvent) (id : Nat)
    (a : Packet) (m : FlatMemory) : Prop where
  consistent : d.Consistent D q none
  cpuPorts : d.cpuPorts = answeredPorts c.cpuPorts id a
  geometry : d.geometry = c.geometry
  image : d.image = m
  lane : d.lane = c.lane ∨ ∃ w, w.command.needsResponse = false ∧ w.IsBlock c.lineSize ∧ D w.addr ∧
    d.lane = c.lane.push w
  within : ∀ n, c.Within n → d.Within (n + 1)

/-- The block of the request from port `id` is fetched since the tick `now`. -/
structure Fetching (D : Nat → Prop) (c d : Cache ρ μ) (q : EventQueue AccessEvent) (id : Nat)
    (p : Packet) (now : Tick) : Prop where
  consistent : d.Consistent D q (some (id, p))
  service : d.service = .fetch id now (p.kept c.lineSize)
  cpuPorts : d.cpuPorts = c.cpuPorts
  geometry : d.geometry = c.geometry
  image : d.image = c.image.perform (p.fetch c.lineSize)
  coming : d.lane.coming = [c.image.answer (p.fetch c.lineSize)]
  lane : d.lane = c.lane.push (p.fetch c.lineSize)
  within : ∀ n, c.Within n → d.Within (n + 1)

/-- The scheduled access answers the request or fetches its block. -/
theorem Consistent.fire (h : c.Consistent D q (some (id, p))) {e : AccessEvent} {tick : Tick}
    (hpop : q.pop? = some (tick, e, r)) :
    e = ⟨p⟩ ∧ ∃ d, (c.fire tick e).result = .ok d ∧
      (Answered D c d r id (c.image.answer p) (c.image.perform p) ∨ Fetching D c d r id p tick) := by
  cases h.stage with
  | fetch _ _ hq => simp [EventQueue.pop?, hq] at hpop
  | access hs hw hq hc =>
    simp only [EventQueue.pop?, hq, Option.some.injEq, Prod.mk.injEq] at hpop
    obtain ⟨rfl, rfl, rfl⟩ := hpop
    refine ⟨rfl, ?_⟩
    cases hl : c.store.lookup (p.block c.lineSize) with
    | some l =>
      obtain ⟨-, -, store, -, -, hres, hf, hiff, hover⟩ := h.sane.fire_hit hs hw (by simp [hl]) _
      refine ⟨_, hres, .inl ⟨⟨?_, .idle rfl rfl hc⟩, rfl, rfl, hover, .inl rfl, fun n hn => ?_⟩⟩
      · have hres' : ∀ b, (store.lookup b).isSome → D b := fun b hb => h.sane.resident b ((hiff b).mp hb)
        have hstore := h.sane.withStore hf hres'
        exact (hstore.withStats { c.stats with hits := c.stats.hits + 1 } h.sane.counts).answered id _
      · exact ⟨Nat.succ_le_succ hn.hits, Nat.le_succ_of_le hn.misses, Nat.le_succ_of_le hn.samples,
          hf.time ▸ Nat.succ_le_succ hn.time⟩
    | none =>
      have hpos : 0 < c.store.lineSize := h.sane.lineSize ▸ h.sane.pos
      have hb := hw.access.isBlock_fetch
      have haddr := Packet.addr_fetch p c.lineSize
      have hin : (p.fetch c.lineSize).InBlock c.store.lineSize := h.sane.lineSize ▸ hb.inBlock
      have hn : c.store.lookup ((p.fetch c.lineSize).block c.store.lineSize) = none := by
        rw [h.sane.lineSize, hb.block_eq, haddr]
        exact hl
      have hneeds := hw.access.needsResponse_fetch
      obtain ⟨hsound, hcoming, hback⟩ :=
        h.sane.lane.push_spec hc hb (haddr ▸ hw.domain) (.inr hneeds)
      have hcoming' : (c.lane.push (p.fetch c.lineSize)).coming = [c.image.answer (p.fetch c.lineSize)] := by
        rw [hcoming, FlatMemory.answers_cons_of_needsResponse _ _ hneeds, image,
          Store.answer_overlay_of_absent hpos hin hn]
        rfl
      refine ⟨_, h.sane.fire_miss hs hw hl _, .inr ⟨⟨?_, ?_⟩, rfl, rfl, rfl, ?_, hcoming', rfl, fun n hn => ?_⟩⟩
      · have hs := h.sane.withStats { c.stats with misses := c.stats.misses + 1 } h.sane.counts
        exact (hs.serving _).withLane hsound
      · exact .fetch rfl ⟨hw.access, hw.domain, hw.port⟩ rfl (Nat.le_refl _) hl
          ⟨_, hcoming', haddr ▸ hb.isFill_answer hneeds c.image⟩
      · show c.store.overlay (c.lane.push _).backing = _
        rw [hback, Store.overlay_perform_of_absent hpos hin hn]
        rfl
      · exact ⟨Nat.le_succ_of_le hn.hits, Nat.succ_le_succ hn.misses, Nat.le_succ_of_le hn.samples,
          Nat.le_succ_of_le hn.time⟩

omit [LawfulRequestor ρ] in
/-- Nothing is owed to an idle cache. -/
theorem Consistent.exists_of_owed {served : Option (Nat × Packet)} (h : c.Consistent D q served) {a : Packet}
    (ha : a ∈ c.lane.owed) : ∃ id p, served = some (id, p) := by
  cases h.stage with
  | idle _ _ hc => exact absurd (Lane.owed_eq_nil_of_coming hc) (List.ne_nil_of_mem ha)
  | access => exact ⟨_, _, rfl⟩
  | fetch => exact ⟨_, _, rfl⟩

omit [LawfulRequestor ρ] in
/-- All that is owed is the block that the request in service waits for. -/
theorem Consistent.owed_eq (h : c.Consistent D q (some (id, p))) {a : Packet} (ha : a ∈ c.lane.owed) :
    c.lane.owed = [a] ∧ a.IsFill (p.block c.lineSize) c.lineSize ∧ q.pending = [] := by
  cases h.stage with
  | access _ _ _ hc => exact absurd (Lane.owed_eq_nil_of_coming hc) (List.ne_nil_of_mem ha)
  | fetch _ _ hq _ _ hc =>
    obtain ⟨b, hcoming, hfill⟩ := hc
    have hheld := h.sane.lane.order (List.ne_nil_of_mem ha)
    rw [Lane.coming, hheld, FlatMemory.answers_nil, List.append_nil] at hcoming
    rw [hcoming, List.mem_singleton] at ha
    obtain rfl := ha
    exact ⟨hcoming, hfill, hq⟩

/-- A block that was installed, with the miss counted, answers the request. -/
theorem Installed.answered {m : FlatMemory} {store : Store} {l : Lane μ} {missLatency : Histogram}
    (hi : Installed D c m store l) (h : c.Sane D) (hq : q.pending = []) (hc : missLatency.Counts)
    (hs : missLatency.samples = c.stats.missLatency.samples + 1) (id : Nat) (a : Packet) :
    Answered D c
      ((({ c with store, stats := { c.stats with missLatency } } : Cache ρ μ).withLane l).answered id a)
      q id a m where
  consistent := ⟨⟨hi.follows.valid, hi.follows.lineSize.trans h.lineSize, h.pos, hi.resident, hc, hi.sound,
    c.toControl.agrees_entering .idle⟩, .idle rfl hq hi.coming⟩
  cpuPorts := rfl
  geometry := rfl
  image := hi.image
  lane := hi.lane
  within _ hn := ⟨Nat.le_succ_of_le hn.hits, Nat.le_succ_of_le hn.misses, hs ▸ Nat.succ_le_succ hn.samples,
    hi.follows.time ▸ Nat.succ_le_succ hn.time⟩

variable {peer : μ} {a : Packet} {data : Bytes}

/-- The memory gives an answer, and owes none after it. -/
structure Gives (c : Cache ρ μ) (peer : μ) : Prop where
  owed : c.lane.owed ≠ []
  none : LawfulMemory.owed peer = []
  contents : LawfulMemory.contents peer = c.lane.contents
  serves : ∀ r, LawfulMemory.Serves c.memPort.peer r → LawfulMemory.Serves peer r

/-- What comes of the block of the request in service. -/
theorem Consistent.fill_result (h : c.Consistent D q (some (id, p))) (hg : c.Gives peer)
    (ha : a.IsFill (p.block c.lineSize) c.lineSize) (hdata : a.payload = some data) :
    ∃ since victim t store l,
      (c.store.insert (p.block c.lineSize) data).result = .ok (victim, t) ∧
      (t.complete (p.kept c.lineSize)).result = .ok store ∧
      l = (c.lane.withPeer peer).pushAll (Store.writebacks victim) ∧
      ((c.withLane (c.lane.withPeer peer)).fill q.now a).result = (do
        let missLatency ← c.stats.missLatency.sample (q.now - since)
        return (({ c with store, stats := { c.stats with missLatency } } : Cache ρ μ).withLane l).answered id
          (p.completion c.lineSize (c.image.write (p.block c.lineSize) data) a)) ∧
      (c.withLane (c.lane.withPeer peer)).Sane D ∧ q.pending = [] ∧
      Installed D (c.withLane (c.lane.withPeer peer))
        (p.outcome c.lineSize (c.image.write (p.block c.lineSize) data)) store l := by
  cases h.stage with
  | access _ _ _ hc => exact absurd (Lane.owed_eq_nil_of_coming hc) hg.owed
  | @fetch _ _ since hs hw hq hle hn _ =>
    obtain ⟨hsound, hcoming, hheld, hback⟩ := h.sane.lane.take_spec hg.owed hg.contents hg.none hg.serves
    have himage : (c.withLane (c.lane.withPeer peer)).image = c.image := congrArg c.store.overlay hback
    have hsane := h.sane.withLane hsound
    obtain ⟨victim, t, store, l, hins, hcomp, hl, hres, hi⟩ := hsane.fill_spec hs (hw.withLane _) hn hheld hcoming
      ha hdata hle
    rw [himage] at hres hi
    exact ⟨since, victim, t, store, l, hins, hcomp, hl, hres, hsane, hq, hi⟩

/-- The block that comes answers the request, if the statistics can count it. -/
theorem Consistent.fill (h : c.Consistent D q (some (id, p))) (hg : c.Gives peer)
    (ha : a.IsFill (p.block c.lineSize) c.lineSize) (hdata : a.payload = some data)
    (hnow : 2 * q.now < Word.bound) (hsamples : c.stats.missLatency.samples + 1 < Word.bound) :
    ∃ d, ((c.withLane (c.lane.withPeer peer)).fill q.now a).result = .ok d ∧
      Answered D (c.withLane (c.lane.withPeer peer)) d q id
        (p.completion c.lineSize (c.image.write (p.block c.lineSize) data) a)
        (p.outcome c.lineSize (c.image.write (p.block c.lineSize) data)) := by
  obtain ⟨since, -, -, store, l, -, -, -, hres, hsane, hq, hi⟩ := h.fill_result hg ha hdata
  have helapsed : 2 * (q.now - since) < Word.bound :=
    Nat.lt_of_le_of_lt (Nat.mul_le_mul_left 2 (Nat.sub_le ..)) hnow
  obtain ⟨hist, hsample, hcounts, hcount⟩ := h.sane.counts.sample_eq_ok helapsed hsamples
  rw [hsample] at hres
  exact ⟨_, hres, hi.answered hsane hq hcounts hcount id _⟩

/-- A block that came has answered the request.  It was inserted, the request
was completed on it, the victim was sent to the memory, and the miss was counted. -/
theorem Consistent.filled (h : c.Consistent D q (some (id, p))) (hg : c.Gives peer)
    (ha : a.IsFill (p.block c.lineSize) c.lineSize) (hdata : a.payload = some data)
    (hd : ((c.withLane (c.lane.withPeer peer)).fill q.now a).result = .ok d) :
    Answered D (c.withLane (c.lane.withPeer peer)) d q id
        (p.completion c.lineSize (c.image.write (p.block c.lineSize) data) a)
        (p.outcome c.lineSize (c.image.write (p.block c.lineSize) data)) ∧
      d.stats.hits = c.stats.hits ∧ d.stats.misses = c.stats.misses ∧
      d.stats.missLatency.samples = c.stats.missLatency.samples + 1 ∧
      ∃ victim t, (c.store.insert (p.block c.lineSize) data).result = .ok (victim, t) ∧
        (t.complete (p.kept c.lineSize)).result = .ok d.store ∧
        d.lane = (c.lane.withPeer peer).pushAll (Store.writebacks victim) := by
  obtain ⟨since, victim, t, store, l, hins, hcomp, hl, hres, hsane, hq, hi⟩ := h.fill_result hg ha hdata
  rw [hres] at hd
  obtain ⟨hist, hsample, hd⟩ := Sim.bind_eq_ok.mp hd
  obtain rfl := Except.ok.inj hd
  obtain ⟨hcounts, hcount⟩ := h.sane.counts.sampled hsample
  exact ⟨hi.answered hsane hq hcounts hcount id _, rfl, rfl, hcount, victim, t, hins, hcomp, hl⟩

end CacheSim.Cache
