import CacheSim.Proofs.Cache.Invariant
import CacheSim.Proofs.Cache.Untimed

/-!
# The steps of a request

One lemma for every call of a cache: that it answers, and in which state.  A
request that a requestor offers is refused or scheduled (`offer_refused`,
`offer_accepted`); its access hits or sends a fetch (`fire_hit`, `fire_miss`);
the block that was fetched is installed and the request is answered
(`fill_spec`), as long as the statistics can count it.
-/

namespace CacheSim.Cache

variable {ρ μ : Type} {c : Cache ρ μ} {q : EventQueue AccessEvent} {id : Nat} {p : Packet}

/-! ## Offers -/

theorem offer_refused {port : CpuSidePort ρ} (hport : c.cpuPorts[id]? = some port)
    (h : port.canAccept = false ∨ c.blocked) (p : Packet) :
    (c.offer q id p).result = .ok (.refused p, c.setCpuPort id { port with needsRetry := true }, q) := by
  cases hc : port.canAccept with
  | false => simp [offer, cpuPort_eq_ok hport, hc, CpuSidePort.refuse]
  | true =>
    have hb : c.blocked := h.resolve_left (by simp [hc])
    simp [offer, cpuPort_eq_ok hport, hc, hb, CpuSidePort.refuse]

/-- A request is scheduled if its access is not due too late. -/
theorem result_offer {port : CpuSidePort ρ} (hport : c.cpuPorts[id]? = some port)
    (hc : port.canAccept) (hb : c.blocked = false) (hp : p.command.needsResponse) :
    (c.offer q id p).result = (do
      let tick ← q.edge c.geometry.latency
      let queue ← q.schedule ⟨p⟩ tick
      return (.accepted, { c with blocked := true, waitingPort := some id, phase := .waitAccess }, queue)) := by
  simp [offer, cpuPort_eq_ok hport, hc, hb, hp]
  rfl

theorem offer_accepted {port : CpuSidePort ρ} (h : c.toControl.Agrees) (hport : c.cpuPorts[id]? = some port)
    (hc : port.canAccept) (hi : c.service = .idle) (hp : p.command.needsResponse)
    {tick : Tick} (hedge : q.edge c.geometry.latency = .ok tick) (hle : q.now ≤ tick) :
    (c.offer q id p).result = .ok (.accepted, c.serving (.access id),
      { q with pending := EventQueue.place tick ⟨p⟩ q.pending }) := by
  rw [result_offer hport hc (h.blocked_eq hi) hp, hedge, h.serving_access hi]
  simp only [Sim.ok_bind, EventQueue.schedule, if_pos hle]
  rfl

/-! ## Accesses -/

variable [LawfulMemory μ] {D : Nat → Prop}

theorem result_sendFetch (hserve : c.memPort.parked = none → LawfulMemory.Serves c.memPort.peer p) :
    (c.sendFetch p).result = .ok (c.withLane (c.lane.push p)) := by
  cases hp : c.memPort.parked with
  | none =>
    have hs := MemSidePort.result_send hp (hserve hp)
    simp [sendFetch, hp, hs, withLane, lane, Lane.push]
  | some w => simp [sendFetch, hp, withLane, lane, Lane.push]

/-- A miss sends the fetch of the block. -/
theorem result_miss (h : c.toControl.Agrees) (hi : c.service = .access id) (hs : 0 < c.lineSize)
    (hp : p.IsAccess c.lineSize) (hserve : LawfulMemory.Serves c.memPort.peer (p.fetch c.lineSize)) (now : Tick) :
    (c.miss now p).result =
      .ok ((c.serving (.fetch id now (p.kept c.lineSize))).withLane (c.lane.push (p.fetch c.lineSize))) := by
  have hsend : ∀ control : Control, (sendFetch { c with toControl := control } (p.fetch c.lineSize)).result =
      .ok ({ c with toControl := control }.withLane (c.lane.push (p.fetch c.lineSize))) :=
    fun control => result_sendFetch (c := { c with toControl := control }) fun _ => hserve
  have hb : c.blocked = true := h.blocked_eq hi
  have hw : c.waitingPort = some id := h.waitingPort_eq hi
  have ho : c.original = none := h.original_eq hi
  by_cases hwhole : p.addr = p.block c.lineSize ∧ p.size = c.lineSize
  · rw [Packet.fetch, if_pos hwhole] at hsend
    simp only [miss, Packet.fetch, Packet.kept, if_pos hwhole, hb, hw, ho]
    exact hsend _
  · rw [Packet.fetch, if_neg hwhole] at hsend
    obtain ⟨f, hf, halloc⟩ := hp.ofBlock? hs
    have hmoves : p.command.isRead ∨ p.command.isWrite := by
      rw [Command.isWrite_eq_not_isRead]
      cases p.command.isRead <;> simp
    simp only [miss, Packet.fetch, Packet.kept, if_neg hwhole, Sim.result_bind, Sim.result_require,
      Sim.result_liftM, Sim.result_debug, hp.fits, hf, halloc, hmoves, hb, hw, if_true, Sim.ok_bind]
    exact hsend _

variable [LawfulRequestor ρ]

/-- The cache after a hit. -/
theorem Sane.fire_hit (h : c.Sane D) (hs : c.service = .access id) (hw : c.Waits D id p)
    (hl : (c.store.lookup (p.block c.lineSize)).isSome) (now : Tick) :
    ∃ q t store, (c.store.access p).result = .ok (some (q, t)) ∧ store = t.touch (p.block c.lineSize) ∧
      (c.fire now ⟨p⟩).result =
        .ok ({ c with store, stats := { c.stats with hits := c.stats.hits + 1 } }.answered id
          (c.image.answer p)) ∧
      c.store.Follows store 1 ∧ (∀ b, (store.lookup b).isSome ↔ (c.store.lookup b).isSome) ∧
      store.overlay c.lane.backing = c.image.perform p := by
  have hsize := h.lineSize
  have hpos : 0 < c.store.lineSize := hsize ▸ h.pos
  obtain ⟨l, hl⟩ := Option.isSome_iff_exists.mp hl
  obtain ⟨port, hport, hfree⟩ := hw.port
  obtain ⟨q, t, hacc, hf, hres, hm⟩ := h.valid.access_of_resident hpos (hsize ▸ hw.access) (hsize ▸ hl)
  obtain ⟨hans, hover⟩ := hm c.lane.backing
  have hblock : Block.align? c.lineSize p.addr = .ok (p.block c.lineSize) := Block.align?_of_pos h.pos p.addr
  refine ⟨q, t, _, hacc, rfl, ?_, hf.trans (hf.valid.follows_touch _), fun b => ?_, ?_⟩
  · have hb : c.blocked = true := h.agrees.blocked_eq hs
    have hwaiting : c.waitingPort = some id := h.agrees.waitingPort_eq hs
    have ho : c.original = none := h.agrees.original_eq hs
    simp [fire, h.agrees.phase_eq hs, hblock, hacc, hans]
    refine result_reply_of_none ?_ ?_ ?_ ?_ hfree _
    exacts [hb, hwaiting, ho, hport]
  · rw [(Store.updated_touch t _).isSome_iff, hres b]
  · rw [Store.overlay_touch hf.valid, hover]
    rfl

/-- The cache after a miss, which sends the fetch of the block. -/
theorem Sane.fire_miss (h : c.Sane D) (hs : c.service = .access id) (hw : c.Waits D id p)
    (hn : c.store.lookup (p.block c.lineSize) = none) (now : Tick) :
    (c.fire now ⟨p⟩).result =
      .ok (({ c with stats := { c.stats with misses := c.stats.misses + 1 } }.serving
        (.fetch id now (p.kept c.lineSize))).withLane (c.lane.push (p.fetch c.lineSize))) := by
  have hpos : 0 < c.store.lineSize := h.lineSize ▸ h.pos
  have hblock : Block.align? c.lineSize p.addr = .ok (p.block c.lineSize) := Block.align?_of_pos h.pos p.addr
  have hacc := Store.access_of_not_resident (p := p) hpos (by rw [h.lineSize]; exact hn)
  have hserve : LawfulMemory.Serves c.memPort.peer (p.fetch c.lineSize) :=
    h.lane.serves _ hw.access.isBlock_fetch (by rw [Packet.addr_fetch]; exact hw.domain)
  simp [fire, h.agrees.phase_eq hs, hblock, hacc]
  exact result_miss (c := { c with
    stats := { c.stats with misses := c.stats.misses + 1 } }) h.agrees hs h.pos hw.access hserve now

/-! ## Fills -/

/-- A block came into the store, and the evicted one, if any, went onto the
lane; the bytes shown are `m`. -/
structure Installed (D : Nat → Prop) (c : Cache ρ μ) (m : FlatMemory) (store : Store) (l : Lane μ) :
    Prop where
  follows : c.store.Follows store 1
  resident : ∀ b, (store.lookup b).isSome → D b
  image : store.overlay l.backing = m
  sound : l.Sound D c.lineSize
  coming : l.coming = []
  lane : l = c.lane ∨ ∃ w, w.command.needsResponse = false ∧ w.IsBlock c.lineSize ∧ D w.addr ∧
    l = c.lane.push w

omit [LawfulRequestor ρ] in
/-- A block that is not resident is installed, which writes it to the bytes shown. -/
theorem Sane.install_spec (h : c.Sane D) (hheld : c.lane.held = []) (hcoming : c.lane.coming = [])
    {a : Packet} {addr : Nat} {data : Bytes} (ha : a.IsFill addr c.lineSize) (hdata : a.payload = some data)
    (hd : c.lineSize ∣ addr) (hD : D addr) (hn : c.store.lookup addr = none) :
    ∃ victim store l, (c.store.insert addr data).result = .ok (victim, store) ∧
      l = c.lane.pushAll (Store.writebacks victim) ∧
      (c.install a).result = .ok ({ c with store }.withLane l) ∧
      Installed D c (c.image.write addr data) store l ∧ (store.lookup addr).isSome := by
  have hsize := h.lineSize
  have hpos : 0 < c.store.lineSize := hsize ▸ h.pos
  obtain rfl := ha.addr_eq
  have hlen : data.length = c.store.lineSize := by
    obtain ⟨data', hd', hl'⟩ := ha.payload
    obtain rfl : data = data' := Option.some.inj (hdata.symm.trans hd')
    exact hl'.trans hsize.symm
  obtain ⟨victim, store, hins, hf, hi⟩ := h.valid.insert_eq_ok hn (hsize ▸ hd) hlen
  have hover := h.valid.overlay_inserted hpos hf hi (hsize ▸ hd) hlen c.lane.backing
  have halign : Block.align? c.lineSize a.addr = .ok a.addr := by
    rw [Block.align?_of_pos h.pos, Block.align_of_dvd hd]
  have hres : ∀ b, (store.lookup b).isSome → D b := fun b hb => by
    obtain ⟨l, hl⟩ := Option.isSome_iff_exists.mp hb
    rcases hi.of_some hl with ⟨rfl, -⟩ | hl
    · exact hD
    · exact h.resident b (by simp [hl])
  have hpresent : (store.lookup a.addr).isSome := by simp [hi.fresh]
  have hroom : store.size ≤ store.capacity := hf.valid.size_le_capacity
  cases victim with
  | none =>
    refine ⟨none, store, c.lane, hins, rfl, ?_, ⟨hf, hres, hover, h.lane, hcoming, .inl rfl⟩, hpresent⟩
    simp [install, halign, ha.size_eq, hn, ha.isResponse, Packet.data?, hdata, hins, writeBack, hroom]
    rfl
  | some v =>
    have hv : c.store.lookup v.tag = some v := hi.resident v rfl
    have hwb : (Packet.writeback v.tag v.data).IsBlock c.lineSize :=
      hsize ▸ h.valid.isBlock_writebacks hi _ (List.mem_singleton_self _)
    have hvD : D v.tag := h.resident _ (by simp [hv])
    obtain ⟨hs, hc, hb⟩ := h.lane.push_spec hcoming hwb hvD (.inl hheld)
    have hfree : c.memPort.parked = none := by
      have := (List.append_eq_nil_iff.mp hheld).1
      simpa [Cache.lane] using this
    have hsend := MemSidePort.result_send hfree (h.lane.serves _ hwb hvD)
    refine ⟨some v, store, c.lane.push (.writeback v.tag v.data), hins, rfl, ?_,
      ⟨hf, hres, by rw [hb]; exact hover, hs, hc, .inr ⟨_, rfl, hwb, hvD, rfl⟩⟩, hpresent⟩
    have hpush : c.lane.push (.writeback v.tag v.data) =
        ⟨c.memPort.forwarded (.writeback v.tag v.data), c.deferred⟩ := Lane.push_of_free hfree _
    simp [install, halign, ha.size_eq, hn, ha.isResponse, Packet.data?, hdata, hins, writeBack, hsend, hpush, hroom]
    rfl

/-- The cache after the block that it waits for came, which completes the request. -/
theorem Sane.fill_spec (h : c.Sane D) {since now : Nat}
    (hs : c.service = .fetch id since (p.kept c.lineSize)) (hw : c.Waits D id p)
    (hn : c.store.lookup (p.block c.lineSize) = none) (hheld : c.lane.held = [])
    (hcoming : c.lane.coming = []) {a : Packet} {data : Bytes}
    (ha : a.IsFill (p.block c.lineSize) c.lineSize) (hdata : a.payload = some data) (hle : since ≤ now) :
    ∃ victim t store l, (c.store.insert (p.block c.lineSize) data).result = .ok (victim, t) ∧
      (t.complete (p.kept c.lineSize)).result = .ok store ∧
      l = c.lane.pushAll (Store.writebacks victim) ∧
      (c.fill now a).result = (do
        let missLatency ← c.stats.missLatency.sample (now - since)
        return ({ c with store, stats := { c.stats with missLatency } }.withLane l).answered id
          (p.completion c.lineSize (c.image.write (p.block c.lineSize) data) a)) ∧
      Installed D c (p.outcome c.lineSize (c.image.write (p.block c.lineSize) data)) store l := by
  obtain ⟨port, hport, hfree⟩ := hw.port
  obtain ⟨victim, t, l, hvictim, hl, hins, hi, hpresent⟩ :=
    h.install_spec hheld hcoming ha hdata (p.dvd_block _) hw.domain hn
  have hb : c.blocked = true := h.agrees.blocked_eq hs
  have hphase : c.phase = .waitMem := h.agrees.phase_eq hs
  have hwaiting : c.waitingPort = some id := h.agrees.waitingPort_eq hs
  have hsub : Word.sub now c.missTime = .ok (now - since) := by
    rw [h.agrees.missTime_eq hs]
    exact Word.sub_eq_ok.mpr ⟨hle, rfl⟩
  have ho : c.original = p.kept c.lineSize := h.agrees.original_eq hs
  cases hk : p.kept c.lineSize with
  | none =>
    rw [hk] at ho
    refine ⟨victim, t, t, l, hvictim, rfl, hl, ?_, by simpa only [Packet.outcome, hk] using hi⟩
    simp [fill, hb, hphase, ha.isResponse, hins, hsub, ho, Packet.completion, hk]
    refine congrArg _ (funext fun missLatency => ?_)
    refine result_reply_of_none ?_ ?_ ?_ ?_ hfree a
    exacts [hb, hwaiting, ho, hport]
  | some q =>
    obtain rfl := Packet.kept_eq_some hk
    rw [hk] at ho
    have hsize : t.lineSize = c.lineSize := hi.follows.lineSize.trans h.lineSize
    obtain ⟨line, hline⟩ := Option.isSome_iff_exists.mp hpresent
    obtain ⟨r, store, hacc, hf, hres, hm⟩ := hi.follows.valid.access_of_resident (p := q) (l := line)
      (by rw [hsize]; exact h.pos) (by rw [hsize]; exact hw.access) (by rw [hsize]; exact hline)
    obtain ⟨hans, hover⟩ := hm l.backing
    rw [hi.image] at hans hover
    refine ⟨victim, t, store, l, hvictim, by simp [Store.complete, hacc], hl, ?_, ⟨hi.follows.trans hf,
      fun b hb => hi.resident b ((hres b).mp hb), ?_, hi.sound, hi.coming, hi.lane⟩⟩
    · simp [fill, hb, hphase, ha.isResponse, hins, hsub, ho, hacc, hans, Packet.completion, hk]
      refine congrArg _ (funext fun missLatency => ?_)
      refine result_reply_of_none ?_ ?_ ?_ ?_ hfree _
      exacts [rfl, hwaiting, rfl, hport]
    · simp only [Packet.outcome, hk]
      exact hover

/-! ## Signals -/

omit [LawfulMemory μ] in
/-- A requestor is offered the answer that its port holds. -/
theorem retryResponse_spec {port : CpuSidePort ρ} (hport : c.cpuPorts[id]? = some port)
    (hp : port.parked = some p) :
    (c.retryResponse id).result = .ok (c.setCpuPort id (port.retried p)) := by
  simp [retryResponse, cpuPort_eq_ok hport, CpuSidePort.result_retryResponse hp]

omit [LawfulRequestor ρ] in
/-- The memory is offered the packets that wait. -/
theorem Sane.retryRequest_spec (h : c.Sane D) (hp : c.memPort.parked = some p) :
    c.retryRequest.result = .ok (c.withLane c.lane.retried) := by
  have hblock : ∀ q ∈ c.lane.held, LawfulMemory.Serves c.memPort.peer q := fun q hq =>
    have hb := h.lane.blocks q hq
    h.lane.serves q hb.1 hb.2
  have hserve := hblock p (by simp [Cache.lane, Lane.held, hp])
  have hsend := MemSidePort.result_retryRequest hp hserve
  cases hd : c.deferred with
  | none => simp [retryRequest, hsend, hd, Cache.lane, Lane.retried, hp, Cache.withLane]
  | some f =>
    cases hpark : (c.memPort.freed.forwarded p).parked with
    | none =>
      have hf := hblock f (by simp [Cache.lane, Lane.held, hd])
      have hnext := MemSidePort.result_send hpark (MemSidePort.serves_forwarded (m := c.memPort.freed) hserve hf)
      simp [retryRequest, hsend, hd, Cache.lane, Lane.retried, hp, hpark, hnext, Cache.withLane]
    | some w => simp [retryRequest, hsend, hd, Cache.lane, Lane.retried, hp, hpark, Cache.withLane]

end CacheSim.Cache
