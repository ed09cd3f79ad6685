import CacheSim.Cache.Retry
import CacheSim.Cache.Timing
import CacheSim.Proofs.Alike.Basic
import CacheSim.Proofs.Packet

/-!
# Caches over related stores

Two caches that are the same but for their stores, which are related by a
bisimulation, and for what their geometries say about it (`Cache.Twin`).  Every
call of one is alike to the same call of the other, and they stay twins: what a
cache does depends on what its store looks up and evicts, and on the size of a
line and the latency.
-/

namespace CacheSim.Cache

variable {ρ μ : Type} {n : Nat} {R : Store → Store → Prop}

/-- The cache `c` over another store of lines of `n` bytes. -/
inductive Twin (n : Nat) (R : Store → Store → Prop) (c : Cache ρ μ) : Cache ρ μ → Prop where
  | intro (store : Store) (geometry : Geometry) (related : R c.store store) (lineSize : c.geometry.lineSize = n)
      (lineSize' : geometry.lineSize = n) (latency : geometry.latency = c.geometry.latency) :
    Twin n R c { c with store, geometry }

variable {c d : Cache ρ μ}

theorem twin_of_eq (hs : R c.store d.store) (hn : c.geometry.lineSize = n) (hn' : d.geometry.lineSize = n)
    (hl : d.geometry.latency = c.geometry.latency) (hd : d = { c with store := d.store, geometry := d.geometry }) :
    Twin n R c d := by
  rw [hd]
  exact .intro d.store d.geometry hs hn hn' hl

/-- Twins are built alike. -/
theorem build_alike (hR : Store.Bisimulation n R) {s t : Store} (hs : R s t) {g g' : Geometry} (hg : g.lineSize = n)
    (hg' : g'.lineSize = n) (hl : g'.latency = g.latency) (name : String) (requestors : List ρ) (memory : μ) :
    Alike (Twin n R) (build name g s requestors memory).result (build name g' t requestors memory).result := by
  obtain ⟨hsn, htn⟩ := hR.lineSize hs
  simp only [build, hsn, htn, hg, hg', Sim.result_bind, Sim.result_debug, Sim.ok_bind, Sim.result_pure]
  exact .after _ fun _ _ => .after _ fun _ _ => .ok (.intro t g' hs hg hg' hl)

namespace Twin

theorem offer (q : EventQueue AccessEvent) (id : Nat) (p : Packet) (h : Twin n R c d) :
    Alike (SameWith fun x y => Twin n R x.1 y.1 ∧ x.2 = y.2) (c.offer q id p).result (d.offer q id p).result := by
  obtain ⟨t, g, hs, hn, hn', hl⟩ := h
  have hrefuse : ∀ port : CpuSidePort ρ, Alike (SameWith fun x y => Twin n R x.1 y.1 ∧ x.2 = y.2)
      (port.refuse.result >>= fun port => .ok (Handshake.refused p, c.setCpuPort id port, q))
      (port.refuse.result >>= fun port =>
        .ok (Handshake.refused p, setCpuPort { c with store := t, geometry := g } id port, q)) :=
    fun port => .after _ fun _ _ => .ok ⟨rfl, twin_of_eq hs hn hn' hl rfl, rfl⟩
  unfold Cache.offer
  simp only [apply_ite Sim.result, Sim.result_bind, Sim.result_liftM, Sim.result_debug, Sim.ok_bind, Sim.result_pure,
    hl]
  refine .after _ fun port _ => .ite _ (hrefuse port) (.ite _ (hrefuse port) (.after _ fun _ _ => ?_))
  exact .after _ fun tick _ => .after _ fun queue _ => .ok ⟨rfl, twin_of_eq hs hn hn' hl rfl, rfl⟩

theorem reply [ResponseReceiver ρ] (p : Packet) (h : Twin n R c d) :
    Alike (Twin n R) (c.reply p).result (d.reply p).result := by
  obtain ⟨t, g, hs, hn, hn', hl⟩ := h
  unfold Cache.reply
  simp only [Sim.result_bind]
  refine .after _ fun _ _ => ?_
  cases c.waitingPort with
  | none => exact .error _
  | some id =>
    simp only [Sim.result_bind, Sim.result_debug, Sim.ok_bind]
    cases c.cpuPorts[id]? with
    | none => exact .error _
    | some port =>
      simp only [Sim.result_bind, Sim.result_pure]
      exact .after _ fun port _ => .after _ fun ports _ => .ok (twin_of_eq hs hn hn' hl rfl)

theorem retryResponse [ResponseReceiver ρ] (id : Nat) (h : Twin n R c d) :
    Alike (Twin n R) (c.retryResponse id).result (d.retryResponse id).result := by
  obtain ⟨t, g, hs, hn, hn', hl⟩ := h
  unfold Cache.retryResponse
  simp only [Sim.result_bind, Sim.result_liftM, Sim.result_pure]
  exact .after _ fun port _ => .after _ fun port _ => .ok (twin_of_eq hs hn hn' hl rfl)

variable [RequestReceiver μ]

theorem sendFetch (p : Packet) (h : Twin n R c d) :
    Alike (Twin n R) (c.sendFetch p).result (d.sendFetch p).result := by
  obtain ⟨t, g, hs, hn, hn', hl⟩ := h
  unfold Cache.sendFetch
  dsimp only
  cases c.memPort.parked with
  | some w =>
    simp only [Sim.result_bind, Sim.result_debug, Sim.ok_bind, Sim.result_pure]
    exact .ok (twin_of_eq hs hn hn' hl rfl)
  | none =>
    simp only [Sim.result_bind, Sim.result_pure]
    exact .after _ fun port _ => .ok (twin_of_eq hs hn hn' hl rfl)

theorem miss (now : Tick) (p : Packet) (h : Twin n R c d) :
    Alike (Twin n R) (c.miss now p).result (d.miss now p).result := by
  obtain ⟨t, g, hs, hn, hn', hl⟩ := h
  unfold Cache.miss Cache.lineSize
  simp only [hn, hn', apply_ite Sim.result, Sim.result_bind, Sim.result_liftM, Sim.result_debug, Sim.ok_bind]
  refine .ite _ (sendFetch p (twin_of_eq hs hn hn' hl rfl)) (.after _ fun _ _ => .after _ fun _ _ => ?_)
  refine .after _ fun fetch _ => ?_
  exact sendFetch fetch.allocate (twin_of_eq hs hn hn' hl rfl)

/-- The scheduled access hits in both caches or in none. -/
theorem fire [ResponseReceiver ρ] (hR : Store.Bisimulation n R) (now : Tick) (e : AccessEvent) (h : Twin n R c d) :
    Alike (Twin n R) (c.fire now e).result (d.fire now e).result := by
  obtain ⟨t, g, hs, hn, hn', hl⟩ := h
  simp only [Cache.fire, Cache.lineSize, hn, hn', Sim.result_bind, Sim.result_liftM]
  refine .after _ fun _ _ => .after _ fun block _ => (hR.access hs e.packet).bind fun x y hxy => ?_
  cases hxy with
  | none =>
    simp only [Sim.result_bind, Sim.result_debug, Sim.ok_bind]
    exact miss now e.packet (twin_of_eq hs hn hn' hl rfl)
  | some hqs =>
    obtain ⟨hq, hs'⟩ := hqs
    simp only [Sim.result_bind, Sim.result_liftM, Sim.result_debug, Sim.ok_bind, hq]
    exact .after _ fun answer _ => reply answer (twin_of_eq (hR.touch hs' block) hn hn' hl rfl)

/-- The same block is installed, and the same victim written back. -/
theorem install (hR : Store.Bisimulation n R) (p : Packet) (h : Twin n R c d) :
    Alike (Twin n R) (c.install p).result (d.install p).result := by
  obtain ⟨t, g, hs, hn, hn', hl⟩ := h
  unfold Cache.install Cache.lineSize
  simp only [hn, hn', ← hR.lookup hs, Sim.result_bind, Sim.result_liftM, Sim.result_trace, Sim.ok_bind]
  refine .after _ fun block hblock => .after _ fun _ haddr => .after _ fun _ _ => .after _ fun _ _ => ?_
  have hd : n ∣ p.addr := by
    unfold Block.align? at hblock
    split at hblock
    · cases hblock
    · obtain rfl := Except.ok.inj hblock
      by_cases hp : p.addr = Block.align n p.addr
      · exact hp ▸ Block.dvd_align n p.addr
      · rw [Sim.result_require, if_neg hp] at haddr
        cases haddr
  refine .after _ fun _ _ => .after _ fun data _ => (hR.insert hs p.addr data hd).bind fun x y hxy => ?_
  obtain ⟨hvictim, hs'⟩ := hxy
  simp only [← hvictim, ← hR.size hs', ← hR.capacity hs']
  exact .after _ fun memPort _ => .after _ fun _ _ => .ok (twin_of_eq hs' hn hn' hl rfl)

/-- The request in service is answered alike. -/
theorem fill [ResponseReceiver ρ] (hR : Store.Bisimulation n R) (now : Tick) (p : Packet) (h : Twin n R c d) :
    Alike (Twin n R) (c.fill now p).result (d.fill now p).result := by
  have hinstall := h.install hR p
  obtain ⟨t, g, hs, hn, hn', hl⟩ := h
  simp only [Cache.fill, Sim.result_bind, Sim.result_liftM, Sim.result_debug, Sim.ok_bind]
  refine .after _ fun _ _ => .after _ fun _ _ => .after _ fun _ _ => hinstall.bind fun c' d' h' => ?_
  obtain ⟨t', g', hs', hn, hn', hl⟩ := h'
  refine .after _ fun elapsed _ => .after _ fun missLatency _ => ?_
  cases ho : c'.original with
  | none => exact reply p (twin_of_eq hs' hn hn' hl rfl)
  | some request =>
    simp only [Sim.result_bind, Sim.result_debug, Sim.ok_bind]
    refine (hR.access hs' request).bind fun x y hxy => ?_
    cases hxy with
    | none => exact .error _
    | some hqs =>
      obtain ⟨hq, hs''⟩ := hqs
      simp only [Sim.result_bind, Sim.result_liftM, hq]
      exact .after _ fun answer _ => reply answer (twin_of_eq hs'' hn hn' hl rfl)

theorem retryRequest (h : Twin n R c d) : Alike (Twin n R) c.retryRequest.result d.retryRequest.result := by
  obtain ⟨t, g, hs, hn, hn', hl⟩ := h
  unfold Cache.retryRequest
  simp only [Sim.result_bind]
  refine .after _ fun port _ => ?_
  cases port.parked with
  | some w => exact .ok (twin_of_eq hs hn hn' hl rfl)
  | none =>
    cases c.deferred with
    | none => exact .ok (twin_of_eq hs hn hn' hl rfl)
    | some fetch =>
      simp only [Sim.result_bind, Sim.result_debug, Sim.ok_bind, Sim.result_pure]
      exact .after _ fun memPort _ => .ok (twin_of_eq hs hn hn' hl rfl)

end Twin

end CacheSim.Cache
