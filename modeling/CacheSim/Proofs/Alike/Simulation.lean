import CacheSim.Proofs.Alike.Cache
import CacheSim.Simulation.Run

/-!
# Systems over related stores

Two systems that are the same but for the stores of their caches, which are
related by a bisimulation (`Simulation.Twin`): every phase of a cycle, and so
every run, is alike in both, and they tell the same in the end (`Twin.run`).
Such systems are built from configurations that differ in what they say about
the store only (`Akin`), and what comes of a configuration and a trace is
then the same (`Akin.outcome_eq`).
-/

namespace CacheSim.Simulation

variable {n : Nat} {R : Store → Store → Prop}

/-- The system `s` with another cache, a twin of its own. -/
inductive Twin (n : Nat) (R : Store → Store → Prop) (s : Simulation) : Simulation → Prop where
  | intro (cache : Cache Mailbox TimedMemory) (twin : s.cache.Twin n R cache) : Twin n R s { s with cache }

variable {s t : Simulation}

theorem twin_of_eq (h : s.cache.Twin n R t.cache) (ht : t = { s with cache := t.cache }) : Twin n R s t := by
  rw [ht]
  exact .intro t.cache h

namespace Twin

/-! ## The parts of a system -/

theorem memory_eq (h : Twin n R s t) : t.memory = s.memory := by
  obtain ⟨_, ⟨store, g, hs, hn, hn', hl⟩⟩ := h
  rfl

theorem mailbox_eq (h : Twin n R s t) (id : Nat) : t.mailbox id = s.mailbox id := by
  obtain ⟨_, ⟨store, g, hs, hn, hn', hl⟩⟩ := h
  rfl

theorem requestors_eq (h : Twin n R s t) : t.requestors = s.requestors := by
  obtain ⟨_, _⟩ := h
  rfl

theorem isDone_eq (h : Twin n R s t) : t.isDone = s.isDone := by
  obtain ⟨_, ⟨store, g, hs, hn, hn', hl⟩⟩ := h
  rfl

theorem withMemory (m : TimedMemory) (h : Twin n R s t) : Twin n R (s.withMemory m) (t.withMemory m) := by
  obtain ⟨_, ⟨store, g, hs, hn, hn', hl⟩⟩ := h
  exact twin_of_eq (Cache.twin_of_eq hs hn hn' hl rfl) rfl

theorem withMailbox (id : Nat) (m : Mailbox) (h : Twin n R s t) :
    Twin n R (s.withMailbox id m) (t.withMailbox id m) := by
  obtain ⟨_, ⟨store, g, hs, hn, hn', hl⟩⟩ := h
  unfold Simulation.withMailbox
  dsimp only
  cases s.cache.cpuPorts[id]? with
  | none => exact twin_of_eq (Cache.twin_of_eq hs hn hn' hl rfl) rfl
  | some port => exact twin_of_eq (Cache.twin_of_eq hs hn hn' hl rfl) rfl

theorem cache (h : Twin n R s t) : s.cache.Twin n R t.cache := by
  obtain ⟨_, h⟩ := h
  exact h

/-- A call of the caches, and what follows in their systems. -/
theorem withCache {x y : Except Fault (Cache Mailbox TimedMemory)} (h : Twin n R s t)
    (hxy : Alike (Cache.Twin n R) x y) :
    Alike (Twin n R) (x >>= fun cache => .ok { s with cache }) (y >>= fun cache => .ok { t with cache }) := by
  refine hxy.bind fun c d hcd => ?_
  obtain ⟨_, _⟩ := h
  exact .ok (twin_of_eq hcd rfl)

/-! ## The phases of a cycle -/

theorem retryResponse (h : Twin n R s t) (id : Nat) :
    Alike (Twin n R) (s.retryResponse id).result (t.retryResponse id).result := by
  unfold Simulation.retryResponse
  simp only [h.mailbox_eq, Sim.result_bind, Sim.result_liftM, apply_ite Sim.result, Sim.result_pure]
  refine .after _ fun m _ => .ite _ (h.withCache ?_) (.ok h)
  exact (h.withMailbox id _).cache.retryResponse id

theorem retryResponses (h : Twin n R s t) : Alike (Twin n R) s.retryResponses.result t.retryResponses.result := by
  unfold Simulation.retryResponses
  rw [h.requestors_eq]
  exact .foldlM _ (fun h r => h.retryResponse r.id) h

theorem deliver (hR : Store.Bisimulation n R) (k : Nat) (h : Twin n R s t) :
    Alike (Twin n R) (deliver k s).result (deliver k t).result := by
  induction k generalizing s t with
  | zero => exact .ok h
  | succ k ih =>
    unfold Simulation.deliver
    rw [h.memory_eq]
    cases s.memory.takeResponse with
    | none => exact .ok h
    | some pm =>
      obtain ⟨p, m⟩ := pm
      have h' := h.withMemory m
      obtain ⟨_, _⟩ := h
      simp only [Sim.result_bind]
      exact (h'.cache.fill hR _ p).bind fun c d hcd => ih (twin_of_eq hcd rfl)

theorem deliverAll (hR : Store.Bisimulation n R) (h : Twin n R s t) :
    Alike (Twin n R) s.deliverAll.result t.deliverAll.result := by
  unfold Simulation.deliverAll
  rw [h.memory_eq]
  exact h.deliver hR _

theorem retryRequest (h : Twin n R s t) : Alike (Twin n R) s.retryRequest.result t.retryRequest.result := by
  unfold Simulation.retryRequest
  simp only [h.memory_eq, apply_ite Sim.result, Sim.result_bind, Sim.result_pure]
  exact .ite _ (h.withCache (h.withMemory _).cache.retryRequest) (.ok h)

theorem fire (hR : Store.Bisimulation n R) (now : Tick) (k : Nat) (h : Twin n R s t) :
    Alike (Twin n R) (fire now k s).result (fire now k t).result := by
  induction k generalizing s t with
  | zero => exact .ok h
  | succ k ih =>
    obtain ⟨cache, hcache⟩ := h
    unfold Simulation.fire
    dsimp only
    cases s.queue.popDue? now with
    | none => exact .ok (.intro cache hcache)
    | some e =>
      obtain ⟨tick, event, queue⟩ := e
      simp only [Sim.result_bind]
      exact (hcache.fire hR tick event).bind fun c d hcd => ih (twin_of_eq hcd rfl)

theorem fireDue (hR : Store.Bisimulation n R) (now : Tick) (h : Twin n R s t) :
    Alike (Twin n R) (s.fireDue now).result (t.fireDue now).result := by
  have hsize : t.queue.size = s.queue.size := by
    obtain ⟨_, _⟩ := h
    rfl
  unfold Simulation.fireDue
  rw [hsize]
  exact h.fire hR now _

/-- A request is offered to both caches, and accepted by both or by none. -/
theorem issue (r : ScriptedRequestor) (offer : Offer) (h : Twin n R s t) :
    Alike (SameWith (Twin n R))
      (r.issue offer fun p => do
        let (handshake, cache, queue) ← s.cache.offer s.queue r.id p
        return (handshake, { s with cache, queue })).result
      (r.issue offer fun p => do
        let (handshake, cache, queue) ← t.cache.offer t.queue r.id p
        return (handshake, { t with cache, queue })).result := by
  obtain ⟨cache, hcache⟩ := h
  simp only [ScriptedRequestor.issue, Sim.result_bind, Sim.result_debug, Sim.ok_bind, Sim.result_pure]
  have hsend : Alike (SameWith (Twin n R))
      ((s.cache.offer s.queue r.id offer.packet).result >>= fun x =>
        .ok (x.1, { s with cache := x.2.1, queue := x.2.2 }))
      ((cache.offer s.queue r.id offer.packet).result >>= fun x =>
        .ok (x.1, { s with cache := x.2.1, queue := x.2.2 })) := by
    refine (hcache.offer s.queue r.id offer.packet).bind fun x y hxy => ?_
    obtain ⟨hhandshake, hcache', hqueue⟩ := hxy
    exact .ok ⟨hhandshake, twin_of_eq hcache' (by rw [hqueue])⟩
  refine hsend.bind fun x y hxy => ?_
  obtain ⟨hhandshake, h'⟩ := hxy
  rw [hhandshake]
  exact .after _ fun r _ => .ok ⟨rfl, h'⟩

theorem play (cycle : Nat) (r : ScriptedRequestor) (h : Twin n R s t) :
    Alike (SameWith (Twin n R)) (s.play cycle r).result (t.play cycle r).result := by
  unfold Simulation.play
  simp only [h.mailbox_eq, Sim.result_bind, Sim.result_liftM]
  refine .after _ fun m _ => .after _ fun x _ => ?_
  obtain ⟨r, m⟩ := x
  dsimp only
  cases r.next? m with
  | none => exact .ok ⟨rfl, h.withMailbox r.id m⟩
  | some next =>
    obtain ⟨offer, r, m⟩ := next
    exact (h.withMailbox r.id m).issue r offer

theorem playAll (cycle : Nat) (rs : List ScriptedRequestor) (h : Twin n R s t) :
    Alike (SameWith (Twin n R)) (playAll cycle rs s).result (playAll cycle rs t).result := by
  induction rs generalizing s t with
  | nil => exact .ok ⟨rfl, h⟩
  | cons r rest ih =>
    simp only [Simulation.playAll, Sim.result_bind, Sim.result_pure]
    refine (h.play cycle r).bind fun x y hxy => ?_
    obtain ⟨hr, h'⟩ := hxy
    refine (ih h').bind fun x' y' hxy' => ?_
    obtain ⟨hrest, h''⟩ := hxy'
    exact .ok ⟨by rw [hr, hrest], h''⟩

theorem cycle (hR : Store.Bisimulation n R) (k : Nat) (h : Twin n R s t) :
    Alike (Twin n R) (s.cycle k).result (t.cycle k).result := by
  have hmemory := h.memory_eq
  obtain ⟨cache, hcache⟩ := h
  unfold Simulation.cycle
  simp only [hmemory, Sim.result_bind, Sim.result_liftM, Sim.result_trace, Sim.ok_bind, Sim.result_pure]
  refine .after _ fun now _ => .after _ fun queue _ => .after _ fun memory _ => ?_
  have h : Twin n R { s with queue } { s with cache, queue } := .intro cache hcache
  refine (h.withMemory memory).retryResponses.bind fun _ _ h => (h.deliverAll hR).bind fun _ _ h => ?_
  refine h.retryRequest.bind fun _ _ h => (h.fireDue hR now).bind fun _ _ h => ?_
  rw [h.requestors_eq]
  refine (h.playAll k _).bind fun x y hxy => ?_
  obtain ⟨requestors, s⟩ := x
  obtain ⟨_, _⟩ := y
  obtain ⟨rfl, ⟨_, h⟩⟩ := hxy
  exact .ok (twin_of_eq h rfl)

theorem step (hR : Store.Bisimulation n R) (h : Twin n R s t) : Alike (Twin n R) s.step.result t.step.result := by
  have hnext : t.nextCycle = s.nextCycle := by
    obtain ⟨_, _⟩ := h
    rfl
  unfold Simulation.step
  simp only [hnext, Sim.result_bind, Sim.result_pure]
  refine (h.cycle hR s.nextCycle).bind fun _ _ h => ?_
  obtain ⟨_, h⟩ := h
  exact .ok (twin_of_eq h rfl)

/-- A run of twins ends alike, with the same summary or stall. -/
theorem run (hR : Store.Bisimulation n R) (limit : Nat) (h : Twin n R s t) :
    Alike (SameWith (Twin n R)) (s.run limit).result (t.run limit).result := by
  have hnext : t.nextCycle = s.nextCycle := by
    obtain ⟨_, _⟩ := h
    rfl
  unfold Simulation.run Simulation.advance
  simp only [hnext, Sim.result_bind, apply_ite Sim.result, Sim.result_info, Sim.ok_bind, Sim.result_pure]
  refine (Alike.iterate (fun h => congrArg (!·) h.isDone_eq.symm) (fun h => h.step hR) _ h).bind fun s t h => ?_
  rw [h.isDone_eq]
  obtain ⟨_, ⟨store, g, hs, hn, hn', hl⟩⟩ := h
  have h : Twin n R s { s with cache := { s.cache with store, geometry := g } } :=
    twin_of_eq (Cache.twin_of_eq hs hn hn' hl rfl) rfl
  exact .ite _ (.ok ⟨rfl, h⟩) (.ok ⟨rfl, h⟩)

end Twin

/-! ## From configurations to what comes of them -/

/-- Configurations that are accepted or refused alike, that differ in what they say
about the store only, and whose new stores are alike. -/
structure Akin (n : Nat) (R : Store → Store → Prop) (c d : Config) : Prop where
  clock : d.clockPeriod = c.clockPeriod
  memory : d.memory = c.memory
  ports : d.cache.ports = c.cache.ports
  validate : d.validate = c.validate
  stores : Alike (fun g g' => (g.lineSize = n ∧ g'.lineSize = n ∧ g'.latency = g.latency) ∧
    Alike R (Store.ofGeometry? g (.seeded c.seed.toNat)) (Store.ofGeometry? g' (.seeded d.seed.toNat)))
    c.geometry d.geometry

/-- What comes of a configuration and a trace in at most `limit` cycles: a summary or
the state of a stall, unless the system is not built. -/
def outcome (config : Config) (trace : Trace) (limit : Nat) :
    Sim (Except SimulationError (Except Stall Summary)) := do
  match ← build config trace with
  | .error e => return .error e
  | .ok s => return .ok (← s.run limit).1

variable {config config' : Config}

theorem Akin.assemble (hR : Store.Bisimulation n R) (h : Akin n R config config') (trace : Trace) :
    Alike (Twin n R) (assemble config trace).result (assemble config' trace).result := by
  unfold Simulation.assemble
  simp only [h.clock, h.memory, h.ports, Sim.result_bind, Sim.result_liftM, Sim.result_info, Sim.ok_bind,
    Sim.result_pure]
  refine .after _ fun clock _ => .after _ fun memory _ => h.stores.bind fun g g' hg => ?_
  obtain ⟨⟨hn, hn', hl⟩, hstores⟩ := hg
  refine hstores.bind fun s t hst => (Cache.build_alike hR hst hn hn' hl _ _ _).bind fun c d hcd => ?_
  exact .ok (twin_of_eq hcd rfl)

/-- The same comes of both configurations. -/
theorem Akin.outcome_eq (hR : Store.Bisimulation n R) (h : Akin n R config config') (trace : Trace) (limit : Nat) :
    (outcome config trace limit).result = (outcome config' trace limit).result := by
  have hcheck : check config' trace = check config trace := by
    unfold check
    rw [h.validate, h.ports]
  unfold outcome build
  rw [hcheck]
  cases check config trace with
  | error e => rfl
  | ok _ =>
    simp only [Sim.result_bind, Sim.result_pure, bind_assoc, Sim.ok_bind]
    refine Alike.eq ((h.assemble hR trace).bind fun _ _ hst => (hst.run hR limit).bind fun x y hxy => ?_)
    exact .ok (congrArg Except.ok hxy.1)

end CacheSim.Simulation
