import CacheSim.Proofs.Blank.Ports
import CacheSim.Proofs.Blank.Store
import CacheSim.Proofs.Cache.Invariant

/-!
# A blanked cache

The cache with zeros in all packets, lines and memories.  Every call does the
same to it as to the cache: what a call does next depends on commands, addresses,
sizes, flags and times, and on no byte.
-/

namespace CacheSim

/-- The control fields with zeros in the request that is kept. -/
def Control.blank (k : Control) : Control :=
  { k with original := k.original.map Packet.blank }

/-- The event with zeros in its packet. -/
def AccessEvent.blank (e : AccessEvent) : AccessEvent :=
  ⟨e.packet.blank⟩

namespace EventQueue

/-- The queue with zeros in the packets of all events. -/
def blank (q : EventQueue AccessEvent) : EventQueue AccessEvent :=
  { q with pending := q.pending.map (Prod.map id AccessEvent.blank) }

variable (q : EventQueue AccessEvent)

@[simp] theorem next?_blank : q.blank.next? = q.next? := by
  simp only [next?, blank, List.head?_map, Option.map_map]
  rfl

theorem place_blank (tick : Tick) (e : AccessEvent) (es : List (Tick × AccessEvent)) :
    place tick e.blank (es.map (Prod.map id AccessEvent.blank)) =
      (place tick e es).map (Prod.map id AccessEvent.blank) := by
  induction es with
  | nil => rfl
  | cons f es ih =>
    simp only [List.map_cons, place, Prod.map_fst, id, ih]
    split <;> rfl

theorem agree_schedule (e : AccessEvent) (tick : Tick) :
    Agree blank (q.schedule e tick) (q.blank.schedule e.blank tick) :=
  .ite Iff.rfl (.of_eq (congrArg (fun es => { q with pending := es }) (place_blank tick e q.pending))) (.error _ _)

theorem agree_advanceTo (tick : Tick) : Agree blank (q.advanceTo tick) (q.blank.advanceTo tick) := by
  unfold advanceTo
  rw [next?_blank]
  refine .ite Iff.rfl ?_ (.error _ _)
  cases q.next? with
  | none => exact .ok _
  | some next => exact .ite Iff.rfl (.ok _) (.error _ _)

theorem pop?_blank : q.blank.pop? = q.pop?.map (Prod.map id (Prod.map AccessEvent.blank blank)) := by
  obtain ⟨clock, now, _ | ⟨⟨tick, e⟩, es⟩⟩ := q <;> rfl

end EventQueue

namespace Cache

/-- The cache with zeros in all packets, lines and memories. -/
def blank (c : Cache FreeRequestor (Recorded FreeMemory)) : Cache FreeRequestor (Recorded FreeMemory) :=
  { c with
    toControl := c.toControl.blank
    store := c.store.blank
    cpuPorts := c.cpuPorts.map CpuSidePort.blank
    memPort := c.memPort.blank
    deferred := c.deferred.map Packet.blank }

variable (c : Cache FreeRequestor (Recorded FreeMemory))

@[simp] theorem lineSize_blank : c.blank.lineSize = c.lineSize := rfl
@[simp] theorem blocked_blank : c.blank.blocked = c.blocked := rfl
@[simp] theorem waitingPort_blank : c.blank.waitingPort = c.waitingPort := rfl
@[simp] theorem original_blank : c.blank.original = c.original.map Packet.blank := rfl
@[simp] theorem missTime_blank : c.blank.missTime = c.missTime := rfl
@[simp] theorem phase_blank : c.blank.phase = c.phase := rfl
@[simp] theorem memPort_blank : c.blank.memPort = c.memPort.blank := rfl
@[simp] theorem deferred_blank : c.blank.deferred = c.deferred.map Packet.blank := rfl

theorem agree_cpuPort (id : Nat) : Agree CpuSidePort.blank (c.cpuPort id) (c.blank.cpuPort id) := by
  simp only [cpuPort, blank, List.getElem?_map]
  cases c.cpuPorts[id]? with
  | none => exact .error _ _
  | some port => exact .ok _

theorem blank_setCpuPort (id : Nat) (port : CpuSidePort FreeRequestor) :
    (c.setCpuPort id port).blank = c.blank.setCpuPort id port.blank := by
  simp only [setCpuPort, blank, List.map_set]

theorem connect_blank (name : String) (i : Nat) (peers : List FreeRequestor) :
    (connect name i peers).map CpuSidePort.blank = connect name i (peers.map FreeRequestor.blank) := by
  induction peers generalizing i with
  | nil => rfl
  | cons peer peers ih =>
    rw [connect, List.map_cons, ih, List.map_cons, connect]
    rfl

/-- A new cache is the same over any bytes. -/
theorem agree_build (name : String) (g : Geometry) (store : Store) (requestors : List (Nat → Bool))
    (choices : Nat → Bool) (contents : FlatMemory) :
    Agree blank
      (build name g store (requestors.map fun choices => { choices }) { memory := { choices, contents } }).result
      (build name g store.blank (requestors.map fun choices => { choices })
        { memory := { choices, contents := .zeros } }).result := by
  have hpeers : (requestors.map fun choices => ({ choices } : FreeRequestor)).map FreeRequestor.blank =
      requestors.map fun choices => { choices } := by
    rw [List.map_map]
    rfl
  simp only [build, Sim.result_bind, Sim.result_debug, Sim.ok_bind, Sim.result_pure]
  refine .bind (.refl _) fun _ => .bind (.require (by rw [Store.lineSize_blank]) _ _) fun _ => .of_eq ?_
  simp only [blank, connect_blank, hpeers]
  rfl

/-! ## Requests -/

/-- A request is accepted or refused, and its access scheduled, whatever its bytes are. -/
theorem agree_offer (q : EventQueue AccessEvent) (id : Nat) (p : Packet) :
    Agree (Prod.map Handshake.blank (Prod.map blank EventQueue.blank)) (c.offer q id p).result
      (c.blank.offer q.blank id p.blank).result := by
  have hrefuse : ∀ port : CpuSidePort FreeRequestor,
      Agree (Prod.map Handshake.blank (Prod.map blank EventQueue.blank))
        (.ok (.refused p, c.setCpuPort id { port with needsRetry := true }, q))
        (.ok (.refused p.blank, c.blank.setCpuPort id { port.blank with needsRetry := true }, q.blank)) := fun port =>
    .of_eq (Prod.ext rfl (Prod.ext (c.blank_setCpuPort id { port with needsRetry := true }).symm rfl))
  unfold offer
  rw [blocked_blank]
  simp only [apply_ite Sim.result, Sim.result_bind, Sim.result_liftM, Sim.result_debug, Sim.ok_bind,
    Sim.result_pure, CpuSidePort.refuse]
  refine .bind (c.agree_cpuPort id) fun port => ?_
  rw [CpuSidePort.canAccept_blank]
  refine .ite Iff.rfl (hrefuse port) (.ite Iff.rfl (hrefuse port) (.bind (.require Iff.rfl _ _) fun _ => ?_))
  exact .bind (.refl _) fun tick => .bind (q.agree_schedule ⟨p⟩ tick) fun r => .ok (_, _, r)

theorem agree_reply (p : Packet) : Agree blank (c.reply p).result (c.blank.reply p.blank).result := by
  have hmap : ∀ ports : List (CpuSidePort FreeRequestor),
      (ports.mapM CpuSidePort.trySendRetry).result = .ok (ports.map CpuSidePort.notified) := fun ports =>
    Sim.result_mapM fun port _ => port.result_trySendRetry
  unfold reply
  simp only [Sim.result_bind, waitingPort_blank]
  refine .bind (.require Iff.rfl _ _) fun _ => ?_
  cases c.waitingPort with
  | none => exact .error _ _
  | some id =>
    have hport : c.blank.cpuPorts[id]? = c.cpuPorts[id]?.map CpuSidePort.blank := List.getElem?_map ..
    simp only [Sim.result_bind, Sim.result_debug, Sim.ok_bind, hport]
    cases c.cpuPorts[id]? with
    | none => exact .error _ _
    | some port =>
      simp only [Option.map_some, Sim.result_bind, Sim.result_pure, hmap, Sim.ok_bind]
      refine .bind (port.agree_send p) fun port => .of_eq ?_
      have hports : ((c.cpuPorts.map CpuSidePort.blank).set id port.blank).map CpuSidePort.notified =
          ((c.cpuPorts.set id port).map CpuSidePort.notified).map CpuSidePort.blank := by
        rw [← List.map_set, List.map_map, List.map_map]
        exact List.map_congr_left fun port _ => port.blank_notified.symm
      exact congrArg (fun ports =>
        { c.blank with waitingPort := none, blocked := false, phase := .idle, cpuPorts := ports }) hports

/-! ## Misses -/

theorem agree_sendFetch (p : Packet) :
    Agree blank (c.sendFetch p).result (c.blank.sendFetch p.blank).result := by
  cases hp : c.memPort.parked with
  | some w =>
    have hp' : c.blank.memPort.parked = some w.blank := by simp [hp]
    simp only [sendFetch, hp, hp', Sim.result_bind, Sim.result_debug, Sim.ok_bind, Sim.result_pure]
    exact .ok _
  | none =>
    have hp' : c.blank.memPort.parked = none := by simp [hp]
    simp only [sendFetch, hp, hp', Sim.result_bind, Sim.result_pure]
    exact .bind (c.memPort.agree_send p) fun port => .ok _

theorem agree_miss (now : Tick) (p : Packet) :
    Agree blank (c.miss now p).result (c.blank.miss now p.blank).result := by
  by_cases hp : p.addr = p.block c.lineSize ∧ p.size = c.lineSize
  · have hp' : p.blank.addr = p.blank.block c.blank.lineSize ∧ p.blank.size = c.blank.lineSize := hp
    simp only [miss, if_pos hp, if_pos hp']
    exact agree_sendFetch { c with missTime := now, phase := .waitMem } p
  · have hp' : ¬(p.blank.addr = p.blank.block c.blank.lineSize ∧ p.blank.size = c.blank.lineSize) := hp
    simp only [miss, if_neg hp, if_neg hp', Sim.result_bind, Sim.result_liftM, Sim.result_debug, Sim.ok_bind]
    refine .bind (.require (p.fits_blank c.lineSize).symm _ _) fun _ => .bind (.require Iff.rfl _ _) fun _ => ?_
    refine .bind (p.agree_ofBlock? .readReq c.lineSize) fun fetch => ?_
    rw [← Packet.blank_allocate]
    exact agree_sendFetch { c with missTime := now, phase := .waitMem, original := some p } fetch.allocate

/-- The scheduled access hits or misses, whatever bytes there are. -/
theorem agree_fire (now : Tick) (e : AccessEvent) :
    Agree blank (c.fire now e).result (c.blank.fire now e.blank).result := by
  simp only [fire, Sim.result_bind, Sim.result_liftM]
  refine .bind (.require Iff.rfl _ _) fun _ => .bind (.refl _) fun block => ?_
  refine .bind (c.store.agree_access e.packet) fun o => ?_
  rcases o with _ | ⟨q, store⟩
  · simp only [Option.map_none, Sim.result_bind, Sim.result_debug, Sim.ok_bind]
    exact agree_miss { c with stats := { c.stats with misses := c.stats.misses + 1 } } now e.packet
  · simp only [Option.map_some, Prod.map_apply, Sim.result_bind, Sim.result_debug, Sim.ok_bind, Sim.result_liftM]
    refine .bind q.agree_respond? fun answer => ?_
    rw [← Store.blank_touch]
    exact agree_reply { c with
      stats := { c.stats with hits := c.stats.hits + 1 }
      store := store.touch block } answer

/-- The same victim is written back. -/
theorem agree_writeBack (addr : Nat) (victim : Option Line) :
    Agree MemSidePort.blank (c.writeBack addr victim).result (c.blank.writeBack addr (victim.map Line.blank)).result := by
  cases victim with
  | none => exact .ok _
  | some line =>
    simp only [writeBack, Option.map_some, Sim.result_bind, Sim.result_debug, Sim.result_trace, Sim.ok_bind]
    rw [Line.tag_blank, Line.data_blank, ← Packet.blank_writeback]
    exact c.memPort.agree_send (.writeback line.tag line.data)

/-- The block that comes is installed, and evicts the same victim, whatever its bytes are. -/
theorem agree_install (p : Packet) : Agree blank (c.install p).result (c.blank.install p.blank).result := by
  have hnone : (c.blank.store.lookup p.addr).isNone = (c.store.lookup p.addr).isNone := by
    rw [show c.blank.store = c.store.blank from rfl, Store.lookup_blank, Option.isNone_map]
  unfold install
  simp only [Sim.result_bind, Sim.result_liftM, Sim.result_trace, Sim.ok_bind]
  refine .bind (.refl _) fun block => .bind (.require Iff.rfl _ _) fun _ => .bind (.require Iff.rfl _ _) fun _ => ?_
  refine .bind (.require (by rw [Packet.addr_blank, hnone]) _ _) fun _ => .bind (.require Iff.rfl _ _) fun _ => ?_
  refine .bind p.agree_data? fun data => .bind (c.store.agree_insert p.addr data) fun o => ?_
  obtain ⟨victim, store⟩ := o
  refine .bind (c.agree_writeBack p.addr victim) fun memPort => ?_
  have hroom : store.blank.size ≤ store.blank.capacity ↔ store.size ≤ store.capacity := by
    rw [Store.size_blank, Store.capacity_blank]
  exact .bind (.require hroom.symm _ _) fun _ => .ok { c with store, memPort }

/-- The request is answered once its block came, whatever the bytes are. -/
theorem agree_fill (now : Tick) (p : Packet) :
    Agree blank (c.fill now p).result (c.blank.fill now p.blank).result := by
  simp only [fill, Sim.result_bind, Sim.result_liftM, Sim.result_debug, Sim.ok_bind]
  refine .bind (.require Iff.rfl _ _) fun _ => .bind (.require Iff.rfl _ _) fun _ => ?_
  refine .bind (.require Iff.rfl _ _) fun _ => .bind (c.agree_install p) fun d => .bind (.refl _) fun elapsed => ?_
  refine .bind (.refl _) fun missLatency => ?_
  cases ho : d.original with
  | none =>
    have ho' : d.blank.original = none := by rw [original_blank, ho]; rfl
    simp only [ho']
    exact agree_reply { d with stats := { d.stats with missLatency } } p
  | some request =>
    have ho' : d.blank.original = some request.blank := by rw [original_blank, ho]; rfl
    simp only [ho', Sim.result_bind, Sim.result_debug, Sim.ok_bind]
    refine .bind (d.store.agree_access request) fun o => ?_
    rcases o with _ | ⟨q, store⟩
    · exact .error _ _
    · simp only [Option.map_some, Prod.map_apply, Sim.result_bind, Sim.result_liftM]
      exact .bind q.agree_respond? fun answer =>
        agree_reply { d with stats := { d.stats with missLatency }, store, original := none } answer

/-! ## Signals -/

theorem agree_retryResponse (id : Nat) :
    Agree blank (c.retryResponse id).result (c.blank.retryResponse id).result := by
  unfold retryResponse
  simp only [Sim.result_bind, Sim.result_liftM, Sim.result_pure]
  exact .bind (c.agree_cpuPort id) fun port => .bind port.agree_retryResponse fun port =>
    .of_eq (c.blank_setCpuPort id port).symm

theorem agree_retryRequest : Agree blank c.retryRequest.result c.blank.retryRequest.result := by
  unfold retryRequest
  simp only [Sim.result_bind]
  refine .bind c.memPort.agree_retryRequest fun port => ?_
  cases hp : port.parked with
  | some w =>
    simp only [MemSidePort.parked_blank, hp, Option.map_some, Sim.result_pure]
    exact .ok { c with memPort := port }
  | none =>
    cases hd : c.deferred with
    | none =>
      simp only [MemSidePort.parked_blank, deferred_blank, hp, hd, Option.map_none, Sim.result_pure]
      exact .of_eq (by rw [blank, hd]; rfl)
    | some fetch =>
      simp only [MemSidePort.parked_blank, deferred_blank, hp, hd, Option.map_none, Option.map_some, Sim.result_bind,
        Sim.result_debug, Sim.ok_bind, Sim.result_pure]
      exact .bind (port.agree_send fetch) fun memPort => .ok { c with memPort, deferred := none }

end Cache

end CacheSim
