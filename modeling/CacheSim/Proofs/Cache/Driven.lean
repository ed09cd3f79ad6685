import CacheSim.Proofs.Cache.Results
import CacheSim.Proofs.Memory.Replay
import CacheSim.Proofs.Memory.Session
import CacheSim.Proofs.Store.Inclusion

/-!
# A cache drives its store

Whenever the calls of a cache answer at all, they use the blocks of the accepted
requests in the order in which these were accepted, and count those that were
resident (`Cache.Drives`).  A block is used when its access is performed, or when
it comes from the memory; meanwhile the only answer that the memory owes or will
owe is this block (`Serving`).  No bound on time or addresses is needed, as
nothing is said of a call that faults.
-/

namespace CacheSim

/-! ## What a port and a lane have done -/

namespace MemSidePort

variable {m n : MemSidePort TimedMemory} {p : Packet}

/-- The memory refuses a packet that is answered if it has no room for the answer. -/
theorem forwarded_of_full (h : (p.command.needsResponse && m.peer.inFlight.isFull) = true) :
    m.forwarded p = { m with peer := { m.peer with retryPending := true }, parked := some p } := by
  have hr : LawfulMemory.handle m.peer p = (.refused p, { m.peer with retryPending := true }) := if_pos h
  simp only [forwarded, hr]

/-- A request was offered to the memory while none was held. -/
theorem send_eq_ok (h : (m.send p).result = .ok n) : m.parked = none ∧ n = m.forwarded p :=
  forwarded_of_send (fun _ => TimedMemory.offer_eq_ok) h

end MemSidePort

namespace Lane

section

variable {μ : Type} [LawfulMemory μ]

/-- The addresses of the answers that the memory owes, and of those that it will owe. -/
def awaited (l : Lane μ) : List Nat :=
  (l.owed ++ l.held.filter (·.command.needsResponse)).map (·.addr)

end

variable {l : Lane TimedMemory} {port : MemSidePort TimedMemory} {p : Packet}

/-- It makes no difference whether a request is held or was accepted. -/
theorem awaited_forwarded (h : port.parked = none) (p : Packet) (deferred : Option Packet) :
    (Lane.mk (port.forwarded p) deferred).awaited = (Lane.mk { port with parked := some p } deferred).awaited := by
  cases hfull : p.command.needsResponse && port.peer.inFlight.isFull with
  | true =>
    rw [MemSidePort.forwarded_of_full hfull]
    rfl
  | false =>
    have hperformed : LawfulMemory.handle port.peer p = (.accepted, port.peer.performed p) := if_neg (by simp [hfull])
    have hforwarded : port.forwarded p = { port with peer := port.peer.performed p } := by
      simp only [MemSidePort.forwarded, hperformed]
    rw [hforwarded]
    cases hp : p.command.needsResponse <;>
      simp [awaited, held, owed, LawfulMemory.owed, TimedMemory.owed, TimedMemory.performed, h, hp, Fifo.enqueue, FlatMemory.answer]

/-- Only a packet that is answered has an answer that is awaited. -/
theorem awaited_push_of_free (h : l.port.parked = none) (hp : p.command.needsResponse = false) :
    (l.push p).awaited = l.awaited := by
  rw [push_of_free h]
  show (Lane.mk (l.port.forwarded p) l.deferred).awaited = _
  rw [awaited_forwarded h]
  simp [awaited, held, owed, h, hp]

/-- The answer to a packet is awaited as soon as it is put on the lane. -/
theorem awaited_push (h : l.awaited = []) (hp : p.command.needsResponse) : (l.push p).awaited = [p.addr] := by
  obtain ⟨howed, hheld⟩ := List.append_eq_nil_iff.mp (List.map_eq_nil_iff.mp h)
  have hheld := List.filter_eq_nil_iff.mp hheld
  have hdeferred : l.deferred.toList.filter (·.command.needsResponse) = [] :=
    List.filter_eq_nil_iff.mpr fun q hq => hheld q (List.mem_append_right _ hq)
  cases hparked : l.port.parked with
  | none =>
    rw [push_of_free hparked]
    show (Lane.mk (l.port.forwarded p) l.deferred).awaited = _
    rw [awaited_forwarded hparked]
    show (l.owed ++ (p :: l.deferred.toList).filter (·.command.needsResponse)).map (·.addr) = _
    rw [howed, List.nil_append, List.filter_cons, if_pos hp, hdeferred]
    rfl
  | some w =>
    have hw : w.command.needsResponse = false := by simpa using hheld w (by simp [held, hparked])
    have hpush : l.push p = { l with deferred := some p } := by simp only [push, hparked]
    rw [hpush]
    show (l.owed ++ (l.port.parked.toList ++ [p]).filter (·.command.needsResponse)).map (·.addr) = _
    simp [howed, hparked, hw, hp]

/-- Packets that are offered again are still awaited, or not. -/
theorem awaited_retried (l : Lane TimedMemory) : l.retried.awaited = l.awaited := by
  cases hp : l.port.parked with
  | none => simp only [retried, hp]
  | some p =>
    have hfirst : (Lane.mk (l.port.freed.forwarded p) l.deferred).awaited = l.awaited := by
      rw [awaited_forwarded rfl, ← hp]
      rfl
    cases hd : l.deferred with
    | none => rwa [retried_of_alone hp hd, ← hd]
    | some f =>
      rw [hd] at hfirst
      cases hpark : (l.port.freed.forwarded p).parked with
      | some w => rwa [retried_of_refused hp hd hpark]
      | none =>
        rw [retried_of_accepted hp hd hpark, awaited_forwarded hpark, ← hfirst]
        simp [awaited, held, owed, hpark]

end Lane

/-! ## What a cache has done -/

namespace Access

/-- The block of the first byte. -/
def block (a : Access) (size : Nat) : Nat :=
  Block.align size a.addr.toNat

theorem needsResponse_toPacket (a : Access) (id : Nat) : (a.toPacket id).command.needsResponse := by
  unfold toPacket
  split <;> rfl

theorem request_toPacket (a : Access) (id : Nat) : (a.toPacket id).request.addr = a.addr.toNat := by
  unfold toPacket
  split <;> rfl

end Access

namespace Cache

variable {ρ : Type} {c d : Cache ρ TimedMemory} {id : Nat} {p : Packet} {now : Tick}

/-- A fetch was put on the lane. -/
theorem sendFetch_eq_push (h : (c.sendFetch p).result = .ok d) : d = c.withLane (c.lane.push p) := by
  unfold sendFetch at h
  cases hparked : c.memPort.parked with
  | some w =>
    have hpush : c.lane.push p = ⟨c.memPort, some p⟩ := by simp [Lane.push, lane, hparked]
    simp only [hparked, Sim.result_bind, Sim.result_debug, Sim.ok_bind] at h
    rw [hpush]
    exact (Except.ok.inj h).symm
  | none =>
    simp only [hparked, Sim.result_bind] at h
    obtain ⟨m, hsend, h⟩ := Sim.bind_eq_ok.mp h
    obtain ⟨-, rfl⟩ := MemSidePort.send_eq_ok hsend
    have hpush : c.lane.push p = ⟨c.memPort.forwarded p, c.deferred⟩ := Lane.push_of_free hparked p
    rw [hpush]
    exact (Except.ok.inj h).symm

/-- A miss put a fetch of its block on the lane. -/
theorem miss_eq_push {a : Access} (h : (c.miss now (a.toPacket id)).result = .ok d) :
    ∃ fetch original, d = { c with missTime := now, phase := .waitMem, original }.withLane (c.lane.push fetch) ∧
      fetch.command.needsResponse ∧ fetch.addr = a.block c.lineSize := by
  simp only [miss] at h
  split at h
  · rename_i hwhole
    refine ⟨_, c.original, sendFetch_eq_push h, a.needsResponse_toPacket id, ?_⟩
    rw [hwhole.1, Packet.block, a.addr_toPacket]
    rfl
  · simp only [Sim.result_bind, Sim.result_debug, Sim.result_liftM, Sim.ok_bind] at h
    obtain ⟨-, -, h⟩ := Sim.bind_eq_ok.mp h
    obtain ⟨-, -, h⟩ := Sim.bind_eq_ok.mp h
    obtain ⟨fetch, hfetch, h⟩ := Sim.bind_eq_ok.mp h
    obtain ⟨addr, haddr, hfetch⟩ := Sim.bind_eq_ok.mp hfetch
    obtain rfl := Except.ok.inj hfetch
    refine ⟨_, some (a.toPacket id), sendFetch_eq_push h, rfl, ?_⟩
    rw [a.request_toPacket] at haddr
    exact (Block.align_of_align? haddr).symm

/-- The block that was evicted was written back. -/
theorem writeBack_eq_push {addr : Nat} {victim : Option Line} {m : MemSidePort TimedMemory}
    (h : (c.writeBack addr victim).result = .ok m) :
    ∃ l : Lane TimedMemory, { c with memPort := m } = c.withLane l ∧ l.awaited = c.lane.awaited := by
  cases victim with
  | none => exact ⟨c.lane, by rw [← Except.ok.inj h]; rfl, rfl⟩
  | some victim =>
    simp only [writeBack, Sim.result_bind, Sim.result_debug, Sim.result_trace, Sim.ok_bind] at h
    obtain ⟨hfree, rfl⟩ := MemSidePort.send_eq_ok h
    refine ⟨c.lane.push (.writeback victim.tag victim.data), ?_, Lane.awaited_push_of_free hfree rfl⟩
    rw [Lane.push_of_free hfree]
    rfl

/-- A block was inserted that was not resident, and its victim was written back. -/
theorem install_eq_insert (h : (c.install p).result = .ok d) :
    c.store.lookup p.addr = none ∧ ∃ data victim store l, (c.store.insert p.addr data).result = .ok (victim, store) ∧
      d = { c with store }.withLane l ∧ l.awaited = c.lane.awaited := by
  simp only [install, Sim.result_bind, Sim.result_trace, Sim.result_liftM, Sim.ok_bind] at h
  obtain ⟨block, -, h⟩ := Sim.bind_eq_ok.mp h
  obtain ⟨-, -, h⟩ := Sim.bind_eq_ok.mp h
  obtain ⟨-, -, h⟩ := Sim.bind_eq_ok.mp h
  obtain ⟨_, hnone, h⟩ := Sim.bind_eq_ok.mp h
  obtain ⟨-, -, h⟩ := Sim.bind_eq_ok.mp h
  obtain ⟨data, -, h⟩ := Sim.bind_eq_ok.mp h
  obtain ⟨⟨victim, store⟩, hinsert, h⟩ := Sim.bind_eq_ok.mp h
  obtain ⟨m, hsend, h⟩ := Sim.bind_eq_ok.mp h
  obtain ⟨⟨⟩, -, h⟩ := Sim.bind_eq_ok.mp h
  obtain ⟨l, hl, hawaited⟩ := writeBack_eq_push hsend
  refine ⟨Option.isNone_iff_eq_none.mp (Sim.of_require hnone), data, victim, store, l, hinsert, ?_, hawaited⟩
  obtain rfl := Except.ok.inj h
  exact congrArg (fun c : Cache ρ TimedMemory => { c with store }) hl

/-- The packets that wait were offered to the memory again. -/
theorem retryRequest_eq_retried (h : c.retryRequest.result = .ok d) : d = c.withLane c.lane.retried := by
  simp only [retryRequest, Sim.result_bind] at h
  obtain ⟨m, hretry, h⟩ := Sim.bind_eq_ok.mp h
  obtain ⟨p, hp, rfl⟩ := MemSidePort.forwarded_of_retryRequest (fun _ _ => TimedMemory.offer_eq_ok) hretry
  cases hd : c.deferred with
  | none =>
    have hretried : c.lane.retried = ⟨c.memPort.freed.forwarded p, none⟩ := Lane.retried_of_alone hp hd
    simp only [hd] at h
    rw [hretried]
    cases hpark : (c.memPort.freed.forwarded p).parked <;> rw [hpark] at h <;> exact (Except.ok.inj h).symm
  | some fetch =>
    simp only [hd] at h
    cases hpark : (c.memPort.freed.forwarded p).parked with
    | some w =>
      have hretried : c.lane.retried = ⟨c.memPort.freed.forwarded p, some fetch⟩ :=
        Lane.retried_of_refused hp hd hpark
      rw [hpark] at h
      rw [hretried]
      exact (Except.ok.inj h).symm
    | none =>
      have hretried : c.lane.retried = ⟨(c.memPort.freed.forwarded p).forwarded fetch, none⟩ :=
        Lane.retried_of_accepted hp hd hpark
      simp only [hpark, Sim.result_bind, Sim.result_debug, Sim.ok_bind] at h
      obtain ⟨m, hsend, h⟩ := Sim.bind_eq_ok.mp h
      obtain ⟨-, rfl⟩ := MemSidePort.send_eq_ok hsend
      rw [hretried]
      exact (Except.ok.inj h).symm

/-! ## Blocks are used in order -/

/-- Where the request in service is: as long as its access is scheduled, no answer is awaited from
the memory, and then only its block is. -/
inductive Serving (c : Cache ρ TimedMemory) (pending : List (Tick × AccessEvent)) : Option Nat → Prop
  | idle (free : c.blocked = false) (events : pending = []) (awaited : c.lane.awaited = []) : Serving c pending none
  | access {id : Nat} {tick : Tick} (a : Access) (busy : c.blocked)
    (events : pending = [(tick, ⟨a.toPacket id⟩)]) (awaited : c.lane.awaited = []) :
    Serving c pending (some (a.block c.lineSize))
  | fetch {block : Nat} (busy : c.blocked) (events : pending = []) (awaited : c.lane.awaited = [block]) :
    Serving c pending (some block)

/-- The accepted requests were for these blocks.  All of them but the one in service were used by
the store, which was `s` first, and those that were resident are counted. -/
structure Drives (s : Store) (c : Cache ρ TimedMemory) (pending : List (Tick × AccessEvent)) (blocks : List Nat) :
    Prop where
  lineSize : c.lineSize = s.lineSize
  serves : ∃ past current, blocks = past ++ current.toList ∧ s.Finds past c.stats.hits c.store ∧
    c.Serving pending current

namespace Drives

variable {s : Store} {queue queue' : EventQueue AccessEvent} {pending : List (Tick × AccessEvent)} {blocks : List Nat}
  {a : Access}

/-- Ports do not matter, nor do packets that move along the lane. -/
theorem of_eq (h : c.Drives s pending blocks) (hgeometry : d.geometry = c.geometry) (hstore : d.store = c.store)
    (hstats : d.stats = c.stats) (hblocked : d.blocked = c.blocked) (hawaited : d.lane.awaited = c.lane.awaited) :
    d.Drives s pending blocks := by
  obtain ⟨hsize, past, current, hblocks, hfinds, hserving⟩ := h
  have hsame : d.lineSize = c.lineSize := congrArg Geometry.lineSize hgeometry
  refine ⟨hsame.trans hsize, past, current, hblocks, hstats ▸ hstore ▸ hfinds, ?_⟩
  cases hserving with
  | idle hs hp ha => exact .idle (hblocked.trans hs) hp (hawaited.trans ha)
  | access a hs hp ha => exact hsame ▸ .access a (hblocked.trans hs) hp (hawaited.trans ha)
  | fetch hs hp ha => exact .fetch (hblocked.trans hs) hp (hawaited.trans ha)

/-- A request that is offered is refused, or its block is the next one to be used. -/
theorem offer {handshake : Handshake} (h : c.Drives s queue.pending blocks)
    (ho : (c.offer queue id (a.toPacket id)).result = .ok (handshake, d, queue')) :
    handshake = .refused (a.toPacket id) ∧ d.Drives s queue'.pending blocks ∨
      handshake = .accepted ∧ d.Drives s queue'.pending (blocks ++ [a.block s.lineSize]) := by
  cases hport : c.cpuPorts[id]? with
  | none => simp [Cache.offer, cpuPort, hport] at ho
  | some port =>
    by_cases hr : c.Refuses port
    · rw [offer_of_refuses hport hr] at ho
      simp only [Except.ok.injEq, Prod.mk.injEq] at ho
      obtain ⟨rfl, rfl, rfl⟩ := ho
      exact .inl ⟨rfl, h.of_eq rfl rfl rfl rfl rfl⟩
    · obtain ⟨tick, rfl, -, rfl, rfl⟩ := offer_of_not_refuses hport hr ho
      obtain ⟨-, hfree⟩ := not_refuses_iff.mp hr
      obtain ⟨hsize, past, current, rfl, hfinds, hserving⟩ := h
      cases hserving with
      | idle _ hp ha =>
        refine .inr ⟨rfl, hsize, past, some (a.block c.lineSize), ?_, hfinds, ?_⟩
        · rw [hsize, Option.toList_none, List.append_nil]
          rfl
        · rw [hp]
          exact .access a rfl rfl ha
      | access _ hs => simp [hs] at hfree
      | fetch hs => simp [hs] at hfree

variable [LawfulRequestor ρ]

/-- A resident block is used when its access is performed; another one is awaited. -/
theorem fire {tick : Tick} {e : AccessEvent} (h : c.Drives s ((tick, e) :: pending) blocks)
    (hd : (c.fire now e).result = .ok d) : d.Drives s pending blocks := by
  obtain ⟨hsize, past, current, rfl, hfinds, hserving⟩ := h
  cases hserving with
  | idle _ hp => cases hp
  | fetch _ hp => cases hp
  | @access id tick' a hs hp ha =>
    obtain ⟨hevent, rfl⟩ := List.cons.inj hp
    obtain ⟨-, rfl⟩ := Prod.mk.inj hevent
    have hstore : c.store.lineSize = c.lineSize := hfinds.like.lineSize.trans hsize.symm
    have hblock : (a.toPacket id).block c.store.lineSize = a.block c.lineSize := by
      rw [hstore, Packet.block, a.addr_toPacket]
      rfl
    simp only [Cache.fire, Sim.result_bind, Sim.result_liftM] at hd
    obtain ⟨⟨⟩, -, hd⟩ := Sim.bind_eq_ok.mp hd
    obtain ⟨block, halign, hd⟩ := Sim.bind_eq_ok.mp hd
    obtain ⟨x, haccess, hd⟩ := Sim.bind_eq_ok.mp hd
    have hresident := Store.isSome_of_access haccess
    rw [hblock] at hresident
    cases x with
    | none =>
      simp only [Sim.result_bind, Sim.result_debug, Sim.ok_bind] at hd
      obtain ⟨fetch, original, rfl, hneeds, haddr⟩ := miss_eq_push hd
      refine ⟨hsize, past, some (a.block c.lineSize), rfl, hfinds, .fetch hs rfl ?_⟩
      exact (Lane.awaited_push ha hneeds).trans (congrArg (fun block => [block]) haddr)
    | some x =>
      obtain ⟨q, t⟩ := x
      simp only [Sim.result_bind, Sim.result_debug, Sim.result_liftM, Sim.ok_bind] at hd
      obtain ⟨answer, -, hd⟩ := Sim.bind_eq_ok.mp hd
      obtain ⟨-, _, _, -, -, -, rfl⟩ := reply_eq_ok hd
      obtain rfl : a.block c.lineSize = block := by
        rw [a.addr_toPacket] at halign
        exact Block.align_of_align? halign
      obtain ⟨hfinds', hsame⟩ := hfinds.access haccess
      refine ⟨hsize, past ++ [a.block c.lineSize], none, (List.append_nil _).symm, ?_, .idle rfl rfl ha⟩
      exact hfinds'.touch ((hsame _).trans hresident)

/-- A block that comes is the one that is awaited, and is used then. -/
theorem fill {ready : List Packet} (h : c.Drives s pending blocks) (hready : c.memPort.peer.ready = p :: ready)
    (hd : ((c.withLane (c.lane.withPeer { c.memPort.peer with ready })).fill now p).result = .ok d) :
    d.Drives s pending blocks := by
  obtain ⟨hsize, past, current, rfl, hfinds, hserving⟩ := h
  have howed : c.lane.awaited = p.addr :: (c.lane.withPeer { c.memPort.peer with ready }).awaited := by
    simp [Lane.awaited, Lane.owed, LawfulMemory.owed, TimedMemory.owed, lane, Lane.withPeer, hready, Lane.held]
  cases hserving with
  | idle _ _ ha => simp [howed] at ha
  | access _ _ _ ha => simp [howed] at ha
  | @fetch block hs hp ha =>
    obtain ⟨rfl, hrest⟩ := List.cons.inj (howed.symm.trans ha)
    simp only [Cache.fill, Sim.result_bind, Sim.result_debug, Sim.result_liftM, Sim.ok_bind] at hd
    obtain ⟨⟨⟩, -, hd⟩ := Sim.bind_eq_ok.mp hd
    obtain ⟨⟨⟩, -, hd⟩ := Sim.bind_eq_ok.mp hd
    obtain ⟨⟨⟩, -, hd⟩ := Sim.bind_eq_ok.mp hd
    obtain ⟨e, hinstall, hd⟩ := Sim.bind_eq_ok.mp hd
    obtain ⟨hnone, data, victim, store, l, hinsert, rfl, hl⟩ := install_eq_insert hinstall
    have hfinds' := hfinds.insert hnone hinsert
    obtain ⟨elapsed, -, hd⟩ := Sim.bind_eq_ok.mp hd
    obtain ⟨missLatency, -, hd⟩ := Sim.bind_eq_ok.mp hd
    split at hd
    · obtain ⟨-, _, _, -, -, -, rfl⟩ := reply_eq_ok hd
      exact ⟨hsize, past ++ [p.addr], none, (List.append_nil _).symm, hfinds', .idle rfl hp (hl.trans hrest)⟩
    · simp only [Sim.result_bind, Sim.result_debug, Sim.ok_bind] at hd
      obtain ⟨x, haccess, hd⟩ := Sim.bind_eq_ok.mp hd
      cases x with
      | none => cases hd
      | some x =>
        simp only [Sim.result_bind, Sim.result_liftM] at hd
        obtain ⟨answer, -, hd⟩ := Sim.bind_eq_ok.mp hd
        obtain ⟨-, _, _, -, -, -, rfl⟩ := reply_eq_ok hd
        obtain ⟨hfinds'', -⟩ := hfinds'.access haccess
        exact ⟨hsize, past ++ [p.addr], none, (List.append_nil _).symm, hfinds'', .idle rfl hp (hl.trans hrest)⟩

end Drives

end Cache

end CacheSim
