import CacheSim.Proofs.Session.View

/-!
# The steps of a session

Every call that is allowed and answers is a step (`Steady.step`), after which
the cache is consistent again.  So what every step preserves holds after every
run (`run_induction`, `run_start`).
-/

namespace CacheSim.Session

open Cache

variable {s s' : Session} {id : Nat} {p : Packet}

/-- The ports may change as long as none was sent anything. -/
theorem view_setCpuPort {old port : CpuSidePort FreeRequestor} (hold : s.cache.cpuPorts[id]? = some old)
    (hs : port.sent = old.sent) :
    ({ s with cache := s.cache.setCpuPort id port } : Session).view = s.view := by
  have hsent : (s.cache.setCpuPort id port).sentOn = s.cache.sentOn := funext (sentOn_setCpuPort hold hs)
  simp only [view, hsent]
  rfl

theorem current_of_idle (h : s.cache.blocked = false) : s.current = none := by
  simp [current, h]

theorem completed_of_idle (h : s.cache.blocked = false) : s.completed = s.accepted := by
  simp [completed, h]

theorem current_of_busy (h : s.cache.blocked = true) : s.current = s.accepted.getLast? := by
  simp [current, h]

theorem completed_of_busy (h : s.cache.blocked = true) : s.completed = s.accepted.dropLast := by
  simp [completed, h]

/-! ## Calls of the requestors -/

/-- The session once a request was accepted. -/
theorem view_accepted (hfree : s.cache.blocked = false) (id : Nat) (p : Packet) (queue : EventQueue AccessEvent) :
    let s' : Session := { s with
      cache := s.cache.serving (.access id)
      queue
      accepted := s.accepted ++ [(id, p)] }
    s'.current = some (id, p) ∧ s'.view = { s.view with service := .access id, current := some (id, p) } := by
  intro s'
  have hbusy : s'.cache.blocked = true := rfl
  have hcurrent : s'.current = some (id, p) := by
    rw [current_of_busy hbusy]
    exact List.getLast?_concat
  have hcompleted : s'.completed = s.completed := by
    rw [completed_of_busy hbusy, completed_of_idle hfree]
    exact List.dropLast_concat
  refine ⟨hcurrent, ?_⟩
  simp only [view, hcurrent, hcompleted]
  rfl

theorem Steady.step_offer (h : s.Steady) (ha : s.Allowed (.offer id p))
    (hres : (s.perform (.offer id p)).result = .ok s') : Step (.offer id p) s.view s'.view ∧ s'.Steady := by
  obtain ⟨hid, hp⟩ := ha
  have hport : s.cache.cpuPorts[id]? = some s.cache.cpuPorts[id] := List.getElem?_eq_getElem hid
  by_cases hacc : s.cache.cpuPorts[id].canAccept ∧ s.cache.blocked = false
  · obtain ⟨hcan, hopen⟩ := hacc
    have hagrees := (Consistent.sane h).agrees
    have hidle : s.cache.service = .idle := hagrees.service_eq_idle_iff.mpr hopen
    have hfree : s.cache.cpuPorts[id].parked = none := by
      simp only [CpuSidePort.canAccept, Bool.and_eq_true, Option.isNone_iff_eq_none] at hcan
      exact hcan.1
    have hcons : s.cache.Consistent (fun _ => True) s.queue none := current_of_idle hopen ▸ h
    simp only [perform, Sim.result_bind, result_offer hport hcan hopen hp.needsResponse,
      hagrees.serving_access hidle] at hres
    obtain ⟨⟨_, cache, queue⟩, hoffer, hres⟩ := Sim.bind_eq_ok.mp hres
    obtain ⟨tick, -, hoffer⟩ := Sim.bind_eq_ok.mp hoffer
    obtain ⟨later, hsched, hoffer⟩ := Sim.bind_eq_ok.mp hoffer
    obtain ⟨rfl, rfl, rfl⟩ : _ = _ ∧ _ = _ ∧ _ = _ := by simpa [Prod.ext_iff] using Except.ok.inj hoffer
    unfold EventQueue.schedule at hsched
    split at hsched
    · obtain rfl := Except.ok.inj hsched
      obtain rfl : { s with
          cache := s.cache.serving (.access id)
          queue := { s.queue with pending := EventQueue.place tick ⟨p⟩ s.queue.pending }
          accepted := s.accepted ++ [(id, p)] } = s' := Except.ok.inj hres
      obtain ⟨hcurrent, hview⟩ := view_accepted hopen id p
        { s.queue with pending := EventQueue.place tick ⟨p⟩ s.queue.pending }
      refine ⟨hview ▸ .accepted hidle (current_of_idle hopen) hp, ?_⟩
      rw [Steady, hcurrent]
      exact hcons.offered hp trivial hport hfree tick
    · cases hsched
  · have href : s.cache.cpuPorts[id].canAccept = false ∨ s.cache.blocked := by
      simpa [Classical.or_iff_not_imp_left] using hacc
    obtain rfl : { s with cache := s.cache.setCpuPort id { s.cache.cpuPorts[id] with needsRetry := true } } = s' := by
      simpa [perform, offer_refused hport href] using hres
    have hview : view { s with
        cache := s.cache.setCpuPort id { s.cache.cpuPorts[id] with needsRetry := true } } = s.view :=
      view_setCpuPort hport rfl
    exact ⟨hview ▸ .moved (.refl _), Consistent.setCpuPort h hport _ fun hp => hp⟩

theorem Steady.step_retryResponse (h : s.Steady) (ha : s.Allowed (.retryResponse id))
    (hres : (s.perform (.retryResponse id)).result = .ok s') :
    Step (.retryResponse id) s.view s'.view ∧ s'.Steady := by
  obtain ⟨port, hport, hpark⟩ := ha
  obtain ⟨a, ha⟩ := Option.isSome_iff_exists.mp hpark
  obtain rfl : { s with cache := s.cache.setCpuPort id (port.retried a) } = s' := by
    simpa [perform, retryResponse_spec hport ha] using hres
  have hview := view_setCpuPort hport (CpuSidePort.sent_retried ha)
  exact ⟨hview ▸ .moved (.refl _), Consistent.setCpuPort h hport _ (by simp [ha])⟩

/-- An access past the timing path is answered from the store, or by the memory
as it is. -/
theorem Steady.functional_spec (h : s.Steady) (ha : s.Allowed (.functional id p)) :
    ∃ a store lane, (s.cache.functional id p).result = .ok (a, { s.cache with store }.withLane lane) ∧
      Effect s.view p store lane ∧
      Consistent (fun _ => True) ({ s.cache with store }.withLane lane) s.queue s.current ∧
      a = (s.cache.store.overlay s.cache.lane.contents).answer p := by
  obtain ⟨hid, hp⟩ := ha
  have hport : s.cache.cpuPorts[id]? = some s.cache.cpuPorts[id] := List.getElem?_eq_getElem hid
  have hcpu := cpuPort_eq_ok hport
  have hsize : s.cache.store.lineSize = s.cache.lineSize := h.sane.lineSize
  have hpos : 0 < s.cache.store.lineSize := hsize ▸ h.sane.pos
  cases hl : s.cache.store.lookup (p.block s.cache.lineSize) with
  | none =>
    have hl' : s.cache.store.lookup (p.block s.cache.store.lineSize) = none := hsize ▸ hl
    have hacc := Store.access_of_not_resident hpos hl'
    obtain ⟨hsound, hnone, hsome⟩ := h.sane.lane.change_spec (s.cache.lane.performed p).port.peer rfl
      fun _ _ => trivial
    refine ⟨_, s.cache.store, s.cache.lane.performed p, ?_, .absent hl,
      Consistent.withLane h hsound hnone hsome, rfl⟩
    rw [Store.answer_overlay_of_absent hpos (hsize ▸ hp.inBlock) hl']
    simp [functional, hcpu, hacc, MemSidePort.functional]
    rfl
  | some l =>
    obtain ⟨q, t, hacc, hf, hiff, hm⟩ := h.sane.valid.access_of_resident (p := p) (l := l) hpos
      (by rw [h.sane.lineSize]; exact hp) (by rw [h.sane.lineSize]; exact hl)
    have hacc : (s.cache.store.access p).result = .ok (some (q, t)) := hacc
    obtain ⟨hans, -⟩ := hm s.cache.lane.contents
    refine ⟨_, t, s.cache.lane, ?_, .resident hacc (by simp [view, hl]) hiff fun m => (hm m).2,
      Consistent.withStore h hf hiff, rfl⟩
    simp [functional, hcpu, hacc, hans]
    exact ⟨rfl, rfl⟩

theorem Steady.step_functional (h : s.Steady) (ha : s.Allowed (.functional id p))
    (hres : (s.perform (.functional id p)).result = .ok s') :
    Step (.functional id p) s.view s'.view ∧ s'.Steady := by
  obtain ⟨a, store, lane, hfun, heffect, hsteady, -⟩ := h.functional_spec ha
  simp only [perform, Sim.result_bind, hfun, Sim.ok_bind] at hres
  split at hres
  · rename_i hshadow
    rw [Sim.result_pure] at hres
    obtain ⟨w, hw, hcommand, haddr⟩ := hshadow
    obtain rfl : { s with cache := { s.cache with store }.withLane lane } = s' := Except.ok.inj hres
    exact ⟨.functional ha.2 heffect (.shadowed hw hcommand haddr), hsteady⟩
  rename_i hshadow
  have hparked : ∀ w ∈ s.view.lane.port.parked, w.command = .writebackDirty → w.addr ≠ p.block s.view.size :=
    fun w hw hcommand haddr => hshadow ⟨w, hw, hcommand, haddr⟩
  split at hres
  · rename_i hover
    rw [Sim.result_pure] at hres
    obtain ⟨f, hf, haddr⟩ := hover
    obtain rfl : { s with
      cache := { s.cache with store }.withLane lane
      overtaking := s.overtaking ++ [p] } = s' := Except.ok.inj hres
    exact ⟨.functional ha.2 heffect (.overtakes hparked hf haddr), hsteady⟩
  · rename_i hover
    rw [Sim.result_pure] at hres
    obtain rfl : { s with
      cache := { s.cache with store }.withLane lane
      history := s.history ++ [(none, p)] } = s' := Except.ok.inj hres
    exact ⟨.functional ha.2 heffect (.lasting hparked fun f hf haddr => hover ⟨f, hf, haddr⟩), hsteady⟩

/-! ## Time -/

theorem Steady.step_advance (h : s.Steady) {tick : Tick} (ha : s.Allowed (.advance tick))
    (hres : (s.perform (.advance tick)).result = .ok s') :
    Step (.advance tick) s.view s'.view ∧ s'.Steady := by
  obtain rfl : { s with queue := { s.queue with now := tick } } = s' := by
    simpa [perform, EventQueue.advanceTo_eq_ok ha.1 ha.2] using hres
  exact ⟨.moved (.refl _), Consistent.advance h rfl ha.1⟩

/-! ## The request in service -/

/-- The session with another state of the cache, which serves the same request. -/
theorem view_blocked {d : Cache FreeRequestor (Recorded FreeMemory)} (hb : d.blocked = s.cache.blocked)
    (hports : d.cpuPorts = s.cache.cpuPorts) (hg : d.geometry = s.cache.geometry)
    (queue : EventQueue AccessEvent) (hits : List Bool) (history : List (Option Nat × Packet)) :
    view { s with cache := d, queue, hits, history } = { s.view with
      store := d.store
      stats := d.stats
      service := d.service
      lane := d.lane
      hits
      history } := by
  have hsize : d.lineSize = s.cache.lineSize := congrArg Geometry.lineSize hg
  have hsent : d.sentOn = s.cache.sentOn := by
    funext j
    rw [sentOn, hports]
    rfl
  simp only [view, current, completed, hb, hsize, hsent]

/-- The session once the request in service was answered. -/
theorem Steady.view_answered (h : s.Steady) (hcurrent : s.current = some (id, p))
    {d : Cache FreeRequestor (Recorded FreeMemory)} {a : Packet} (hd : d.toControl.Agrees) (hidle : d.service = .idle)
    (hports : d.cpuPorts = answeredPorts s.cache.cpuPorts id a) (hg : d.geometry = s.cache.geometry)
    (queue : EventQueue AccessEvent) (hits : List Bool) (given overtaking : List Packet) :
    view { cache := d, queue, accepted := s.accepted, hits, given, history := s.historyAt d, overtaking } =
      { s.view with store := d.store, stats := d.stats, lane := d.lane, hits, given, overtaking }.answered
        id p a := by
  have hports : d.sentOn = fun j => s.cache.sentOn j ++ if id = j then [a] else [] := by
    rw [Steady, hcurrent] at h
    obtain ⟨port, hport, hfree⟩ : ∃ port, s.cache.cpuPorts[id]? = some port ∧ port.parked = none := by
      cases h.stage with
      | access _ hw => exact hw.port
      | fetch _ hw => exact hw.port
    exact funext (sentOn_answeredPorts hport hfree hports)
  have haccepted : s.accepted = s.completed ++ [(id, p)] := by
    rw [accepted_eq, hcurrent]
    rfl
  have hsize : d.lineSize = s.cache.lineSize := congrArg Geometry.lineSize hg
  have hblocked : d.blocked = false := hd.blocked_eq hidle
  simp only [view, View.answered, hports, hsize, historyAt, hblocked, hcurrent, completed_of_idle, current_of_idle,
    hidle, haccepted]
  rfl

variable {d : Cache FreeRequestor (Recorded FreeMemory)} {tick : Tick}

/-- An access that hits answers the request. -/
theorem Steady.step_hit (h : s.Steady) (hcurrent : s.current = some (id, p)) (hs : s.cache.service = .access id)
    (hw : s.cache.Waits (fun _ => True) id p) (hc : s.cache.lane.coming = [])
    (hl : (s.cache.store.lookup (p.block s.cache.lineSize)).isSome)
    (hfire : (s.cache.fire tick ⟨p⟩).result = .ok d) (queue : EventQueue AccessEvent) :
    Step .fire s.view (s.fired d queue).view ∧ d.service = .idle ∧ d.blocked = false := by
  obtain ⟨r, t, store, hacc, rfl, hhit, -, -, hover⟩ := (Consistent.sane h).fire_hit hs hw hl tick
  have hcache := Except.ok.inj (hfire.symm.trans hhit)
  have hidle : d.service = .idle := by rw [hcache]; rfl
  have hgrew : s.cache.stats.hits < d.stats.hits := by rw [hcache]; exact Nat.lt_succ_self _
  have hagrees : d.toControl.Agrees := by rw [hcache]; exact s.cache.toControl.agrees_entering .idle
  have hview := h.view_answered hcurrent (a := s.cache.image.answer p) hagrees hidle (by rw [hcache]; rfl)
    (by rw [hcache]; rfl) queue
  refine ⟨?_, hidle, hagrees.blocked_eq hidle⟩
  rw [fired, decide_eq_true hgrew, hview, hcache]
  exact .hit hs hcurrent hw.access hc hacc hover

/-- An access that misses puts the fetch of its block on the lane. -/
theorem Steady.step_miss (h : s.Steady) (hcurrent : s.current = some (id, p)) (hs : s.cache.service = .access id)
    (hw : s.cache.Waits (fun _ => True) id p) (hc : s.cache.lane.coming = [])
    (hl : s.cache.store.lookup (p.block s.cache.lineSize) = none)
    (hfire : (s.cache.fire tick ⟨p⟩).result = .ok d) (queue : EventQueue AccessEvent) :
    Step .fire s.view (s.fired d queue).view ∧ d.service = .fetch id tick (p.kept s.cache.lineSize) ∧
      (s.fired d queue).current = some (id, p) := by
  have hcache := Except.ok.inj (hfire.symm.trans ((Consistent.sane h).fire_miss hs hw hl tick))
  have hservice : d.service = .fetch id tick (p.kept s.cache.lineSize) := by rw [hcache]; rfl
  have hblocked : d.blocked ∧ s.cache.blocked :=
    ⟨by rw [hcache]; rfl, (Consistent.sane h).agrees.blocked_eq hs⟩
  have hgrew : ¬s.cache.stats.hits < d.stats.hits := by rw [hcache]; exact Nat.lt_irrefl _
  have hview := view_blocked (d := d) (hblocked.1.trans hblocked.2.symm) (by rw [hcache]; rfl)
    (by rw [hcache]; rfl) queue (s.hits ++ [decide (s.cache.stats.hits < d.stats.hits)]) (s.historyAt d)
  obtain ⟨taken, htook⟩ := (Consistent.sane h).lane.push_took
    (Lane.deferred_eq_none_of_coming (Consistent.sane h).lane hc) hw.access.isBlock_fetch trivial
  refine ⟨?_, hservice, (congrArg View.current hview).trans hcurrent⟩
  rw [fired, hview, decide_eq_false hgrew, historyAt, if_pos hblocked.1, hcache]
  exact .missed hs hcurrent hw.access hc hl htook

/-- The access of the request in service is performed. -/
theorem Steady.step_fire (h : s.Steady) (ha : s.Allowed .fire) (hres : (s.perform .fire).result = .ok s') :
    Step .fire s.view s'.view ∧ s'.Steady := by
  have hcons : s.cache.Consistent (fun _ => True) s.queue s.current := h
  generalize hcurrent : s.current = current at hcons
  cases hcons.stage with
  | idle _ hq => simp [Allowed, EventQueue.next?, hq] at ha
  | fetch _ _ hq => simp [Allowed, EventQueue.next?, hq] at ha
  | @access id p tick hs hw hq hc =>
    have hpop : s.queue.pop? = some (tick, ⟨p⟩, { s.queue with now := tick, pending := [] }) := by
      simp only [EventQueue.pop?, hq]
    obtain ⟨-, d, hfire, hd⟩ := hcons.fire hpop
    simp only [perform, hpop, Sim.result_bind, hfire, Sim.ok_bind, Sim.result_pure] at hres
    obtain rfl : s.fired d { s.queue with now := tick, pending := [] } = s' := Except.ok.inj hres
    cases hl : s.cache.store.lookup (p.block s.cache.lineSize) with
    | some l =>
      obtain ⟨hstep, hidle, hfree⟩ := h.step_hit hcurrent hs hw hc (hl ▸ rfl) hfire
        { s.queue with now := tick, pending := [] }
      refine ⟨hstep, ?_⟩
      rw [Steady, current_of_idle (s := s.fired d _) hfree]
      rcases hd with hd | hd
      · exact hd.consistent
      · cases hidle.symm.trans hd.service
    | none =>
      obtain ⟨hstep, hservice, hkept⟩ := h.step_miss hcurrent hs hw hc hl hfire
        { s.queue with now := tick, pending := [] }
      refine ⟨hstep, ?_⟩
      rw [Steady, hkept]
      rcases hd with hd | hd
      · cases hd.consistent.stage with
        | idle hidle => cases hidle.symm.trans hservice
      · exact hd.consistent

/-! ## Calls of the memory -/

theorem Steady.step_retryRequest (h : s.Steady) (ha : s.Allowed .retryRequest)
    (hres : (s.perform .retryRequest).result = .ok s') : Step .retryRequest s.view s'.view ∧ s'.Steady := by
  obtain ⟨w, hw⟩ := Option.isSome_iff_exists.mp ha
  obtain rfl : { s with cache := s.cache.withLane s.cache.lane.retried } = s' := by
    simpa [perform, (Consistent.sane h).retryRequest_spec hw] using hres
  obtain ⟨taken, htook⟩ := (Consistent.sane h).lane.retried_took hw
  exact ⟨.moved htook, (Consistent.retried h hw).1⟩

/-- The only answer that the memory may give is the block that the request in
service waits for. -/
theorem Steady.due (h : s.Steady) {i : Nat} {other : Option Bytes} (ha : s.Allowed (.answer i other)) :
    ∃ id p due data, i = 0 ∧ s.current = some (id, p) ∧ s.cache.memPort.peer.memory.owed = [due] ∧
      s.cache.Gives (s.cache.memPort.peer.gave 0) ∧ other.or due.payload = some data ∧
      data.length = s.cache.lineSize ∧
      Packet.IsFill { due with payload := other.or due.payload } (p.block s.cache.lineSize) s.cache.lineSize := by
  obtain ⟨due, hget, hother⟩ := ha
  have hmem : due ∈ s.cache.lane.owed := List.mem_of_getElem? hget
  obtain ⟨id, p, hcurrent⟩ := Consistent.exists_of_owed h hmem
  have hserved : s.cache.Consistent (fun _ => True) s.queue (some (id, p)) := hcurrent ▸ h
  obtain ⟨hone, hfill, -⟩ := hserved.owed_eq hmem
  have hone : s.cache.memPort.peer.memory.owed = [due] := hone
  have hzero : i = 0 := by
    have hi := (List.getElem?_eq_some_iff.mp hget).1
    rw [hone, List.length_singleton] at hi
    omega
  obtain ⟨data, hdata, hlength⟩ : ∃ data, other.or due.payload = some data ∧ data.length = s.cache.lineSize := by
    cases other with
    | none => exact hfill.payload
    | some bytes => exact ⟨bytes, rfl, (hother bytes rfl).trans hfill.size_eq⟩
  have hgives : s.cache.Gives (s.cache.memPort.peer.gave 0) := by
    refine ⟨List.ne_nil_of_mem hmem, ?_, rfl, fun _ h => h⟩
    show s.cache.memPort.peer.memory.owed.eraseIdx 0 = []
    rw [hone]
    rfl
  exact ⟨id, p, due, data, hzero, hcurrent, hone, hgives, hdata, hlength,
    hfill.addr_eq, hfill.size_eq, hfill.isResponse, data, hdata, hlength⟩

/-- Once the memory gave the answer that it owes, a victim is taken or waits. -/
theorem Steady.victim_took (h : s.Steady) (hgives : s.cache.Gives (s.cache.memPort.peer.gave 0))
    (hn : s.cache.store.lookup (p.block s.cache.lineSize) = none) {data : Bytes}
    (hlength : data.length = s.cache.lineSize) {victim : Option Line} {t : Store}
    (hins : (s.cache.store.insert (p.block s.cache.lineSize) data).result = .ok (victim, t)) :
    ∃ taken, (s.cache.lane.gave 0).Took ((s.cache.lane.gave 0).pushAll (Store.writebacks victim))
      (Store.writebacks victim) taken := by
  have hsane := Consistent.sane h
  obtain ⟨hsound, -, hfree, -⟩ := hsane.lane.take_spec hgives.owed hgives.contents hgives.none hgives.serves
  have hsize : s.cache.store.lineSize = s.cache.lineSize := hsane.lineSize
  obtain ⟨-, hi⟩ := hsane.valid.of_insert hn (hsize ▸ p.dvd_block _) (hlength.trans hsize.symm) hins
  exact hsound.writebacks_took (by simpa using (List.append_eq_nil_iff.mp hfree).2)
    (hsize ▸ hsane.valid.isBlock_writebacks hi) fun _ _ => trivial

/-- The block that the request in service waits for comes. -/
theorem Steady.step_answer (h : s.Steady) {i : Nat} {other : Option Bytes} (ha : s.Allowed (.answer i other))
    (hres : (s.perform (.answer i other)).result = .ok s') :
    Step (.answer i other) s.view s'.view ∧ s'.Steady := by
  obtain ⟨id, p, due, data, rfl, hcurrent, howed, hgives, hdata, hlength, hfill⟩ := h.due ha
  have hserved : s.cache.Consistent (fun _ => True) s.queue (some (id, p)) := hcurrent ▸ h
  simp only [perform, howed, List.getElem?_cons_zero, Sim.result_bind] at hres
  obtain ⟨d, hd, hres⟩ := Sim.bind_eq_ok.mp hres
  obtain ⟨hanswered, hhits, hmisses, hsamples, victim, t, hins, hcomp, hlane⟩ :=
    hserved.filled hgives hfill hdata hd
  have hidle : d.service = .idle := by
    cases hanswered.consistent.stage with
    | idle hidle => exact hidle
  have hagrees := hanswered.consistent.sane.agrees
  have hview := h.view_answered hcurrent hagrees hidle hanswered.cpuPorts hanswered.geometry s.queue s.hits
    (s.given ++ [{ due with payload := other.or due.payload }]) []
  obtain rfl := Except.ok.inj hres
  refine ⟨?_, ?_⟩
  · cases hserved.stage with
    | access _ _ _ hc => exact absurd (Lane.owed_eq_nil_of_coming hc) hgives.owed
    | fetch hs hw _ _ hn _ =>
      obtain ⟨taken, htook⟩ := h.victim_took hgives hn hlength hins
      rw [hview]
      exact .filled hs hcurrent hw.access hn (hserved.sane.lane.order hgives.owed) howed rfl hdata hlength hins
        hcomp (hlane ▸ htook) hanswered.image hhits hmisses hsamples
  · rw [Steady, current_of_idle (hagrees.blocked_eq hidle)]
    exact hanswered.consistent

/-! ## Runs -/

/-- A call that is allowed and answers is a step. -/
theorem Steady.step (h : s.Steady) {a : Action} (ha : s.Allowed a) (hres : (s.perform a).result = .ok s') :
    Step a s.view s'.view ∧ s'.Steady := by
  cases a with
  | offer id p => exact h.step_offer ha hres
  | functional id p => exact h.step_functional ha hres
  | advance tick => exact h.step_advance ha hres
  | fire => exact h.step_fire ha hres
  | answer i other => exact h.step_answer ha hres
  | retryResponse id => exact h.step_retryResponse ha hres
  | retryRequest => exact h.step_retryRequest ha hres

/-- What the steps of a run preserve holds after the run. -/
theorem run_induction {I : View → Prop} {actions : List Action}
    (hstep : ∀ a ∈ actions, ∀ v v' : View, v.Sane → Step a v v' → I v → I v') (h : s.Steady) (hI : I s.view)
    (hrun : (run actions s).result = .ok s') : s'.Steady ∧ I s'.view := by
  induction actions generalizing s with
  | nil =>
    obtain rfl := Except.ok.inj hrun
    exact ⟨h, hI⟩
  | cons a rest ih =>
    have hrest := fun b hb => hstep b (List.mem_cons_of_mem a hb)
    unfold run at hrun
    split at hrun
    · rename_i ha
      rw [Sim.result_bind] at hrun
      obtain ⟨t, ht, hrun⟩ := Sim.bind_eq_ok.mp hrun
      obtain ⟨hv, hsteady⟩ := h.step ha ht
      exact ih hrest hsteady (hstep a (List.mem_cons_self ..) _ _ h.sane hv hI) hrun
    · exact ih hrest h hI hrun

/-- Nothing happened yet. -/
structure View.Fresh (v : View) (g : Geometry) (gen : Generator) (contents : FlatMemory) : Prop where
  size : v.size = g.lineSize
  store : Store.ofGeometry? g gen = .ok v.store
  stats : v.stats = {}
  service : v.service = .idle
  held : v.lane.held = []
  received : v.lane.received = []
  unanswered : v.lane.unanswered = []
  contents : v.lane.contents = contents
  owed : v.lane.owed = []
  sent : ∀ id, v.sent id = []
  completed : v.completed = []
  current : v.current = none
  hits : v.hits = []
  given : v.given = []
  history : v.history = []
  overtaking : v.overtaking = []

variable {period : Nat} {g : Geometry} {gen : Generator} {requestors : List (Nat → Bool)}
  {memory : Nat → Bool} {contents : FlatMemory}

theorem steady_start (h : (start period g gen requestors memory contents).result = .ok s) (hpos : 0 < g.lineSize) :
    s.Steady ∧ s.view.Fresh g gen contents := by
  simp only [start, Sim.result_bind, Sim.result_liftM] at h
  obtain ⟨clock, hclock, h⟩ := Sim.bind_eq_ok.mp h
  obtain ⟨store, hstore, h⟩ := Sim.bind_eq_ok.mp h
  obtain ⟨cache, hcache, h⟩ := Sim.bind_eq_ok.mp h
  obtain rfl := Except.ok.inj h
  obtain ⟨hv, -, hn, -⟩ := Store.valid_ofGeometry? hstore
  obtain ⟨hsize, rfl⟩ := build_eq_ok hcache
  refine ⟨Sane.idle (sane_of_empty hv hn hsize hpos rfl rfl rfl fun _ _ _ => trivial) rfl rfl rfl, ?_⟩
  refine ⟨rfl, hstore, rfl, rfl, rfl, rfl, rfl, rfl, rfl, fun id => ?_, rfl, rfl, rfl, rfl, rfl, rfl⟩
  simp only [view, sentOn, getElem?_connect, List.getElem?_map]
  cases requestors[id]? with
  | none => rfl
  | some choices => rfl

/-- What holds at the start and is preserved by the steps of a run holds after it. -/
theorem run_start {I : View → Prop} {actions : List Action} (hpos : 0 < g.lineSize)
    (hstart : ∀ {v : View}, v.Sane → v.Fresh g gen contents → I v)
    (hstep : ∀ a ∈ actions, ∀ v v' : View, v.Sane → Step a v v' → I v → I v')
    (hrun : (start period g gen requestors memory contents >>= run actions).result = .ok s) :
    s.Steady ∧ I s.view := by
  rw [Sim.result_bind] at hrun
  obtain ⟨t, ht, hrun⟩ := Sim.bind_eq_ok.mp hrun
  obtain ⟨hsteady, hfresh⟩ := steady_start ht hpos
  exact run_induction hstep hsteady (hstart hsteady.sane hfresh) hrun

end CacheSim.Session
