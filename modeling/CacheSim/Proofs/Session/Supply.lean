import CacheSim.Proofs.Session.Steps
import CacheSim.Random.Seeded

/-!
# The fetch of the request in service

While the request in service waits for its block, one fetch is outstanding, and
at no other time: the memory has it, or it waits on the memory side, at the
port or behind a writeback (`Supplied`).  From this and from what holds between
two calls, `run_orderly` reads off how the fields of the cache agree with each
other, with the event queue and with the memory.
-/

namespace CacheSim.Session

open Cache

variable {v v' : View} {a : Action}

namespace View

/-- The fetch that the request in service waits for. -/
def awaited (v : View) : List Packet :=
  match v.service, v.current with
  | .fetch .., some (_, p) => [p.fetch v.size]
  | _, _ => []

theorem awaited_of_idle (h : v.service = .idle) : v.awaited = [] := by
  simp only [awaited, h]

theorem awaited_of_access {id : Nat} (h : v.service = .access id) : v.awaited = [] := by
  simp only [awaited, h]

theorem awaited_of_fetch {id : Nat} {p : Packet} {since : Tick} {kept : Option Packet}
    (h : v.service = .fetch id since kept) (hc : v.current = some (id, p)) : v.awaited = [p.fetch v.size] := by
  simp only [awaited, h, hc]

theorem length_awaited_le (v : View) : v.awaited.length ≤ 1 := by
  unfold awaited
  split <;> simp

end View

/-- The fetch that is awaited is outstanding, and all else that was asked of the
memory are writebacks and fetches that were answered. -/
structure Supplied (v : View) : Prop where
  fetches : v.lane.fetches = v.awaited
  asked : ∀ p ∈ v.lane.asked, p.command.needsResponse ∨ p.command = .writebackDirty

theorem command_of_mem_writebacks {victim : Option Line} {w : Packet} (h : w ∈ Store.writebacks victim) :
    w.command = .writebackDirty := by
  obtain ⟨l, -, rfl⟩ := List.mem_map.mp h
  rfl

theorem filter_writebacks (victim : Option Line) :
    (Store.writebacks victim).filter (·.command.needsResponse) = [] := by
  refine List.filter_eq_nil_iff.mpr fun w hw => ?_
  rw [command_of_mem_writebacks hw]
  exact Bool.false_ne_true

/-- The fetch that is answered is the only one the memory had. -/
theorem Supplied.unanswered_eq (h : Supplied v) {id : Nat} {p : Packet} {since : Tick} {kept : Option Packet}
    (hs : v.service = .fetch id since kept) (hc : v.current = some (id, p)) (hheld : v.lane.held = []) :
    v.lane.unanswered = [p.fetch v.size] := by
  have hf := h.fetches
  rwa [View.awaited_of_fetch hs hc, Lane.fetches, hheld, List.filter_nil, List.append_nil] at hf

theorem Supplied.step (h : Supplied v) (hs : Step a v v') : Supplied v' := by
  cases hs with
  | moved took =>
    refine ⟨?_, ?_⟩
    · rw [took.fetches, List.filter_nil, List.append_nil]
      exact h.fetches
    · rw [took.asked, List.append_nil]
      exact h.asked
  | accepted service =>
    refine ⟨?_, h.asked⟩
    rw [View.awaited_of_access rfl, ← View.awaited_of_idle service]
    exact h.fetches
  | functional access effect noted =>
    cases effect with
    | resident => exact ⟨h.fetches, h.asked⟩
    | absent => exact ⟨h.fetches, h.asked⟩
  | hit service =>
    refine ⟨?_, h.asked⟩
    rw [View.awaited_of_idle rfl, ← View.awaited_of_access service]
    exact h.fetches
  | @missed _ id p since lane taken service current access coming absent took =>
    have hneeds := access.needsResponse_fetch
    refine ⟨?_, ?_⟩
    · refine took.fetches.trans ?_
      rw [h.fetches, View.awaited_of_access service, List.filter_singleton, hneeds]
      simp only [View.awaited, current]
      rfl
    · rw [took.asked]
      refine List.forall_mem_append.mpr ⟨h.asked, ?_⟩
      rintro w hw
      obtain rfl := List.mem_singleton.mp hw
      exact .inl hneeds
  | @filled _ id p since other due a data victim t store stats lane taken service current access absent held owed
      answer payload length insert complete took =>
    refine ⟨?_, ?_⟩
    · refine took.fetches.trans ?_
      rw [Lane.fetches, Lane.unanswered_gave, h.unanswered_eq service current held, Lane.held_gave, held,
        filter_writebacks]
      rfl
    · show ∀ p ∈ lane.asked, _
      rw [took.asked, Lane.asked_gave]
      exact List.forall_mem_append.mpr ⟨h.asked, fun w hw => .inr (command_of_mem_writebacks hw)⟩

theorem supplied_of_fresh {g : Geometry} {gen : Generator} {contents : FlatMemory}
    (h : v.Fresh g gen contents) : Supplied v := by
  refine ⟨?_, ?_⟩
  · rw [View.awaited_of_idle h.service, Lane.fetches, h.unanswered, h.held]
    rfl
  · rw [Lane.asked, h.received, h.held]
    exact fun _ hp => absurd hp List.not_mem_nil

/-! ## The fields of the cache -/

/-- The outstanding fetches, by the place where they are: held by the memory
side port, kept back behind it, and accepted by the memory and not answered. -/
def outstanding (s : Session) : List Packet :=
  s.cache.memPort.parked.toList.filter (·.command.needsResponse) ++ s.cache.deferred.toList
    ++ s.cache.memPort.peer.unanswered

/-- How the fields of the cache, the event queue, the ports and the memory agree. -/
structure Orderly (s : Session) : Prop where
  /-- The cache is blocked as long as a port waits for its answer. -/
  blocked : s.cache.blocked ↔ s.cache.waitingPort.isSome
  waitingPort : s.cache.waitingPort.isSome ↔ s.cache.phase ≠ .idle
  /-- The access of the request in service is the only event. -/
  waitAccess : s.cache.phase = .waitAccess ↔ s.queue.pending.length = 1
  /-- One fetch is outstanding, in one place. -/
  waitMem : s.cache.phase = .waitMem ↔ s.outstanding.length = 1
  /-- Otherwise none is. -/
  quiet : s.cache.phase ≠ .waitMem → s.outstanding = []
  /-- A request is kept for its block, which is fetched as a whole. -/
  original : ∀ p ∈ s.cache.original, s.cache.phase = .waitMem ∧ ∃ f, s.outstanding = [f] ∧ f.command = .readReq ∧
    f.addr = p.block s.cache.lineSize ∧ f.size = s.cache.lineSize
  /-- The time of the miss has passed. -/
  missTime : s.cache.phase = .waitMem → s.cache.missTime ≤ s.queue.now
  deferred : s.cache.deferred.isSome → ∃ w ∈ s.cache.memPort.parked, w.command = .writebackDirty
  parked : s.cache.phase ≠ .waitMem → ∀ w ∈ s.cache.memPort.parked, w.command = .writebackDirty
  /-- The answer will find its port free. -/
  free : ∀ id ∈ s.cache.waitingPort, ∃ port ∈ s.cache.cpuPorts[id]?, port.parked = none

variable {s : Session}

/-- A fetch that is kept back waits behind a writeback. -/
theorem Steady.outstanding_perm (h : s.Steady) : s.outstanding.Perm s.cache.lane.fetches := by
  have hdeferred : s.cache.deferred.toList.filter (·.command.needsResponse) = s.cache.deferred.toList := by
    refine List.filter_eq_self.mpr fun f hf => ?_
    exact (h.sane.lane.behind f (Option.mem_toList.mp hf)).1
  have hheld : s.cache.lane.held.filter (·.command.needsResponse) =
      s.cache.memPort.parked.toList.filter (·.command.needsResponse) ++ s.cache.deferred.toList := by
    rw [← hdeferred, ← List.filter_append]
    rfl
  rw [Lane.fetches, hheld]
  exact List.perm_append_comm

theorem Steady.outstanding_eq (h : s.Steady) (hs : Supplied s.view) : s.outstanding = s.view.awaited := by
  have hperm := h.outstanding_perm
  rw [show s.cache.lane.fetches = s.view.awaited from hs.fetches] at hperm
  unfold View.awaited at hperm ⊢
  split at hperm
  · exact List.perm_singleton.mp hperm
  · exact List.perm_nil.mp hperm

theorem Steady.orderly (h : s.Steady) (hs : Supplied s.view) : s.Orderly := by
  have hout := h.outstanding_eq hs
  have hwriteback : ∀ w ∈ s.cache.memPort.parked, w.command.needsResponse = false →
      w.command = .writebackDirty := fun w hw hn =>
    (hs.asked w (by simp [Lane.asked, Lane.held, view, Cache.lane, Option.mem_def.mp hw])).resolve_left (by simp [hn])
  have hdeferred : s.cache.deferred.isSome → ∃ w ∈ s.cache.memPort.parked, w.command = .writebackDirty := by
    intro hd
    obtain ⟨f, hf⟩ := Option.isSome_iff_exists.mp hd
    obtain ⟨-, w, hw, hn⟩ := h.sane.lane.behind f hf
    exact ⟨w, hw, hwriteback w hw hn⟩
  have hquiet : s.cache.lane.coming = [] → ∀ w ∈ s.cache.memPort.parked, w.command = .writebackDirty := by
    intro hc w hw
    refine hwriteback w hw (FlatMemory.answers_eq_nil_iff.mp (List.append_eq_nil_iff.mp hc).2 w ?_)
    simp [Lane.held, Cache.lane, Option.mem_def.mp hw]
  have hagrees := (Consistent.sane h).agrees
  have hblocked : s.cache.blocked ↔ s.cache.waitingPort.isSome := hagrees.blocked.trans hagrees.waiting.symm
  have hcons : s.cache.Consistent (fun _ => True) s.queue s.current := h
  generalize hcurrent : s.current = current at hcons
  cases hcons.stage with
  | idle hservice hq hc =>
    have hphase : s.cache.phase = .idle := hagrees.phase_eq hservice
    have hport : s.cache.waitingPort = none := hagrees.waitingPort_eq hservice
    have hkept : s.cache.original = none := hagrees.original_eq hservice
    have hnone : s.outstanding = [] := hout.trans (View.awaited_of_idle hservice)
    refine ⟨hblocked, hagrees.waiting, ?_, ?_, fun _ => hnone, ?_, ?_, hdeferred, fun _ => hquiet hc, ?_⟩
    · simp [hphase, hq]
    · simp [hphase, hnone]
    · simp [hkept]
    · simp [hphase]
    · simp [hport]
  | @access id p tick hservice hw hq hc =>
    have hphase : s.cache.phase = .waitAccess := hagrees.phase_eq hservice
    have hport : s.cache.waitingPort = some id := hagrees.waitingPort_eq hservice
    have hkept : s.cache.original = none := hagrees.original_eq hservice
    have hnone : s.outstanding = [] := hout.trans (View.awaited_of_access hservice)
    refine ⟨hblocked, hagrees.waiting, ?_, ?_, fun _ => hnone, ?_, ?_, hdeferred, fun _ => hquiet hc, ?_⟩
    · simp [hphase, hq]
    · simp [hphase, hnone]
    · simp [hkept]
    · simp [hphase]
    · simpa [hport] using hw.port
  | @fetch id p since hservice hw hq hle hn hc =>
    have hphase : s.cache.phase = .waitMem := hagrees.phase_eq hservice
    have hport : s.cache.waitingPort = some id := hagrees.waitingPort_eq hservice
    have horiginal : s.cache.original = p.kept s.cache.lineSize := hagrees.original_eq hservice
    have hone : s.outstanding = [p.fetch s.cache.lineSize] :=
      hout.trans (View.awaited_of_fetch hservice hcurrent)
    refine ⟨hblocked, hagrees.waiting, ?_, ?_, ?_, ?_, fun _ => ?_, hdeferred, ?_, ?_⟩
    · simp [hphase, hq]
    · simp [hphase, hone]
    · simp [hphase]
    · intro r hr
      have hkept : p.kept s.cache.lineSize = some r := horiginal.symm.trans hr
      obtain ⟨rfl, hfetch⟩ := Packet.fetch_of_kept hkept
      refine ⟨hphase, _, hone, ?_⟩
      rw [hfetch]
      exact ⟨rfl, rfl, rfl⟩
    · rw [hagrees.missTime_eq hservice]
      exact hle
    · simp [hphase]
    · simpa [hport] using hw.port

variable {period : Nat} {g : Geometry} {gen : Generator} {requestors : List (Nat → Bool)}
  {memory : Nat → Bool} {contents : FlatMemory} {actions : List Action}

/-- After any calls of conforming peers, in any order, the fields of the cache
agree with each other, with the event queue, the ports and the memory. -/
theorem run_orderly (hpos : 0 < g.lineSize)
    (hrun : (start period g gen requestors memory contents >>= run actions).result = .ok s) : s.Orderly := by
  obtain ⟨hsteady, hs⟩ := run_start (I := Supplied) hpos (fun _ => supplied_of_fresh)
    (fun _ _ _ _ _ hstep h => h.step hstep) hrun
  exact hsteady.orderly hs

/-- The theorem while a block of a request is to be fetched, behind a writeback
that the memory refused. -/
theorem run_orderly_of_deferred :
    ∃ s, (start 1 ⟨.directMapped, 4, 1, 1, 1, .lru⟩ (.seeded 0) [fun _ => true] (fun n => n != 2) (fun _ => 0) >>=
        run [.offer 0 (.read 0 4 0), .fire, .answer 0, .offer 0 (.read 4 4 0), .fire, .answer 0,
          .offer 0 (.write 9 [7] 0), .fire]).result = .ok s ∧ s.Orderly :=
  (Sim.exists_eq_ok (by rfl)).imp fun _ h => ⟨h, run_orderly (by decide) h⟩

end CacheSim.Session
