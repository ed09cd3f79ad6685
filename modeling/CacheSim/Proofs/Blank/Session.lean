import CacheSim.Proofs.Blank.Cache
import CacheSim.Proofs.Session.Steps
import CacheSim.Random.Seeded

/-!
# Sessions whose bytes differ

The control of a session is the session blanked: all but the bytes of packets,
lines and the memory.  A call on the timing path does the same to the control
whatever the bytes are (`agree_perform`), and an access past that path does
nothing to it (`Steady.perform_functional`).  So the control after a run depends
on the control of the calls only (`run_noninterfering`).
-/

namespace CacheSim

/-- The call with zeros in its packets; none for an access past the timing path. -/
def Action.blank? : Action → Option Action
  | offer id p => some (.offer id p.blank)
  | functional .. => none
  | advance tick => some (.advance tick)
  | fire => some .fire
  | answer i other => some (.answer i (other.map Block.blank))
  | retryResponse id => some (.retryResponse id)
  | retryRequest => some .retryRequest

theorem Recorded.blank_gave (m : Recorded FreeMemory) (i : Nat) : (m.gave i).blank = m.blank.gave i := by
  simp only [gave, blank, FreeMemory.blank, List.eraseIdx_map]

namespace Session

/-- The session with zeros in all packets, lines and the memory, and without the
record of accesses past the timing path. -/
def blank (s : Session) : Session where
  cache := s.cache.blank
  queue := s.queue.blank
  accepted := s.accepted.map (Prod.map id Packet.blank)
  hits := s.hits
  given := s.given.map Packet.blank
  history := (s.history.filter (·.1.isSome)).map (Prod.map id Packet.blank)

variable (s : Session)

@[simp] theorem cache_blank : s.blank.cache = s.cache.blank := rfl
@[simp] theorem queue_blank : s.blank.queue = s.queue.blank := rfl

theorem owed_blank : s.blank.cache.memPort.peer.memory.owed = s.cache.memPort.peer.memory.owed.map Packet.blank := rfl

theorem current_blank : s.blank.current = s.current.map (Prod.map id Packet.blank) := by
  unfold current
  rw [cache_blank, Cache.blocked_blank]
  split
  · exact List.getLast?_map
  · rfl

theorem historyAt_blank (d : Cache FreeRequestor (Recorded FreeMemory)) :
    s.blank.historyAt d.blank = ((s.historyAt d).filter (·.1.isSome)).map (Prod.map id Packet.blank) := by
  unfold historyAt
  rw [Cache.blocked_blank, current_blank]
  split
  · rfl
  · cases s.current with
    | none => simp [blank]
    | some r => simp [blank]

/-- What the protocol allows does not depend on bytes. -/
theorem allowed_blank {a a' : Action} (ha : a.blank? = some a') : s.blank.Allowed a' ↔ s.Allowed a := by
  cases a with
  | functional id p => cases ha
  | offer id p =>
    obtain rfl := Option.some.inj ha
    simp only [Allowed, blank, Cache.blank, List.length_map]
    exact and_congr_right fun _ => p.isAccess_blank s.cache.lineSize
  | advance tick =>
    obtain rfl := Option.some.inj ha
    simp only [Allowed, queue_blank, EventQueue.next?_blank]
    exact Iff.rfl
  | fire =>
    obtain rfl := Option.some.inj ha
    simp only [Allowed, queue_blank, EventQueue.next?_blank]
  | answer i other =>
    obtain rfl := Option.some.inj ha
    simp only [Allowed, owed_blank, List.getElem?_map]
    cases s.cache.memPort.peer.memory.owed[i]? <;> cases other <;> simp
  | retryResponse id =>
    obtain rfl := Option.some.inj ha
    simp only [Allowed, blank, Cache.blank, List.getElem?_map]
    cases s.cache.cpuPorts[id]? <;> simp [CpuSidePort.blank]
  | retryRequest =>
    obtain rfl := Option.some.inj ha
    simp [Allowed]

theorem agree_offer (id : Nat) (p : Packet) :
    Agree blank (s.perform (.offer id p)).result (s.blank.perform (.offer id p.blank)).result := by
  simp only [perform, Sim.result_bind, Sim.result_pure]
  refine .bind (s.cache.agree_offer s.queue id p) fun o => .of_eq ?_
  obtain ⟨handshake, cache, queue⟩ := o
  simp only [Prod.map_apply, Handshake.blank_eq_accepted_iff]
  split <;> simp [blank]

theorem agree_fire : Agree blank (s.perform .fire).result (s.blank.perform .fire).result := by
  simp only [perform]
  rw [queue_blank, EventQueue.pop?_blank]
  cases s.queue.pop? with
  | none => exact .ok s
  | some o =>
    obtain ⟨tick, event, queue⟩ := o
    simp only [Option.map_some, Prod.map_apply, Sim.result_bind, Sim.result_pure]
    refine .bind (s.cache.agree_fire tick event) fun d => .of_eq ?_
    simp only [fired, historyAt_blank]
    rfl

theorem agree_answer (i : Nat) (other : Option Bytes) :
    Agree blank (s.perform (.answer i other)).result
      (s.blank.perform (.answer i (other.map Block.blank))).result := by
  simp only [perform, owed_blank, List.getElem?_map]
  cases s.cache.memPort.peer.memory.owed[i]? with
  | none => exact .ok s
  | some due =>
    have hgiven : Packet.blank { due with payload := other.or due.payload } =
        { due.blank with payload := (other.map Block.blank).or due.blank.payload } := by
      cases other <;> rfl
    have hcache : Cache.blank { s.cache with
        memPort := { s.cache.memPort with peer := s.cache.memPort.peer.gave i } } = { s.blank.cache with
        memPort := { s.blank.cache.memPort with peer := s.blank.cache.memPort.peer.gave i } } := by
      simp only [Cache.blank, MemSidePort.blank, Recorded.blank_gave]
      rfl
    simp only [Option.map_some, Sim.result_bind, Sim.result_pure, ← hgiven, ← hcache]
    refine .bind (Cache.agree_fill _ s.queue.now _) fun d => .of_eq ?_
    rw [historyAt_blank]
    simp [blank]

/-- A call on the timing path does the same to the control, whatever the bytes are. -/
theorem agree_perform {a a' : Action} (ha : a.blank? = some a') :
    Agree blank (s.perform a).result (s.blank.perform a').result := by
  cases a with
  | functional id p => cases ha
  | offer id p =>
    obtain rfl := Option.some.inj ha
    exact s.agree_offer id p
  | advance tick =>
    obtain rfl := Option.some.inj ha
    simp only [perform, Sim.result_bind, Sim.result_liftM, Sim.result_pure]
    exact .bind (s.queue.agree_advanceTo tick) fun queue => .ok { s with queue }
  | fire =>
    obtain rfl := Option.some.inj ha
    exact s.agree_fire
  | answer i other =>
    obtain rfl := Option.some.inj ha
    exact s.agree_answer i other
  | retryResponse id =>
    obtain rfl := Option.some.inj ha
    simp only [perform, Sim.result_bind, Sim.result_pure]
    exact .bind (s.cache.agree_retryResponse id) fun cache => .ok { s with cache }
  | retryRequest =>
    obtain rfl := Option.some.inj ha
    simp only [perform, Sim.result_bind, Sim.result_pure]
    exact .bind s.cache.agree_retryRequest fun cache => .ok { s with cache }

variable {s}

/-- An access past the timing path answers, and does nothing to the control. -/
theorem Steady.perform_functional (h : s.Steady) {id : Nat} {p : Packet} (ha : s.Allowed (.functional id p)) :
    ∃ s', (s.perform (.functional id p)).result = .ok s' ∧ s'.blank = s.blank := by
  obtain ⟨a, store, lane, hres, heffect, -, -⟩ := h.functional_spec ha
  have hcache : ({ s.cache with store }.withLane lane).blank = s.cache.blank := by
    cases heffect with
    | resident access =>
      have hstore : store.blank = s.cache.store.blank :=
        h.sane.valid.blank_of_access (h.sane.lineSize ▸ h.sane.pos) (h.sane.lineSize ▸ ha.2) access
      exact congrArg (fun store => { s.cache.blank with store }) hstore
    | absent => rfl
  simp only [perform, Sim.result_bind, hres, Sim.ok_bind]
  split
  · exact ⟨_, rfl, by simp only [blank, hcache]⟩
  · split
    · exact ⟨_, rfl, by simp only [blank, hcache]⟩
    · exact ⟨_, rfl, by simp [blank, hcache]⟩

/-- The control after a run depends on the control before it and on the calls on
the timing path. -/
theorem Steady.agree_run (h : s.Steady) (actions : List Action) :
    Agree blank (run actions s).result (run (actions.filterMap Action.blank?) s.blank).result := by
  induction actions generalizing s with
  | nil => exact .ok s
  | cons a rest ih =>
    cases hb : a.blank? with
    | some a' =>
      rw [List.filterMap_cons_some hb]
      by_cases ha : s.Allowed a
      · have ha' : s.blank.Allowed a' := (s.allowed_blank hb).mpr ha
        simp only [run, if_pos ha, if_pos ha', Sim.result_bind]
        exact (s.agree_perform hb).bind_of_ok fun t ht => ih (h.step ha ht).2
      · have ha' : ¬s.blank.Allowed a' := fun ha' => ha ((s.allowed_blank hb).mp ha')
        simp only [run, if_neg ha, if_neg ha', Sim.result_bind, Sim.result_pure, Sim.ok_bind]
        exact ih h
    | none =>
      rw [List.filterMap_cons_none hb]
      by_cases ha : s.Allowed a
      · cases a with
        | functional id p =>
          obtain ⟨t, ht, hblank⟩ := h.perform_functional ha
          simp only [run, if_pos ha, Sim.result_bind, ht, Sim.ok_bind, ← hblank]
          exact ih (h.step ha ht).2
        | _ => cases hb
      · simp only [run, if_neg ha, Sim.result_bind, Sim.result_pure, Sim.ok_bind]
        exact ih h

variable {period : Nat} {g : Geometry} {gen : Generator} {requestors : List (Nat → Bool)}
  {memory : Nat → Bool}

/-- The control at the start does not depend on the memory. -/
theorem agree_start (period : Nat) (g : Geometry) (gen : Generator) (requestors : List (Nat → Bool))
    (memory : Nat → Bool) (contents : FlatMemory) :
    Agree blank (start period g gen requestors memory contents).result
      (start period g gen requestors memory .zeros).result := by
  simp only [start, Sim.result_bind, Sim.result_liftM, Sim.result_pure]
  refine .bind (.refl _) fun clock => .bind (Store.agree_of_geometry g gen) fun store => ?_
  exact .bind (Cache.agree_build "cache" g store requestors memory contents) fun cache =>
    .ok (Session.mk cache (.empty clock) [] [] [] [] [])

/-- Two runs over any memory bytes, whose calls differ in their bytes and in the
accesses past the timing path only, end alike: both with a fault, or with the
same control.  Only the bytes of packets, lines and the memory are blanked in a
session; so the runs agree on which requests and answers were accepted, what the
cache waits for and which port, the flags of all ports, the lines with their
tags, order and times, the generator, the scheduled tick, all statistics, and
the requests that the memory received. -/
theorem run_noninterfering {actions actions' : List Action} {contents contents' : FlatMemory} (hpos : 0 < g.lineSize)
    (hcalls : actions.filterMap Action.blank? = actions'.filterMap Action.blank?) :
    (start period g gen requestors memory contents >>= run actions).result.toOption.map blank =
      (start period g gen requestors memory contents' >>= run actions').result.toOption.map blank := by
  have hrun : ∀ (calls : List Action) (bytes : FlatMemory),
      (start period g gen requestors memory bytes >>= run calls).result.toOption.map blank =
        (start period g gen requestors memory .zeros >>= run (calls.filterMap Action.blank?)).result.toOption :=
    fun calls bytes => by
      rw [Sim.result_bind, Sim.result_bind]
      exact ((agree_start ..).bind_of_ok fun s hs => (steady_start hs hpos).1.agree_run calls).toOption_eq
  rw [hrun, hrun, hcalls]

/-- The theorem for accesses past the timing path before the access of a write is
performed, while its block is fetched, and while its writeback is refused. -/
theorem run_noninterfering_of_parked :
    ∃ s, (start 1 ⟨.fullyAssociative, 4, 1, 1, 1, .lru⟩ (.seeded 0) [fun n => n != 1] (fun n => n != 2)
        (fun _ => 0) >>= run [.functional 0 (.write 4 [5] 0), .offer 0 (.write 0 [7] 0),
          .functional 0 (.write 1 [6] 0), .fire, .functional 0 (.read 1 2 0), .answer 0, .offer 0 (.read 4 1 0),
          .fire, .answer 0, .functional 0 (.write 0 [9] 0), .functional 0 (.write 5 [9] 0)]).result = .ok s ∧
      ∃ s', (start 1 ⟨.fullyAssociative, 4, 1, 1, 1, .lru⟩ (.seeded 0) [fun n => n != 1] (fun n => n != 2)
          (fun _ => 3) >>= run [.offer 0 (.write 0 [8] 0), .fire, .answer 0, .offer 0 (.read 4 1 0), .fire,
            .answer 0]).result = .ok s' ∧
        s.blank = s'.blank ∧ s.cache.memPort.parked.isSome ∧ s.cache.cpuPorts.map (·.parked.isSome) = [true] := by
  refine (Sim.exists_eq_ok (by rfl)).imp fun s hs => ⟨hs, ?_⟩
  refine (Sim.exists_eq_ok (by rfl)).imp fun s' hs' => ⟨hs', ?_⟩
  have hblank : (Except.ok s : Except Fault Session).toOption.map blank =
      (Except.ok s' : Except Fault Session).toOption.map blank := by
    rw [← hs, ← hs']
    exact run_noninterfering (by decide) rfl
  have hparked := congrArg
    (·.toOption.map fun s => (s.cache.memPort.parked.isSome, s.cache.cpuPorts.map (·.parked.isSome))) hs
  exact ⟨Option.some.inj hblank, Prod.mk.inj (Option.some.inj (hparked.symm.trans rfl))⟩

end Session

end CacheSim
