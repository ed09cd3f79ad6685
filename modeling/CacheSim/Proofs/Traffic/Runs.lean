import CacheSim.Proofs.Traffic.Invariant
import CacheSim.Random.Seeded

/-!
# Runs of conforming traffic

Whatever conforming peers do in whatever order, a cache over an empty store
answers every call (`run_never_faults`), and if all calls are timed, it is not
to be told from a flat memory (`run_like_flat_memory`).
-/

namespace CacheSim.Traffic

open Cache

variable {period : Nat} {g : Geometry} {gen : Generator} {requestors : List (Nat → Bool)}
  {memory : Nat → Bool} {contents : FlatMemory} {t : Traffic}

/-- The requests that were answered: all but the one in service. -/
def completed (t : Traffic) : List (Nat × Packet) :=
  if t.cache.blocked then t.accepted.dropLast else t.accepted

theorem start_eq_ok (hstore : (Store.ofGeometry? g gen).isOk) (hperiod : 0 < period)
    (hports : requestors ≠ []) (memory : Nat → Bool) (contents : FlatMemory) :
    ∃ t, (start period g gen requestors memory contents).result = .ok t := by
  cases hs : Store.ofGeometry? g gen with
  | error e => simp [hs, Except.isOk, Except.toBool] at hstore
  | ok store =>
    have hsize := (Store.valid_ofGeometry? hs).2.1
    have hclock : Clock.ofPeriod? period = .ok ⟨period⟩ := if_neg (by omega)
    exact ⟨_, by simp [start, hs, hclock, build, hports, hsize]; rfl⟩

/-- The start is good: nothing is in service, and the store shows the memory. -/
theorem good_start (timed : Prop) (h : (start period g gen requestors memory contents).result = .ok t)
    (hpos : 0 < g.lineSize) : t.Good timed contents 0 [] none := by
  simp only [start, Sim.result_bind, Sim.result_liftM] at h
  obtain ⟨clock, hclock, h⟩ := Sim.bind_eq_ok.mp h
  obtain ⟨store, hstore, h⟩ := Sim.bind_eq_ok.mp h
  obtain ⟨cache, hcache, h⟩ := Sim.bind_eq_ok.mp h
  obtain rfl := Except.ok.inj h
  obtain ⟨hv, -, hn, htime⟩ := Store.valid_ofGeometry? hstore
  obtain ⟨hsize, rfl⟩ := build_eq_ok hcache
  have hperiod : 0 < clock.period := by
    unfold Clock.ofPeriod? at hclock
    split at hclock
    · cases hclock
    · obtain rfl := Except.ok.inj hclock
      exact Nat.pos_of_ne_zero ‹_›
  refine ⟨Sane.idle (sane_of_empty hv hn hsize hpos rfl rfl rfl fun _ _ _ => trivial) rfl rfl rfl, rfl,
    ⟨Nat.zero_le _, Nat.zero_le _, Nat.zero_le _, Nat.le_of_eq htime⟩, (by decide : 0 < limit),
    fun e he => absurd he (by simp [EventQueue.empty]), hperiod, fun _ => ?_, fun _ id => ?_⟩
  · exact (shows_of_idle rfl).mpr (Store.overlay_of_empty hn contents)
  · simp only [sentOn, getElem?_connect, List.getElem?_map]
    cases requestors[id]? with
    | none => rfl
    | some choices => rfl

/-- A run from the start comes to a good state. -/
theorem run_start {actions : List Action} (timed : Prop) (hstore : (Store.ofGeometry? g gen).isOk)
    (hpos : 0 < g.lineSize) (hperiod : 0 < period) (hports : requestors ≠ [])
    (hlen : actions.length < limit) (ht : timed → ∀ a ∈ actions, a.IsTimed) (memory : Nat → Bool)
    (contents : FlatMemory) :
    ∃ u done current, (start period g gen requestors memory contents >>= run actions).result = .ok u ∧
      u.Good timed contents actions.length done current := by
  obtain ⟨t, hstart⟩ := start_eq_ok hstore hperiod hports memory contents
  obtain ⟨u, done, current, hrun, hu⟩ := (good_start timed hstart hpos).run (by simpa using hlen) ht
  rw [Nat.zero_add] at hu
  exact ⟨u, done, current, by simp [hstart, hrun], hu⟩

theorem Good.completed_eq {timed : Prop} {m : FlatMemory} {n : Nat} {done : List (Nat × Packet)}
    {current : Option (Nat × Packet)} (h : t.Good timed m n done current) : t.completed = done := by
  have hacc := h.accepted
  have hagrees := h.consistent.sane.agrees
  unfold completed
  cases h.consistent.stage with
  | idle hs => simpa [hagrees.blocked_eq hs] using hacc
  | access hs => simp [hagrees.blocked_eq hs, hacc]
  | fetch hs => simp [hagrees.blocked_eq hs, hacc]

/-- Whatever conforming peers do, in whatever order, the cache answers every
call: neither a check of the cache, nor one of its ports, nor one of its store
fails.  The store never holds more lines than there is room for, and no counter
reaches the greatest word. -/
theorem run_never_faults (hstore : (Store.ofGeometry? g gen).isOk) (hpos : 0 < g.lineSize)
    (hperiod : 0 < period) (hports : requestors ≠ []) (memory : Nat → Bool) (contents : FlatMemory)
    {actions : List Action} (hlen : actions.length < limit) :
    ∃ u, (start period g gen requestors memory contents >>= run actions).result = .ok u ∧
      u.cache.store.size ≤ u.cache.store.capacity ∧ u.cache.stats.hits < Word.max ∧
      u.cache.stats.misses < Word.max ∧ u.cache.store.time < Word.max := by
  obtain ⟨u, done, current, hrun, hu⟩ :=
    run_start False hstore hpos hperiod hports hlen (fun h => h.elim) memory contents
  have hbound : ∀ {k}, k ≤ actions.length → k < Word.max := fun hk =>
    Nat.lt_of_le_of_lt hk (Nat.lt_trans hlen (by decide))
  exact ⟨u, hrun, hu.consistent.sane.valid.size_le_capacity, hbound hu.within.hits,
    hbound hu.within.misses, hbound hu.within.time⟩

/-- The theorem at a write that misses, a functional write of the same block while
it is fetched, and an answer of the memory with other bytes. -/
theorem run_never_faults_of_functional :
    ∃ u, (start 1 ⟨.fullyAssociative, 4, 2, 2, 1, .random⟩ (.seeded 0) [fun n => n != 0] (fun n => n != 0)
        (fun _ => 0) >>= run [.offer 0 (.write 1 [7] 0), .offer 0 (.read 0 4 0), .fire,
          .functional 0 (.write 0 [1, 2] 0), .retryRequest, .answer 0 (some [4, 3, 2, 1])]).result = .ok u ∧
      u.cache.store.size ≤ u.cache.store.capacity ∧ u.cache.stats.hits < Word.max ∧
      u.cache.stats.misses < Word.max ∧ u.cache.store.time < Word.max :=
  run_never_faults (by decide) (by decide) (by decide) (by simp) _ _ (by decide)

/-- Timed traffic does not tell a cache from a flat memory that performs the
accepted requests in their order: what every port was sent are the flat answers
to the completed requests of that port, in order, and the memory after the
packets that wait for it, under the resident blocks, is the flat memory after
the completed requests, or after all accepted ones.  Both are the same if no
request is in service. -/
theorem run_like_flat_memory (hstore : (Store.ofGeometry? g gen).isOk) (hpos : 0 < g.lineSize)
    (hperiod : 0 < period) (hports : requestors ≠ []) (memory : Nat → Bool) (contents : FlatMemory)
    {actions : List Action} (hlen : actions.length < limit) (htimed : ∀ a ∈ actions, a.IsTimed) :
    ∃ u, (start period g gen requestors memory contents >>= run actions).result = .ok u ∧
      (∀ id, u.cache.sentOn id = contents.answersOn id u.completed) ∧
      (u.cache.image = contents.after (u.completed.map (·.2)) ∨
        u.cache.image = contents.after (u.accepted.map (·.2))) := by
  obtain ⟨u, done, current, hrun, hu⟩ :=
    run_start True hstore hpos hperiod hports hlen (fun _ => htimed) memory contents
  refine ⟨u, hrun, ?_, ?_⟩ <;> rw [hu.completed_eq]
  · exact hu.sent trivial
  · refine (hu.consistent.image_of_shows (hu.shows trivial)).imp_right ?_
    rintro ⟨id, p, rfl, himage⟩
    rw [himage, hu.accepted, List.map_append, FlatMemory.after_append]
    rfl

/-- The theorem at a write that misses, whose fetch and answer are refused once
each, and a read after it. -/
theorem run_like_flat_memory_of_refusals :
    ∃ u, (start 1 ⟨.setAssociative, 4, 2, 2, 1, .lru⟩ (.seeded 0) [fun n => n != 0] (fun n => n != 0)
        (fun _ => 0) >>= run [.offer 0 (.write 1 [7] 0), .fire, .retryRequest, .answer 0, .retryResponse 0,
          .offer 0 (.read 0 4 0), .fire]).result = .ok u ∧
      (∀ id, u.cache.sentOn id = FlatMemory.answersOn (fun _ => 0) id u.completed) ∧
      (u.cache.image = FlatMemory.after (fun _ => 0) (u.completed.map (·.2)) ∨
        u.cache.image = FlatMemory.after (fun _ => 0) (u.accepted.map (·.2))) :=
  run_like_flat_memory (by decide) (by decide) (by decide) (by simp) _ _ (by decide)
    (by simp [Action.IsTimed])

end CacheSim.Traffic
