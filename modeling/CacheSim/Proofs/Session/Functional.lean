import CacheSim.Proofs.Session.Coherence
import CacheSim.Random.Seeded

/-!
# Accesses past the timing path

A session does not tell a cache from a flat memory on which the accesses of its
history are performed one after another, those past the timing path among the
requests of the ports (`run_faithful`).  What is left out of the history, and
what an access past the timing path may miss, is in `glance_of_outstanding`.
-/

namespace CacheSim

/-- The answers to those of the accesses that came from port `id`, among some
that came past the timing path. -/
def FlatMemory.answersTo (m : FlatMemory) (id : Nat) : List (Option Nat × Packet) → List Packet
  | [] => []
  | (origin, p) :: rest => (if origin = some id then [m.answer p] else []) ++ (m.perform p).answersTo id rest

theorem FlatMemory.answersTo_concat (m : FlatMemory) (id : Nat) (history : List (Option Nat × Packet))
    (origin : Option Nat) (p : Packet) :
    m.answersTo id (history ++ [(origin, p)]) =
      m.answersTo id history ++ if origin = some id then [(m.after (history.map (·.2))).answer p] else [] := by
  induction history generalizing m with
  | nil => simp [answersTo]
  | cons d history ih =>
    obtain ⟨i, q⟩ := d
    rw [List.cons_append, answersTo, answersTo, ih, List.append_assoc]
    rfl

namespace Session

open Cache

variable {v v' : View} {a : Action} {p : Packet} {contents : FlatMemory}

/-- The ports were told what a flat memory answers to the accesses of the
history, which are the requests that were answered and those past the timing path. -/
structure Told (contents : FlatMemory) (v : View) : Prop where
  coherent : Coherent v.store v.size (contents.after (v.history.map (·.2))) v.lane v.overtaking
  sent : ∀ id, v.sent id = contents.answersTo id v.history
  completed : v.history.filterMap (fun (origin, p) => origin.map (·, p)) = v.completed

/-- A request that is answered joins the history. -/
theorem Told.answered (h : Told contents v) {id : Nat} {r : Packet} {store : Store}
    {l : Lane (Recorded FreeMemory)} {overtaking : List Packet}
    (hr : r = (contents.after (v.history.map (·.2))).answer p)
    (hc : Coherent store v.size ((contents.after (v.history.map (·.2))).perform p) l overtaking)
    {stats : CacheStats} {hits : List Bool} {given : List Packet} :
    Told contents ({ v with store, stats, lane := l, hits, given, overtaking }.answered id p r) := by
  refine ⟨?_, fun j => ?_, ?_⟩
  · show Coherent store v.size (contents.after ((v.history ++ [(some id, p)]).map (·.2))) l overtaking
    rw [after_history_concat]
    exact hc
  · show v.sent j ++ _ = contents.answersTo j (v.history ++ [(some id, p)])
    rw [FlatMemory.answersTo_concat, h.sent, hr]
    simp only [Option.some.injEq]
  · show (v.history ++ [(some id, p)]).filterMap _ = v.completed ++ [(id, p)]
    rw [List.filterMap_append, h.completed]
    rfl

theorem Told.step (h : Told contents v) (hv : v.Sane) (hsupply : Supplied v) (hsupply' : Supplied v')
    (hs : Step a v v') (ha : ∀ i bytes, a ≠ .answer i (some bytes)) : Told contents v' := by
  have hone : v'.lane.unanswered.length ≤ 1 := by
    have hlength := congrArg List.length hsupply'.fetches
    rw [Lane.fetches, List.length_append] at hlength
    exact Nat.le_trans (Nat.le_add_right ..) (hlength.trans_le v'.length_awaited_le)
  cases hs with
  | moved took =>
    exact ⟨h.coherent.took hv.lineSize hv.pos hv.lane took (fun _ hq => absurd hq List.not_mem_nil) hone, h.sent,
      h.completed⟩
  | accepted => exact ⟨h.coherent, h.sent, h.completed⟩
  | functional access effect noted =>
    refine ⟨h.coherent.noted hv hsupply access effect noted, fun id => ?_, ?_⟩
    · cases noted with
      | shadowed => exact h.sent id
      | overtakes => exact h.sent id
      | lasting =>
        show v.sent id = _
        rw [FlatMemory.answersTo_concat, h.sent]
        simp
    · cases noted with
      | shadowed => exact h.completed
      | overtakes => exact h.completed
      | lasting =>
        show (v.history ++ [(none, _)]).filterMap _ = v.completed
        rw [List.filterMap_append, h.completed]
        exact List.append_nil _
  | hit service current access coming hit image =>
    have hquiet := hsupply.fetches.trans (View.awaited_of_access service)
    obtain ⟨hr, hc⟩ := h.coherent.hit hquiet hit image
    exact h.answered hr hc
  | @missed _ id p since lane taken service current access coming absent took =>
    refine ⟨h.coherent.took hv.lineSize hv.pos hv.lane took (fun q hq => ?_) hone, h.sent, h.completed⟩
    obtain rfl := List.mem_singleton.mp hq
    exact ⟨access.needsResponse_fetch, access.isBlock_fetch, (Packet.addr_fetch ..).symm ▸ absent⟩
  | @filled _ id p since other due a data victim t store stats lane taken service current access absent held owed
      answer payload length insert complete took image =>
    -- the memory gives the answer that it owes
    obtain rfl : other = none := Option.eq_none_iff_forall_ne_some.mpr fun bytes ho => ha 0 bytes (ho ▸ rfl)
    subst answer
    have hunanswered := hsupply.unanswered_eq service current held
    obtain ⟨hr, houtcome⟩ := h.coherent.completion_eq hv access hunanswered held owed payload
    refine h.answered hr (.filled (hsupply'.fetches.trans (View.awaited_of_idle rfl)) took held ?_ ?_
      (image.trans houtcome))
    · rw [Lane.owed_gave, owed]
      rfl
    · obtain ⟨-, hi⟩ := hv.valid.of_insert absent (hv.lineSize ▸ p.dvd_block _) (length.trans hv.lineSize.symm) insert
      intro w hw
      refine ⟨hv.lineSize ▸ hv.valid.isBlock_writebacks hi w hw, ?_⟩
      obtain ⟨line, hline, rfl⟩ := List.mem_map.mp hw
      exact (Store.lookup_complete_eq_none_iff complete _).mpr (hi.evicted line (Option.mem_toList.mp hline))

theorem told_of_fresh {g : Geometry} {gen : Generator} (h : v.Fresh g gen contents) : Told contents v := by
  refine ⟨⟨?_, ?_, ?_, ?_⟩, fun id => ?_, ?_⟩
  · have hempty := (Store.valid_ofGeometry? h.store).2.2.1
    rw [Store.overlay_of_empty hempty, Lane.settled, Lane.waiting, h.held, h.contents, h.history, h.unanswered,
      h.overtaking]
    rfl
  · rw [h.owed, h.unanswered]
    rfl
  · rw [h.unanswered, h.held]
    exact fun q hq => absurd hq List.not_mem_nil
  · rw [h.overtaking]
    exact fun q hq => absurd hq List.not_mem_nil
  · rw [h.sent, h.history]
    rfl
  · rw [h.history, h.completed]
    rfl

variable {s : Session}

/-- What the ports were told, and what an access past the timing path is told
now, is what a flat memory answers. -/
structure Faithful (s : Session) (contents : FlatMemory) : Prop where
  sent : ∀ id, s.cache.sentOn id = contents.answersTo id s.history
  completed : s.history.filterMap (fun (origin, p) => origin.map (·, p)) = s.completed
  functional : ∀ id p, s.Allowed (.functional id p) → ∃ a cache, (s.cache.functional id p).result = .ok (a, cache) ∧
    (¬s.Shadowed p → a = (contents.after
      (s.history.map (·.2) ++ (s.cache.memPort.peer.unanswered ++ s.overtaking))).answer p) ∧
    (¬s.Shadowed p → ¬s.Overtakes p → a = (contents.after (s.history.map (·.2))).answer p)

theorem Steady.faithful (h : s.Steady) (hs : Supplied s.view) (ht : Told contents s.view) : s.Faithful contents := by
  refine ⟨ht.sent, ht.completed, fun id p ha => ?_⟩
  obtain ⟨a, store, lane, hres, -, -, rfl⟩ := h.functional_spec ha
  have hshown : ¬s.Shadowed p → (s.cache.store.overlay s.cache.lane.contents).answer p =
      ((contents.after (s.history.map (·.2))).after
        (s.cache.memPort.peer.unanswered ++ s.overtaking)).answer p := fun hshadow =>
    ht.coherent.answer_eq h.sane ha.2
      (hs.apart h.sane fun w hw hcommand haddr => hshadow ⟨w, hw, hcommand, haddr⟩)
  refine ⟨_, _, hres, fun hshadow => ?_, fun hshadow hover => ?_⟩
  · rw [hshown hshadow, FlatMemory.after_append contents]
  · rw [hshown hshadow]
    exact ht.coherent.answer_after h.sane.pos ha.2 fun f hf haddr => hover ⟨f, hf, haddr⟩

variable {period : Nat} {g : Geometry} {gen : Generator} {requestors : List (Nat → Bool)}
  {memory : Nat → Bool} {actions : List Action}

/-- After any calls of conforming peers, in any order, over a memory that answers
truly, the ports were told what a flat memory answers to the accesses of the
history, and so is an access past the timing path, which always answers, unless
a writeback of its block waits for the memory.  The history has all requests
that were answered and all accesses past the timing path but those that came
while a writeback of their block waited or the answer to a fetch of it was owed. -/
theorem run_faithful (hpos : 0 < g.lineSize) (htruth : ∀ i bytes, .answer i (some bytes) ∉ actions)
    (hrun : (start period g gen requestors memory contents >>= run actions).result = .ok s) :
    s.Faithful contents := by
  obtain ⟨hsteady, hs, ht⟩ := run_start (I := fun v => Supplied v ∧ Told contents v) hpos
    (fun _ hf => ⟨supplied_of_fresh hf, told_of_fresh hf⟩)
    (fun a ha _ _ hv hstep h =>
      have hs' := h.1.step hstep
      ⟨hs', h.2.step hv h.1 hs' hstep fun i bytes he => htruth i bytes (he ▸ ha)⟩) hrun
  exact hsteady.faithful hs ht

/-- The theorem while the answer to the fetch of a block is owed, which an
access past the timing path overtook. -/
theorem run_faithful_of_overtaking :
    ∃ s, (start 1 ⟨.fullyAssociative, 4, 1, 1, 1, .lru⟩ (.seeded 0) [fun _ => true] (fun _ => true)
        (fun _ => 0) >>= run [.functional 0 (.write 4 [5] 0), .offer 0 (.read 5 2 0), .fire,
          .functional 0 (.write 5 [6] 0)]).result = .ok s ∧ s.Faithful (fun _ => 0) :=
  (Sim.exists_eq_ok (by rfl)).imp fun _ h => ⟨h, run_faithful (by decide) (by simp) h⟩

/-- Calls to a cache with one line of four bytes over a memory of zeros, and then
a read past the timing path: the requests that were answered, and the byte read. -/
def glance (memory : Nat → Bool) (actions : List Action) : Sim (List (Nat × Packet) × Option Bytes) := do
  let s ← start 1 ⟨.directMapped, 4, 1, 1, 1, .lru⟩ (.seeded 0) [fun _ => true] memory (fun _ => 0)
  let s ← run actions s
  let (a, _) ← s.cache.functional 0 (.read 0 1 0)
  return (s.completed, a.payload)

/-- A read past the timing path misses a write that was answered while its
writeback waits.  A write past the timing path is lost if a writeback of its
block waits, or the answer to a fetch of it is owed.  And a write of a whole
block is read before it is answered. -/
theorem glance_of_outstanding :
    (glance (fun n => n != 2) [.offer 0 (.write 0 [7] 0), .fire, .answer 0, .offer 0 (.read 4 4 0), .fire,
        .answer 0]).result = .ok ([(0, .write 0 [7] 0), (0, .read 4 4 0)], some [0]) ∧
      (FlatMemory.after (fun _ => 0) [.write 0 [7] 0, .read 4 4 0]).read 0 1 = [7] ∧
      (glance (fun n => n != 2) [.offer 0 (.write 0 [7] 0), .fire, .answer 0, .offer 0 (.read 4 4 0), .fire,
        .answer 0, .functional 0 (.write 0 [9] 0), .retryRequest]).result =
          .ok ([(0, .write 0 [7] 0), (0, .read 4 4 0)], some [7]) ∧
      (glance (fun _ => true) [.offer 0 (.read 1 1 0), .fire, .functional 0 (.write 0 [9] 0),
        .answer 0]).result = .ok ([(0, .read 1 1 0)], some [0]) ∧
      (glance (fun _ => true) [.offer 0 (.write 0 [1, 2, 3, 4] 0), .fire]).result = .ok ([], some [1]) :=
  ⟨rfl, rfl, rfl, rfl, rfl⟩

end Session

end CacheSim
