import CacheSim.Proofs.Session.Steps
import CacheSim.Random.Seeded

/-!
# Sessions and the cache without time

However the calls of the peers come in between, a session does what the cache
without time does with the same requests and the same answers of the memory
(`Untimed.serveAll`): the accesses hit and miss alike, the stores are the same
whenever no request is in service, and the memory is asked for the same packets
in the same order, of which those that it did not accept yet are held back.

A request that waits for its block is half served: its access missed, and its
fetch was sent (`Untimed.begun`).
-/

namespace CacheSim

/-- The cache without time in the middle of a request, if its access missed and
its block did not come yet. -/
def Untimed.begun (u : Untimed) : Option Packet → Untimed
  | none => u
  | some p => u.missed p

namespace Session

open Cache

/-- The request that waits for its block. -/
def missing (s : Session) : Option Packet :=
  if s.cache.phase = .waitMem then s.current.map (·.2) else none

/-- A cache without time, which began with the store `store` and was given the
same answers, does the same. -/
structure Refines (s : Session) (store : Store) (u : Untimed) : Prop where
  /-- It served the requests that were answered. -/
  served : (({ store, answers := s.given } : Untimed).serveAll (s.completed.map (·.2))).result = .ok u
  /-- It needed every answer that the memory gave. -/
  answers : u.answers = []
  store : s.cache.store = u.store
  hits : s.hits = (u.begun s.missing).hits
  asked : s.asked = (u.begun s.missing).asked

/-- The answers that the memory gave and owes are true to what it received. -/
def Truthful (s : Session) (contents : FlatMemory) : Prop :=
  s.given ++ s.cache.memPort.peer.memory.owed = contents.answers s.cache.memPort.peer.received

variable {v v' : View} {a : Action}

namespace View

/-- The request that waits for its block. -/
def missing (v : View) : Option Packet :=
  if v.service.phase = .waitMem then v.current.map (·.2) else none

theorem missing_of_idle (h : v.service = .idle) : v.missing = none := by
  rw [missing, h]
  rfl

theorem missing_of_access {id : Nat} (h : v.service = .access id) : v.missing = none := by
  rw [missing, h]
  rfl

theorem missing_of_fetch {id : Nat} {p : Packet} {since : Tick} {kept : Option Packet}
    (h : v.service = .fetch id since kept) (hc : v.current = some (id, p)) : v.missing = some p := by
  rw [missing, h, hc]
  rfl

end View

/-- What is to be seen agrees with a cache without time. -/
structure Mirrors (store : Store) (v : View) (u : Untimed) : Prop where
  served : (({ store, answers := v.given } : Untimed).serveAll (v.completed.map (·.2))).result = .ok u
  answers : u.answers = []
  store : v.store = u.store
  hits : v.hits = (u.begun v.missing).hits
  asked : v.lane.asked = (u.begun v.missing).asked

variable {store : Store} {u : Untimed}

/-- The cache without time serves one request more, for which the memory gave
`more`. -/
theorem Mirrors.served_concat (h : Mirrors store v u) (more : List Packet) (id : Nat) {p : Packet}
    {w : Untimed} (hw : ((u.withMore more).serve p).result = .ok w) :
    (({ store, answers := v.given ++ more } : Untimed).serveAll
      ((v.completed ++ [(id, p)]).map (·.2))).result = .ok w := by
  rw [List.map_append, List.map_singleton, Untimed.serveAll_concat]
  have hmore := Untimed.serveAll_withMore more h.served
  rw [Untimed.withMore] at hmore
  rw [hmore, Sim.ok_bind, hw]

theorem Mirrors.step (h : Mirrors store v u) (hv : v.Sane) (hs : Step a v v')
    (ha : ∀ id p, a ≠ .functional id p) : ∃ u', Mirrors store v' u' := by
  have hline : u.store.lineSize = v.size := by rw [← h.store, hv.lineSize]
  have hhits := h.hits
  have hasked := h.asked
  cases hs with
  | moved took =>
    refine ⟨u, h.served, h.answers, h.store, hhits, ?_⟩
    rw [took.asked, List.append_nil]
    exact hasked
  | accepted service =>
    rw [View.missing_of_idle service] at hhits hasked
    exact ⟨u, h.served, h.answers, h.store, hhits, hasked⟩
  | functional => exact absurd rfl (ha _ _)
  | @hit _ id p q t service current access coming hit =>
    rw [View.missing_of_access service] at hhits hasked
    rw [h.store] at hit
    have hserve := Untimed.serve_of_hit hit
    rw [← Untimed.withMore_nil u] at hserve
    have hserved := h.served_concat [] id hserve
    rw [List.append_nil, Untimed.withMore_nil] at hserved
    refine ⟨_, hserved, h.answers, ?_, ?_, hasked⟩
    · show t.touch _ = t.touch (p.block u.store.lineSize)
      rw [hline]
    · exact congrArg (· ++ [true]) hhits
  | @missed _ id p since lane taken service current access coming absent took =>
    rw [View.missing_of_access service] at hhits hasked
    refine ⟨u, h.served, h.answers, h.store, ?_, ?_⟩
    · show v.hits ++ [false] = (u.begun (v.current.map (·.2))).hits
      rw [current, hhits]
      rfl
    · show lane.asked = (u.begun (v.current.map (·.2))).asked
      rw [current, took.asked, hasked, ← hline]
      rfl
  | @filled _ id p since other due a data victim t store' stats lane taken service current access absent held owed
      answer payload length insert complete took =>
    rw [View.missing_of_fetch service current] at hhits hasked
    -- the untimed cache is given the block beforehand, and serves the whole request
    have hmiss : ((u.withMore [a]).store.access p).result = .ok none := by
      refine Store.access_of_not_resident (hline ▸ hv.pos) ?_
      show u.store.lookup (p.block u.store.lineSize) = none
      rw [hline, ← h.store]
      exact absent
    have hnext : (u.withMore [a]).answers = [a] := by
      rw [Untimed.withMore, h.answers, List.nil_append]
    have hinsert : ((u.withMore [a]).store.insert (p.block (u.withMore [a]).store.lineSize) data).result =
        .ok (victim, t) := by
      show (u.store.insert (p.block u.store.lineSize) data).result = _
      rw [hline, ← h.store]
      exact insert
    have hcomplete : (t.complete (p.kept (u.withMore [a]).store.lineSize)).result = .ok store' := by
      show (t.complete (p.kept u.store.lineSize)).result = _
      rw [hline]
      exact complete
    have hserve := Untimed.serve_of_miss hmiss hnext payload hinsert hcomplete
    refine ⟨_, h.served_concat [a] id hserve, rfl, rfl, hhits, ?_⟩
    show lane.asked = _
    rw [took.asked, Lane.asked_gave, hasked]
    simp [Untimed.begun, Untimed.missed, Untimed.withMore, View.missing, View.answered, Service.phase]

theorem mirrors_of_fresh {g : Geometry} {gen : Generator} {contents : FlatMemory}
    (h : v.Fresh g gen contents) : Mirrors v.store v ⟨v.store, [], [], []⟩ := by
  refine ⟨?_, rfl, rfl, ?_, ?_⟩
  · rw [h.given, h.completed]
    rfl
  · rw [h.hits, View.missing_of_idle h.service]
    rfl
  · rw [View.missing_of_idle h.service, Lane.asked, h.received, h.held]
    rfl

/-! ## A memory that answers truly -/

/-- The memory holds what it received, and the answers that it gave and owes
are those to what it received. -/
structure Truth (contents : FlatMemory) (given : List Packet) (l : Lane (Recorded FreeMemory)) : Prop where
  holds : l.contents = contents.after l.received
  answers : given ++ l.owed = contents.answers l.received

variable {contents : FlatMemory} {given pushed taken : List Packet} {l k : Lane (Recorded FreeMemory)}

/-- What the memory takes is answered from what it holds. -/
theorem Truth.took (h : Truth contents given l) (took : l.Took k pushed taken) : Truth contents given k where
  holds := by rw [took.contents, took.received, h.holds, FlatMemory.after_append]
  answers := by
    rw [took.owed, took.received, FlatMemory.answers_append, ← h.answers, ← h.holds, List.append_assoc]

/-- The first answer that is owed is given. -/
theorem Truth.gave (h : Truth contents given l) {due : Packet} (howed : l.owed = [due]) :
    Truth contents (given ++ [due]) (l.gave 0) where
  holds := h.holds
  answers := by
    rw [Lane.owed_gave, howed, List.eraseIdx_zero, List.tail_cons, List.append_nil, ← howed]
    exact h.answers

theorem Truth.step (h : Truth contents v.given v.lane) (hs : Step a v v') (ha : a.IsTimed) :
    Truth contents v'.given v'.lane := by
  cases hs with
  | moved took => exact h.took took
  | accepted => exact h
  | functional => exact ha.elim
  | hit => exact h
  | missed service current access coming absent took => exact h.took took
  | filled service current access absent held owed answer payload length insert complete took =>
    cases ha
    subst answer
    exact (h.gave owed).took took

theorem truth_of_fresh {g : Geometry} {gen : Generator} (h : v.Fresh g gen contents) :
    Truth contents v.given v.lane where
  holds := by rw [h.contents, h.received, FlatMemory.after_nil]
  answers := by rw [h.given, h.owed, h.received, FlatMemory.answers_nil, List.append_nil]

/-! ## Runs -/

variable {period : Nat} {g : Geometry} {gen : Generator} {requestors : List (Nat → Bool)}
  {memory : Nat → Bool} {actions : List Action} {s : Session}

/-- After any calls of conforming peers, none of them past the timing path, a
cache without time that is given the same answers did the same with the
requests that were answered: the same accesses hit, the store is the same, and
the requests that the memory accepted, that are held by the memory side port
and that are kept back are, in this order, those to its memory.  If the memory
answered truly, the answers are those to the requests that it accepted. -/
theorem run_refines_untimed (hpos : 0 < g.lineSize) (htiming : ∀ id p, .functional id p ∉ actions)
    (hrun : (start period g gen requestors memory contents >>= run actions).result = .ok s) :
    (∃ store u, Store.ofGeometry? g gen = .ok store ∧ s.Refines store u) ∧
      ((∀ a ∈ actions, a.IsTimed) → s.Truthful contents) := by
  refine ⟨?_, fun htimed => ?_⟩
  · obtain ⟨hsteady, store, u, hstore, h⟩ := run_start
      (I := fun v => ∃ store u, Store.ofGeometry? g gen = .ok store ∧ Mirrors store v u) hpos
      (fun _ hf => ⟨_, _, hf.store, mirrors_of_fresh hf⟩)
      (fun a ha _ _ hv hs ⟨store, u, hstore, h⟩ =>
        have ⟨u', h'⟩ := h.step hv hs fun id p he => htiming id p (he ▸ ha)
        ⟨store, u', hstore, h'⟩) hrun
    have hmissing : s.view.missing = s.missing := by
      rw [View.missing, missing, hsteady.phase_view]
      rfl
    exact ⟨store, u, hstore, h.served, h.answers, h.store, hmissing ▸ h.hits, hmissing ▸ h.asked⟩
  · obtain ⟨-, h⟩ := run_start (I := fun v => Truth contents v.given v.lane) hpos
      (fun _ hf => truth_of_fresh hf) (fun a ha _ _ _ hs h => h.step hs (htimed a ha)) hrun
    exact h.answers

/-- The theorem at two requests that miss, the fetch for the second of which
waits behind a writeback that the memory refused once. -/
theorem run_refines_untimed_of_refusal :
    ∃ s, (start 1 ⟨.directMapped, 4, 1, 1, 1, .lru⟩ (.seeded 0) [fun _ => true] (fun n => n != 2) (fun _ => 0) >>=
        run [.offer 0 (.write 0 [7] 0), .fire, .answer 0, .offer 0 (.read 4 4 0), .fire, .answer 0,
          .offer 0 (.read 1 2 0), .fire, .retryRequest, .answer 0]).result = .ok s ∧
      (∃ store u, Store.ofGeometry? ⟨.directMapped, 4, 1, 1, 1, .lru⟩ (.seeded 0) = .ok store ∧
        s.Refines store u) ∧
      s.Truthful (fun _ => 0) :=
  (Sim.exists_eq_ok (by rfl)).imp fun _ h =>
    have ⟨hrefines, htruthful⟩ := run_refines_untimed (by decide) (by simp) h
    ⟨h, hrefines, htruthful (by simp [Action.IsTimed])⟩

end Session

end CacheSim
